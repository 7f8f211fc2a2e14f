import Scss.Proofs.Braces
import Scss.Tree.Statement

/-! Trees without braces in their texts. Names that only a scope sees do not matter: what counts are
the texts that can come to the output, and the expressions that they can come from. -/
namespace Scss

inductive Expr.Braceless : Expr → Prop where
  | number {unit : Option String} (value : Float) (position : Position)
      (clean : ∀ text ∈ unit, Text.Braceless text) : Braceless (.number value unit position)
  | string {value : Template} (line : Nat)
      (literals : ∀ text, .literal text ∈ value.parts → Text.Braceless text)
      (exprs : ∀ expr, .expr expr ∈ value.parts → Braceless expr) : Braceless (.string value line)
  | identifier {name : String} (position : Position) (clean : Text.Braceless name) :
      Braceless (.identifier name position)
  | interpolated {value : Template}
      (literals : ∀ text, .literal text ∈ value.parts → Text.Braceless text)
      (exprs : ∀ expr, .expr expr ∈ value.parts → Braceless expr) : Braceless (.interpolated value)
  | hexColor {text : String} (position : Position) (clean : Text.Braceless text) :
      Braceless (.hexColor text position)
  | namedColor {name : String} (position : Position) (clean : Text.Braceless name) :
      Braceless (.namedColor name position)
  | boolean (value : Bool) (line : Nat) : Braceless (.boolean value line)
  | null (line : Nat) : Braceless (.null line)
  | var (name : String) (line : Nat) : Braceless (.var name line)
  | member (qualifier name : String) (line : Nat) : Braceless (.member qualifier name line)
  | list {items : List Expr} (separator : Separator) (bracketed : Bool) (line : Nat)
      (clean : ∀ item ∈ items, Braceless item) : Braceless (.list items separator bracketed line)
  | map {pairs : List (Expr × Expr)} (line : Nat) (keys : ∀ pair ∈ pairs, Braceless pair.1)
      (values : ∀ pair ∈ pairs, Braceless pair.2) : Braceless (.map pairs line)
  | binary {left right : Expr} (op : BinaryOp) (line : Nat) (first : Braceless left)
      (second : Braceless right) : Braceless (.binary op left right line)
  | unary {operand : Expr} (op : UnaryOp) (line : Nat) (clean : Braceless operand) :
      Braceless (.unary op operand line)
  | paren {inner : Expr} (line : Nat) (clean : Braceless inner) : Braceless (.paren inner line)
  | call {name : String} {args : List (Argument Expr)} (qualifier : Option String) (line : Nat)
      (label : Text.Braceless name) (names : ∀ arg ∈ args, ∀ text ∈ arg.name, Text.Braceless text)
      (values : ∀ arg ∈ args, Braceless arg.value) : Braceless (.call qualifier name args line)
  | url {value : Template} (line : Nat)
      (literals : ∀ text, .literal text ∈ value.parts → Text.Braceless text)
      (exprs : ∀ expr, .expr expr ∈ value.parts → Braceless expr) : Braceless (.url value line)
  | parent (line : Nat) : Braceless (.parent line)
  | important (line : Nat) : Braceless (.important line)

/-- A template without braces in its text or in its expressions. -/
structure Template.Braceless (template : Template) : Prop where
  literals : ∀ text, .literal text ∈ template.parts → Text.Braceless text
  exprs : ∀ expr, .expr expr ∈ template.parts → expr.Braceless

/-- An argument without braces in its name or in its value. -/
structure Argument.Braceless (arg : Argument Expr) : Prop where
  name : ∀ text ∈ arg.name, Text.Braceless text
  value : arg.value.Braceless

def Parameters.Braceless (params : Parameters) : Prop :=
  ∀ param ∈ params.params, ∀ default ∈ param.default, Expr.Braceless default

/-- A statement that loads no other file, and without braces in its texts. -/
inductive Statement.SelfContained : Statement → Prop where
  | rule {selector : SelectorText} {body : List Statement} (line : Nat)
      (head : Template.Braceless selector.text) (inner : ∀ node ∈ body, SelfContained node) :
      SelfContained (.rule selector body line)
  | property {declaration : Declaration Statement} (name : Template.Braceless declaration.property)
      (value : ∀ value ∈ declaration.value, Expr.Braceless value)
      (inner : ∀ node ∈ declaration.nested, SelfContained node) :
      SelfContained (.property declaration)
  | customProperty {name value : Template} (line : Nat) (label : name.Braceless)
      (clean : value.Braceless) : SelfContained (.customProperty name value line)
  | assign {value : Expr} (qualifier : Option String) (name : String) (default global : Bool)
      (line : Nat) (clean : value.Braceless) :
      SelfContained (.assign qualifier name value default global line)
  | atRule {name : String} {value : Template} {body : Option (List Statement)} (line : Nat)
      (label : Text.Braceless name) (clean : value.Braceless)
      (inner : ∀ nodes ∈ body, ∀ node ∈ nodes, SelfContained node) :
      SelfContained (.atRule name value body line)
  | atRoot {selector : Option SelectorText} {body : List Statement} (query : Option AtRootQuery)
      (line : Nat) (head : ∀ own ∈ selector, Template.Braceless own.text)
      (inner : ∀ node ∈ body, SelfContained node) :
      SelfContained (.atRoot selector query body line)
  | media {query : Template} {body : List Statement} (line : Nat) (head : query.Braceless)
      (inner : ∀ node ∈ body, SelfContained node) : SelfContained (.media query body line)
  | supports {condition : Template} {body : List Statement} (line : Nat)
      (head : condition.Braceless) (inner : ∀ node ∈ body, SelfContained node) :
      SelfContained (.supports condition body line)
  | container {query : Template} {body : List Statement} (line : Nat) (head : query.Braceless)
      (inner : ∀ node ∈ body, SelfContained node) : SelfContained (.container query body line)
  | keyframes {keyword : String} {name : Template} {blocks : List (KeyframeBlock Statement)}
      (line : Nat) (label : Text.Braceless keyword) (head : name.Braceless)
      (selectors : ∀ keyframe ∈ blocks, ∀ text ∈ keyframe.selectors, Text.Braceless text)
      (inner : ∀ keyframe ∈ blocks, ∀ declaration ∈ keyframe.declarations,
        SelfContained (.property declaration)) :
      SelfContained (.keyframes keyword name blocks line)
  | comment {text : String} (line : Nat) (clean : Text.Braceless text) :
      SelfContained (.comment text line)
  | ifElse {branches : List (Branch Statement)} (line : Nat)
      (tests : ∀ branch ∈ branches, ∀ test ∈ branch.test, Expr.Braceless test)
      (inner : ∀ branch ∈ branches, ∀ node ∈ branch.body, SelfContained node) :
      SelfContained (.ifElse branches line)
  | eachLoop {list : Expr} {body : List Statement} (names : List String) (line : Nat)
      (clean : list.Braceless) (inner : ∀ node ∈ body, SelfContained node) :
      SelfContained (.eachLoop names list body line)
  | forLoop {first last : Expr} {body : List Statement} (name : String) (inclusive : Bool)
      (line : Nat) (start : first.Braceless) (stop : last.Braceless)
      (inner : ∀ node ∈ body, SelfContained node) :
      SelfContained (.forLoop name first last inclusive body line)
  | whileLoop {condition : Expr} {body : List Statement} (line : Nat) (clean : condition.Braceless)
      (inner : ∀ node ∈ body, SelfContained node) : SelfContained (.whileLoop condition body line)
  | mixinDef {params : Parameters} {body : List Statement} (name : String) (line : Nat)
      (defaults : params.Braceless) (inner : ∀ node ∈ body, SelfContained node) :
      SelfContained (.mixinDef name params body line)
  | functionDef {params : Parameters} {body : List Statement} (name : String) (line : Nat)
      (defaults : params.Braceless) (inner : ∀ node ∈ body, SelfContained node) :
      SelfContained (.functionDef name params body line)
  | returnValue {value : Expr} (line : Nat) (clean : value.Braceless) :
      SelfContained (.returnValue value line)
  | includeMixin {args : List (Argument Expr)} {content : Option (ContentBlock Statement)}
      (qualifier : Option String) (name : String) (line : Nat)
      (clean : ∀ arg ∈ args, arg.Braceless)
      (defaults : ∀ block ∈ content, block.params.Braceless)
      (inner : ∀ block ∈ content, ∀ node ∈ block.body, SelfContained node) :
      SelfContained (.includeMixin qualifier name args content line)
  | contentSlot {args : List (Argument Expr)} (line : Nat)
      (clean : ∀ arg ∈ args, arg.Braceless) : SelfContained (.contentSlot args line)
  | message {value : Expr} (kind : MessageKind) (line : Nat) (clean : value.Braceless) :
      SelfContained (.message kind value line)
  | extend {selector : Template} (optional : Bool) (line : Nat) (clean : selector.Braceless) :
      SelfContained (.extend selector optional line)

end Scss
