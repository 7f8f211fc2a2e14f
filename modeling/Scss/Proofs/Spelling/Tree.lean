import Mathlib.Tactic
import Scss.Builtin.Registry
import Scss.Tree.Statement

/-! Two spellings of one stylesheet. In the names of variables, parameters, arguments and mixins, and
in what a module is configured with or passes on, one of them may have an underscore where the other
one has a hyphen. All else is the same: texts, names of functions and modules, addresses and lines. -/
namespace Scss

def isJoint (c : Char) : Bool := c = '_' || c = '-'

def SameName (name other : String) : Prop :=
  List.Forall₂ (fun c d => c = d ∨ isJoint c ∧ isJoint d) name.toList other.toList

instance (name other : String) : Decidable (SameName name other) :=
  inferInstanceAs (Decidable (List.Forall₂ _ name.toList other.toList))

@[refl]
theorem SameName.refl (name : String) : SameName name name := List.forall₂_same.mpr fun _ _ => .inl rfl

/-- Spellings of one name are looked for, and are set, under one key. -/
theorem SameName.normalizeName {name other : String} (same : SameName name other) :
    normalizeName name = normalizeName other := by
  have key {c d : Char} (either : c = d ∨ isJoint c ∧ isJoint d) :
      (if c = '_' then '-' else c) = if d = '_' then '-' else d := by
    rcases either with rfl | ⟨first, second⟩
    · rfl
    · simp only [isJoint, Bool.or_eq_true, decide_eq_true_eq] at first second
      rcases first with rfl | rfl <;> rcases second with rfl | rfl <;> rfl
  have each : List.Forall₂ Eq (name.toList.map fun c => if c = '_' then '-' else c)
      (other.toList.map fun c => if c = '_' then '-' else c) :=
    List.forall₂_map_left_iff.mpr (List.forall₂_map_right_iff.mpr (same.imp fun _ _ => key))
  exact congrArg String.ofList (List.forall₂_eq_eq_eq ▸ each)

section Parts

variable {ε σ : Type}

/-- The same text, with expressions in the same places. -/
inductive Fragment.Rel (r : ε → ε → Prop) : Fragment ε → Fragment ε → Prop where
  | literal (text : String) : Rel r (.literal text) (.literal text)
  | expr {value other : ε} (values : r value other) : Rel r (.expr value) (.expr other)

inductive Interpolation.Rel (r : ε → ε → Prop) : Interpolation ε → Interpolation ε → Prop where
  | mk {parts others : List (Fragment ε)} (each : List.Forall₂ (Fragment.Rel r) parts others)
      (line : Nat) : Rel r ⟨parts, line⟩ ⟨others, line⟩

inductive Argument.Rel (r : ε → ε → Prop) : Argument ε → Argument ε → Prop where
  | mk {name other : Option String} {value also : ε} (names : Option.Rel SameName name other)
      (values : r value also) (rest : Bool) : Rel r ⟨name, value, rest⟩ ⟨other, also, rest⟩

inductive Pair.Rel (r : ε → ε → Prop) : ε × ε → ε × ε → Prop where
  | mk {key other value also : ε} (keys : r key other) (values : r value also) :
      Rel r (key, value) (other, also)

end Parts

inductive Expr.Respelled : Expr → Expr → Prop where
  | number (value : Float) (unit : Option String) (position : Position) :
      Respelled (.number value unit position) (.number value unit position)
  | string {value other : Interpolation Expr} (values : value.Rel Respelled other) (line : Nat) :
      Respelled (.string value line) (.string other line)
  | identifier (name : String) (position : Position) :
      Respelled (.identifier name position) (.identifier name position)
  | interpolated {value other : Interpolation Expr} (values : value.Rel Respelled other) :
      Respelled (.interpolated value) (.interpolated other)
  | hexColor (text : String) (position : Position) :
      Respelled (.hexColor text position) (.hexColor text position)
  | namedColor (name : String) (position : Position) :
      Respelled (.namedColor name position) (.namedColor name position)
  | boolean (value : Bool) (line : Nat) : Respelled (.boolean value line) (.boolean value line)
  | null (line : Nat) : Respelled (.null line) (.null line)
  | var {name other : String} (names : SameName name other) (line : Nat) :
      Respelled (.var name line) (.var other line)
  | member (qualifier : String) {name other : String} (names : SameName name other) (line : Nat) :
      Respelled (.member qualifier name line) (.member qualifier other line)
  | list {items others : List Expr} (each : List.Forall₂ Respelled items others)
      (separator : Separator) (bracketed : Bool) (line : Nat) :
      Respelled (.list items separator bracketed line) (.list others separator bracketed line)
  | map {pairs others : List (Expr × Expr)} (each : List.Forall₂ (Pair.Rel Respelled) pairs others)
      (line : Nat) : Respelled (.map pairs line) (.map others line)
  | binary (op : BinaryOp) {left right leftOther rightOther : Expr} (first : Respelled left leftOther)
      (second : Respelled right rightOther) (line : Nat) :
      Respelled (.binary op left right line) (.binary op leftOther rightOther line)
  | unary (op : UnaryOp) {operand other : Expr} (operands : Respelled operand other) (line : Nat) :
      Respelled (.unary op operand line) (.unary op other line)
  | paren {inner other : Expr} (inners : Respelled inner other) (line : Nat) :
      Respelled (.paren inner line) (.paren other line)
  | call (qualifier : Option String) (name : String) {args others : List (Argument Expr)}
      (each : List.Forall₂ (Argument.Rel Respelled) args others) (line : Nat) :
      Respelled (.call qualifier name args line) (.call qualifier name others line)
  | url {value other : Interpolation Expr} (values : value.Rel Respelled other) (line : Nat) :
      Respelled (.url value line) (.url other line)
  | parent (line : Nat) : Respelled (.parent line) (.parent line)
  | important (line : Nat) : Respelled (.important line) (.important line)

abbrev Template.Respelled (template other : Template) : Prop := template.Rel Expr.Respelled other

abbrev Arguments.Respelled (args others : List (Argument Expr)) : Prop :=
  List.Forall₂ (Argument.Rel Expr.Respelled) args others

inductive Parameter.Respelled : Parameter → Parameter → Prop where
  | mk {name other : String} {default also : Option Expr} (names : SameName name other)
      (defaults : Option.Rel Expr.Respelled default also) : Respelled ⟨name, default⟩ ⟨other, also⟩

inductive Parameters.Respelled : Parameters → Parameters → Prop where
  | mk {params others : List Parameter} {rest also : Option String}
      (each : List.Forall₂ Parameter.Respelled params others) (rests : Option.Rel SameName rest also) :
      Respelled ⟨params, rest⟩ ⟨others, also⟩

inductive SelectorText.Respelled : SelectorText → SelectorText → Prop where
  | mk {text other : Template} (texts : Template.Respelled text other) (line : Nat) :
      Respelled ⟨text, line⟩ ⟨other, line⟩

inductive ForwardFilter.Respelled : ForwardFilter → ForwardFilter → Prop where
  | only {names others : List String} (each : List.Forall₂ SameName names others) :
      Respelled (.only names) (.only others)
  | allBut {names others : List String} (each : List.Forall₂ SameName names others) :
      Respelled (.allBut names) (.allBut others)

inductive Setting.Respelled : String × Expr → String × Expr → Prop where
  | mk {name other : String} {value also : Expr} (names : SameName name other)
      (values : value.Respelled also) : Respelled (name, value) (other, also)

section Blocks

variable {σ : Type}

inductive Branch.Rel (r : σ → σ → Prop) : Branch σ → Branch σ → Prop where
  | mk {test other : Option Expr} {body also : List σ} (tests : Option.Rel Expr.Respelled test other)
      (bodies : List.Forall₂ r body also) (line : Nat) : Rel r ⟨test, body, line⟩ ⟨other, also, line⟩

inductive Declaration.Rel (r : σ → σ → Prop) : Declaration σ → Declaration σ → Prop where
  | mk {property label : Template} {value other : Option Expr} {nested also : List σ}
      (properties : Template.Respelled property label) (values : Option.Rel Expr.Respelled value other)
      (important : Bool) (each : List.Forall₂ r nested also) (line : Nat) :
      Rel r ⟨property, value, important, nested, line⟩ ⟨label, other, important, also, line⟩

inductive KeyframeBlock.Rel (r : σ → σ → Prop) : KeyframeBlock σ → KeyframeBlock σ → Prop where
  | mk (selectors : List String) {declarations others : List (Declaration σ)}
      (each : List.Forall₂ (Declaration.Rel r) declarations others) (line : Nat) :
      Rel r ⟨selectors, declarations, line⟩ ⟨selectors, others, line⟩

inductive ContentBlock.Rel (r : σ → σ → Prop) : ContentBlock σ → ContentBlock σ → Prop where
  | mk {params others : Parameters} {body also : List σ} (parameters : params.Respelled others)
      (bodies : List.Forall₂ r body also) : Rel r ⟨params, body⟩ ⟨others, also⟩

end Blocks

inductive Statement.Respelled : Statement → Statement → Prop where
  | rule {selector other : SelectorText} {body also : List Statement}
      (selectors : selector.Respelled other) (bodies : List.Forall₂ Respelled body also) (line : Nat) :
      Respelled (.rule selector body line) (.rule other also line)
  | property {d other : Declaration Statement} (declarations : d.Rel Respelled other) :
      Respelled (.property d) (.property other)
  | customProperty {name label value other : Template} (names : Template.Respelled name label)
      (values : Template.Respelled value other) (line : Nat) :
      Respelled (.customProperty name value line) (.customProperty label other line)
  | assign (qualifier : Option String) {name label : String} {value other : Expr}
      (names : SameName name label) (values : value.Respelled other) (default global : Bool)
      (line : Nat) :
      Respelled (.assign qualifier name value default global line)
        (.assign qualifier label other default global line)
  | atRule (name : String) {value other : Template} {body also : Option (List Statement)}
      (values : Template.Respelled value other) (bodies : Option.Rel (List.Forall₂ Respelled) body also)
      (line : Nat) : Respelled (.atRule name value body line) (.atRule name other also line)
  | atRoot {selector other : Option SelectorText} (query : Option AtRootQuery)
      {body also : List Statement} (selectors : Option.Rel SelectorText.Respelled selector other)
      (bodies : List.Forall₂ Respelled body also) (line : Nat) :
      Respelled (.atRoot selector query body line) (.atRoot other query also line)
  | media {query other : Template} {body also : List Statement} (queries : Template.Respelled query other)
      (bodies : List.Forall₂ Respelled body also) (line : Nat) :
      Respelled (.media query body line) (.media other also line)
  | supports {condition other : Template} {body also : List Statement}
      (conditions : Template.Respelled condition other) (bodies : List.Forall₂ Respelled body also)
      (line : Nat) : Respelled (.supports condition body line) (.supports other also line)
  | container {query other : Template} {body also : List Statement}
      (queries : Template.Respelled query other) (bodies : List.Forall₂ Respelled body also)
      (line : Nat) : Respelled (.container query body line) (.container other also line)
  | keyframes (keyword : String) {name label : Template} {blocks others : List (KeyframeBlock Statement)}
      (names : Template.Respelled name label)
      (each : List.Forall₂ (KeyframeBlock.Rel Respelled) blocks others) (line : Nat) :
      Respelled (.keyframes keyword name blocks line) (.keyframes keyword label others line)
  | comment (text : String) (line : Nat) : Respelled (.comment text line) (.comment text line)
  | ifElse {branches others : List (Branch Statement)}
      (each : List.Forall₂ (Branch.Rel Respelled) branches others) (line : Nat) :
      Respelled (.ifElse branches line) (.ifElse others line)
  | eachLoop {names others : List String} {list other : Expr} {body also : List Statement}
      (each : List.Forall₂ SameName names others) (lists : list.Respelled other)
      (bodies : List.Forall₂ Respelled body also) (line : Nat) :
      Respelled (.eachLoop names list body line) (.eachLoop others other also line)
  | forLoop {name label : String} {first last firstOther lastOther : Expr} {body also : List Statement}
      (names : SameName name label) (firsts : first.Respelled firstOther)
      (lasts : last.Respelled lastOther) (inclusive : Bool) (bodies : List.Forall₂ Respelled body also)
      (line : Nat) :
      Respelled (.forLoop name first last inclusive body line)
        (.forLoop label firstOther lastOther inclusive also line)
  | whileLoop {condition other : Expr} {body also : List Statement}
      (conditions : condition.Respelled other) (bodies : List.Forall₂ Respelled body also) (line : Nat) :
      Respelled (.whileLoop condition body line) (.whileLoop other also line)
  | mixinDef {name label : String} {params others : Parameters} {body also : List Statement}
      (names : SameName name label) (parameters : params.Respelled others)
      (bodies : List.Forall₂ Respelled body also) (line : Nat) :
      Respelled (.mixinDef name params body line) (.mixinDef label others also line)
  | functionDef (name : String) {params others : Parameters} {body also : List Statement}
      (parameters : params.Respelled others) (bodies : List.Forall₂ Respelled body also) (line : Nat) :
      Respelled (.functionDef name params body line) (.functionDef name others also line)
  | returnValue {value other : Expr} (values : value.Respelled other) (line : Nat) :
      Respelled (.returnValue value line) (.returnValue other line)
  | includeMixin (qualifier : Option String) {name label : String} {args others : List (Argument Expr)}
      {content also : Option (ContentBlock Statement)} (names : SameName name label)
      (each : Arguments.Respelled args others)
      (contents : Option.Rel (ContentBlock.Rel Respelled) content also) (line : Nat) :
      Respelled (.includeMixin qualifier name args content line)
        (.includeMixin qualifier label others also line)
  | contentSlot {args others : List (Argument Expr)} (each : Arguments.Respelled args others)
      (line : Nat) : Respelled (.contentSlot args line) (.contentSlot others line)
  | useModule (url : String) (given : Option String) {config others : List (String × Expr)}
      (each : List.Forall₂ Setting.Respelled config others) (line : Nat) :
      Respelled (.useModule url given config line) (.useModule url given others line)
  | forwardModule (url : String) {affix other : Option String} {filter also : Option ForwardFilter}
      (affixes : Option.Rel SameName affix other) (filters : Option.Rel ForwardFilter.Respelled filter also)
      (line : Nat) : Respelled (.forwardModule url affix filter line) (.forwardModule url other also line)
  | importSheets (urls : List String) (line : Nat) :
      Respelled (.importSheets urls line) (.importSheets urls line)
  | message (kind : MessageKind) {value other : Expr} (values : value.Respelled other) (line : Nat) :
      Respelled (.message kind value line) (.message kind other line)
  | extend {selector other : Template} (selectors : Template.Respelled selector other) (optional : Bool)
      (line : Nat) : Respelled (.extend selector optional line) (.extend other optional line)

abbrev Statements.Respelled (nodes others : List Statement) : Prop :=
  List.Forall₂ Statement.Respelled nodes others

theorem Statement.Respelled.line {node other : Statement} (spelled : node.Respelled other) :
    other.line = node.line := by
  cases spelled with
  | property declarations =>
    cases declarations
    rfl
  | _ => rfl

/-- A slash divides in both spellings, or in none. -/
theorem Expr.Respelled.isCalculated {expr other : Expr} (spelled : expr.Respelled other) :
    other.isCalculated = expr.isCalculated := by
  induction expr using Expr.isCalculated.induct generalizing other with
  | case6 left right line first second =>
    cases spelled with
    | binary _ left right => simp only [Expr.isCalculated, first left, second right]
  | _ => cases spelled <;> simp_all [Expr.isCalculated]

namespace Expr.Respelled

-- Along the constructors of the tree, with the lists inside it.
mutual

@[refl]
protected theorem refl : (expr : Expr) → Respelled expr expr
  | .number value unit position => .number value unit position
  | .string ⟨parts, inner⟩ line => .string (.mk (fragments parts) inner) line
  | .identifier name position => .identifier name position
  | .interpolated ⟨parts, line⟩ => .interpolated (.mk (fragments parts) line)
  | .hexColor text position => .hexColor text position
  | .namedColor name position => .namedColor name position
  | .boolean value line => .boolean value line
  | .null line => .null line
  | .var name line => .var (.refl name) line
  | .member qualifier name line => .member qualifier (.refl name) line
  | .list items separator bracketed line => .list (exprs items) separator bracketed line
  | .map items line => .map (pairs items) line
  | .binary op left right line => .binary op (Respelled.refl left) (Respelled.refl right) line
  | .unary op operand line => .unary op (Respelled.refl operand) line
  | .paren inner line => .paren (Respelled.refl inner) line
  | .call qualifier name args line => .call qualifier name (arguments args) line
  | .url ⟨parts, inner⟩ line => .url (.mk (fragments parts) inner) line
  | .parent line => .parent line
  | .important line => .important line

theorem exprs : (items : List Expr) → List.Forall₂ Respelled items items
  | [] => .nil
  | expr :: rest => .cons (Respelled.refl expr) (exprs rest)

theorem fragments : (parts : List (Fragment Expr)) → List.Forall₂ (Fragment.Rel Respelled) parts parts
  | [] => .nil
  | .literal text :: rest => .cons (.literal text) (fragments rest)
  | .expr value :: rest => .cons (.expr (Respelled.refl value)) (fragments rest)

theorem pairs : (items : List (Expr × Expr)) → List.Forall₂ (Pair.Rel Respelled) items items
  | [] => .nil
  | (key, value) :: rest => .cons (.mk (Respelled.refl key) (Respelled.refl value)) (pairs rest)

theorem arguments : (args : List (Argument Expr)) →
    List.Forall₂ (Argument.Rel Respelled) args args
  | [] => .nil
  | ⟨none, value, rest⟩ :: others => .cons (.mk .none (Respelled.refl value) rest) (arguments others)
  | ⟨some name, value, rest⟩ :: others =>
    .cons (.mk (.some (.refl name)) (Respelled.refl value) rest) (arguments others)

end

end Expr.Respelled

theorem Option.rel_refl {α : Type} {r : α → α → Prop} (same : ∀ value, r value value)
    (value : Option α) : Option.Rel r value value := by
  cases value with
  | none => exact .none
  | some value => exact .some (same value)

@[refl]
theorem Parameters.Respelled.refl (params : Parameters) : params.Respelled params := by
  refine .mk (List.forall₂_same.mpr fun param _ => ?_) (Option.rel_refl SameName.refl _)
  exact .mk (.refl _) (Option.rel_refl Expr.Respelled.refl _)

end Scss
