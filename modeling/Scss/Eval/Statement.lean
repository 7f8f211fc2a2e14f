import Scss.Eval.Call
import Scss.Eval.Control
import Scss.Eval.Expression
import Scss.Eval.Module

/-!
Statements. In style blocks they give lines for the selector around them and blocks of their own;
rules are not nested in the output, so the blocks of a rule follow it. In functions they give a
value.
-/
namespace Scss.Eval

variable (setup : Setup) (self : Perform)

/-- One line for a property, or none if its value has no text. -/
def propertyLine (property text : String) (important : Bool) : List String :=
  if text.isEmpty then []
  else [property ++ ": " ++ text ++ (if important then " !important" else "") ++ ";"]

/-- The lines of a declaration. Of what is nested in it only lines count. -/
def declaration (d : Declaration Statement) (outer : Option String) : Run (List String) := do
  let name ← interpolate setup self d.property
  let property :=
    match outer with
    | some outer => outer ++ "-" ++ name
    | none => name
  let own ←
    match d.value with
    | some expr => do
      let value ← self (.evaluate expr false)
      pure (propertyLine property (setup.format.value value) d.important)
    | none => pure []
  let nested ← d.nested.mapM fun node =>
    match node with
    | .property inner => self (.declare inner (some property))
    | .comment text _ => pure [text]
    | other => do
      let outcome ← self (.block (.style 0) [other])
      pure outcome.body.declarations
  return own ++ nested.flatten

/-- Whether a variable has a value that `!default` leaves in place. -/
def isSet (machine : Machine) (name : String) (global : Bool) : Bool :=
  let existing :=
    if global then machine.current.vars.get? (normalizeName name)
    else machine.lookup? setup.registry name
  match existing with
  | some value => !value.isNull
  | none => false

def assignment (qualifier : Option String) (name : String) (expr : Expr) (default global : Bool) :
    Run PUnit := do
  match qualifier with
  | some qualifier =>
    let value ← self (.evaluate expr false)
    set (← Run.ofCause ((← get).assignQualified qualifier name value))
  | none =>
    if default && isSet setup (← get) name global then return ⟨⟩
    else
      let value ← self (.evaluate expr false)
      modify (·.assign name value global)

def message (kind : MessageKind) (expr : Expr) (line : Nat) : Run PUnit := do
  let text :=
    match ← self (.evaluate expr false) with
    | .string text _ => text
    | other => other.inspect
  let file := (← get).file
  match kind with
  | .debug => Run.log .debug s!"{file}:{line} DEBUG: {text}"
  | .warn => Run.log .warn s!"{file}:{line} WARNING: {text}"
  | .error => throw ((Fault.because (.raised text)).locate file line)

def includeMixin (qualifier : Option String) (name : String) (args : List (Argument Expr))
    (content : Option (ContentBlock Statement)) (level : Nat) : Run Body := do
  match ← Run.ofCause ((← get).mixin? qualifier name) with
  | none => Run.fail (.undefinedMixin name)
  | some mixin =>
    let values ← arguments self args
    let outcome ← Run.inMixin mixin.env content do
      bind self mixin.params values mixin.name
      self (.block (.style level) mixin.body)
    return outcome.body

/-- Run the block that the mixin was included with, if there is one. -/
def contentSlot (args : List (Argument Expr)) (level : Nat) : Run Body := do
  match (← get).contents.head?.bind ContentFrame.block with
  | none => return .empty
  | some block =>
    let values ← arguments self args
    match (← get).contents with
    | [] => return .empty
    | frame :: _ =>
      let outcome ← Run.inContent frame do
        bind self block.params values "@content"
        self (.block (.style level) block.body)
      return outcome.body

/-- A style rule. It is left out if it has no lines or nothing of its selector can match; what is
nested in it follows in any case. -/
def rule (selector : SelectorText) (body : List Statement) (level : Nat) : Run String := do
  let own ← interpolate setup self selector.text
  let resolved := Selector.resolve (← get).selector own
  let visible := Selector.visible resolved
  let compiled ← Run.withFrame false (blockUnder self (some resolved) level body)
  let nested := String.join compiled.blocks
  if compiled.declarations.isEmpty || visible.isEmpty then return nested
  else
    modify fun machine =>
      { machine with
        pending := machine.pending ++ [⟨visible, machine.file, selector.line⟩] }
    return block visible (formatDeclarations compiled.declarations (level + 1)) level ++ nested

def services : Services Run where
  capabilities := Capability.all
  evaluate expr := self (.evaluate expr false)
  formatDeclarations := formatDeclarations
  compileBody nodes selector level := blockUnder self selector level nodes
  hoist css := modify fun machine => { machine with hoisted := machine.hoisted ++ [css] }
  interpolate template := interpolate setup self template
  format := setup.format.value
  registerMixin name params body := modify (·.defineMixin name params body)

def atRule (node : Statement) (around : Option String) (level : Nat) : Run String :=
  Strategy.dispatch setup.strategies (services setup self) node around level

/-- What is around a statement as `@at-root` takes it: each group of the selector with the media
query behind it. -/
def atRootContext (media selector : Option String) : Option String :=
  match media, selector with
  | some query, some selector =>
    some (Text.join ", " ((Selector.groups selector).map fun group =>
      group ++ " @media " ++ query))
  | some query, none => some ("@media " ++ query)
  | none, selector => selector

def styleStatement (node : Statement) (level : Nat) : Run Body := do
  let parent := (← get).selector
  match node with
  | .rule selector body _ => return .ofText (← rule setup self selector body level)
  | .property d => return .ofDeclarations (← self (.declare d none))
  | .customProperty name value _ =>
    let name ← interpolate setup self name
    let value ← interpolate setup self value
    return .ofDeclarations [name ++ ": " ++ value ++ ";"]
  | .assign qualifier name value default global _ =>
    assignment setup self qualifier name value default global
    return .empty
  | .comment text _ =>
    if parent.isSome then return .ofDeclarations [text]
    else return .ofBlock (indent level ++ text ++ "\n")
  | .functionDef name params body _ =>
    modify (·.defineFunction name params body)
    return .empty
  | .returnValue _ _ => Run.fail .returnOutsideFunction
  | .ifElse tests _ => return (← branches self (.style level) tests).body
  | .eachLoop names list body _ =>
    return (← eachLoop self (.style level) names list body).body
  | .forLoop name first last inclusive body _ =>
    return (← forLoop self (.style level) name first last inclusive body).body
  | .whileLoop condition body _ => return (← self (.repeat (.style level) condition body)).body
  | .includeMixin qualifier name args content _ => includeMixin self qualifier name args content level
  | .contentSlot args _ => contentSlot self args level
  | .useModule url given config _ => useModule setup self url given config
  | .forwardModule url affix filter _ => forwardModule setup self url affix filter
  | .importSheets urls _ =>
    return (← urls.mapM (importSheet setup self level)).foldl Body.append .empty
  | .message kind value line =>
    message self kind value line
    return .empty
  | .extend selector _ line =>
    let target ← interpolate setup self selector
    let file := (← get).file
    Run.log .warn s!"{file}:{line}: @extend {target} is not supported and was ignored"
    return .empty
  | .media query _ _ =>
    let query ← interpolate setup self query
    return .ofText (← Run.withMedia query (atRule setup self node parent level))
  | .atRoot _ _ _ _ =>
    let around := atRootContext (← get).media parent
    return .ofText (← atRule setup self node around level)
  | .atRule name _ none _ =>
    if parent.isSome && name ≠ "mixin" then
      return .ofDeclarations [Text.trim (← atRule setup self node parent 0)]
    else return .ofText (← atRule setup self node parent level)
  | .atRule _ _ (some _) _ | .supports _ _ _ | .container _ _ _ | .keyframes _ _ _ _
  | .mixinDef _ _ _ _ => return .ofText (← atRule setup self node parent level)

/-- What messages call a statement that a function cannot have. -/
def statementName : Statement → String
  | .rule _ _ _ => "A style rule"
  | .property _ | .customProperty _ _ _ => "A declaration"
  | .includeMixin _ _ _ _ _ => "@include"
  | .contentSlot _ _ => "@content"
  | .mixinDef _ _ _ _ => "@mixin"
  | .functionDef _ _ _ _ => "@function"
  | .useModule _ _ _ _ | .forwardModule _ _ _ _ | .importSheets _ _ => "Loading a module"
  | _ => "This at-rule"

def functionStatement (node : Statement) : Run Yield := do
  match node with
  | .returnValue value _ => return .ofValue (← self (.evaluate value false))
  | .assign qualifier name value default global _ =>
    assignment setup self qualifier name value default global
    return .nothing
  | .ifElse tests _ => branches self .function tests
  | .eachLoop names list body _ => eachLoop self .function names list body
  | .forLoop name first last inclusive body _ =>
    forLoop self .function name first last inclusive body
  | .whileLoop condition body _ => self (.repeat .function condition body)
  | .message kind value line =>
    message self kind value line
    return .nothing
  | .comment _ _ => return .nothing
  | other =>
    Run.fail (.invalidArgument (statementName other ++ " is not allowed in a function body"))

/-- A statement. A fault in it that names no other statement names this one. -/
def statement (mode : Mode) (node : Statement) : Run Yield :=
  Run.located node.line
    (match mode with
      | .style level => do return .ofBody (← styleStatement setup self node level)
      | .function => functionStatement setup self node)

/-- Statements one behind the other, until one returns a value. -/
def statements (mode : Mode) (nodes : List Statement) : Run Yield :=
  Run.untilReturn (statement setup self mode) nodes

end Scss.Eval
