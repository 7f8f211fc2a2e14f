import Scss.Fault
import Scss.Tree.Statement
import Scss.Value

/-!
What the handlers of at-rules borrow from the evaluator. A handler says in advance which
capabilities it needs; it gets a context that hands out these and no others, and none at all if the
services lack one of them.

Services are given over any monad, so handlers can be run and reasoned about without the evaluator.
-/
namespace Scss

inductive Capability where
  | evaluate
  | declarations
  | blocks
  | interpolation
  | format
  | mixins
deriving DecidableEq

namespace Capability

/-- All capabilities, in the order in which they are checked. -/
def all : List Capability := [evaluate, declarations, blocks, interpolation, format, mixins]

def text : Capability → String
  | evaluate => "expression evaluator"
  | declarations => "declaration compiler"
  | blocks => "AST compiler"
  | interpolation => "interpolation evaluator"
  | format => "value formatter"
  | mixins => "mixin registrar"

/-- The first capability that is required and not provided. -/
def missing? (required provided : List Capability) : Option Capability :=
  all.find? (fun capability => required.contains capability && !provided.contains capability)

end Capability

/-- A compiled body: lines for the selector around it, and blocks that stand on their own. -/
structure Body where
  declarations : List String
  blocks : List String
deriving DecidableEq

namespace Body

def empty : Body := ⟨[], []⟩

def isEmpty (body : Body) : Bool := body.declarations.isEmpty && body.blocks.isEmpty

def append (first second : Body) : Body :=
  ⟨first.declarations ++ second.declarations, first.blocks ++ second.blocks⟩

def ofDeclarations (lines : List String) : Body := ⟨lines, []⟩

def ofBlock (css : String) : Body := ⟨[], [css]⟩

/-- A block, unless its text is empty. -/
def ofText (css : String) : Body := if css.isEmpty then empty else ofBlock css

@[simp]
theorem append_empty (body : Body) : body.append empty = body := by simp [append, empty]

@[simp]
theorem empty_append (body : Body) : empty.append body = body := by simp [append, empty]

theorem append_assoc (a b c : Body) : (a.append b).append c = a.append (b.append c) := by
  simp [append]

end Body

def indent (level : Nat) : String := String.ofList (List.replicate (2 * level) ' ')

/-- What a handler can be given. -/
structure Services (m : Type → Type) where
  capabilities : List Capability
  evaluate : Expr → m Value
  /-- Lines indented to a level. -/
  formatDeclarations : List String → Nat → String
  /-- Statements under a selector, with rules at a level. -/
  compileBody : List Statement → Option String → Nat → m Body
  /-- Put a block to the end of the whole output. -/
  hoist : String → m Unit
  interpolate : Template → m String
  format : Value → String
  registerMixin : String → Parameters → List Statement → m Unit

/-- Services restricted to what one handler requires. -/
structure Context (m : Type → Type) where
  strategy : String
  allowed : List Capability
  services : Services m

namespace Context

variable {m : Type → Type}

/-- The context of a handler, if the services provide what it requires. -/
def create (strategy : String) (required : List Capability) (services : Services m) :
    Except ConfigurationFault (Context m) :=
  match Capability.missing? required services.capabilities with
  | some capability => .error (.missingCapability strategy capability.text)
  | none => .ok ⟨strategy, required, services⟩

variable [Monad m] [MonadExceptOf Fault m]

/-- Fail unless a capability is allowed. -/
def check (context : Context m) (capability : Capability) : m PUnit :=
  if context.allowed.contains capability then pure ⟨⟩
  else throw (.configuration (.missingCapability context.strategy capability.text))

def evaluate (context : Context m) (expr : Expr) : m Value := do
  context.check .evaluate
  context.services.evaluate expr

def formatDeclarations (context : Context m) (lines : List String) (level : Nat) : m String := do
  context.check .declarations
  return context.services.formatDeclarations lines level

def compileBody (context : Context m) (nodes : List Statement) (selector : Option String)
    (level : Nat) : m Body := do
  context.check .blocks
  context.services.compileBody nodes selector level

def hoist (context : Context m) (css : String) : m PUnit := do
  context.check .blocks
  context.services.hoist css

def interpolate (context : Context m) (template : Template) : m String := do
  context.check .interpolation
  context.services.interpolate template

def format (context : Context m) (value : Value) : m String := do
  context.check .format
  return context.services.format value

def registerMixin (context : Context m) (name : String) (params : Parameters)
    (body : List Statement) : m PUnit := do
  context.check .mixins
  context.services.registerMixin name params body

end Context

/-- A block: a head, its contents and a closing brace, each on lines of their own. -/
def block (head contents : String) (level : Nat) : String :=
  indent level ++ head ++ " \x7b\n" ++ contents ++ indent level ++ "\x7d\n"

def dropNewlines (text : String) : String :=
  String.ofList (text.toList.reverse.dropWhile (· = '\n')).reverse

/-- A block whose contents end with exactly one line feed. -/
def wrapBlock (head contents : String) (level : Nat) : String :=
  block head (dropNewlines contents ++ "\n") level

namespace Context

variable {m : Type → Type} [Monad m] [MonadExceptOf Fault m]

/-- Lines under a selector, or as they are without one; and no text at all for no lines. -/
def renderDeclarations (context : Context m) (lines : List String) (selector : String)
    (level : Nat) : m String := do
  if lines.isEmpty then return ""
  else if selector = "" then context.formatDeclarations lines level
  else return block selector (← context.formatDeclarations lines (level + 1)) level

/-- The contents of a block: its lines under the selector around it, and its blocks. -/
def renderBody (context : Context m) (body : Body) (selector : Option String) (level : Nat) :
    m String := do
  let lines ← context.renderDeclarations body.declarations (selector.getD "") level
  return lines ++ String.join body.blocks

end Context

end Scss
