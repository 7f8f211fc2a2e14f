import Scss.AtRule.AtRoot
import Scss.AtRule.Conditional
import Scss.AtRule.Generic
import Scss.AtRule.Keyframes

/-!
Handlers of at-rules, and which of them handles what. Handlers are asked in order, and the first
that takes the kind of a rule compiles it.
-/
namespace Scss

inductive Strategy where
  | conditional
  | keyframes
  | atRoot
  | generic
deriving DecidableEq

/-- The kind by which a statement finds its handler, if it has one. -/
def Statement.kind? : Statement → Option String
  | .media _ _ _ => some "media"
  | .supports _ _ _ => some "supports"
  | .container _ _ _ => some "container"
  | .keyframes keyword _ _ _ => some keyword
  | .atRoot _ _ _ _ => some "at-root"
  | .mixinDef _ _ _ _ => some "mixin"
  | .atRule name _ _ _ => some name
  | _ => none

namespace Strategy

def all : List Strategy := [conditional, keyframes, atRoot, generic]

def name : Strategy → String
  | conditional => "conditional"
  | keyframes => "keyframes"
  | atRoot => "at-root"
  | generic => "generic"

def handles (strategy : Strategy) (kind : String) : Bool :=
  match strategy with
  | conditional => kind = "media" || kind = "supports" || kind = "container"
  | keyframes => kind = "keyframes" || Text.endsWith "-keyframes" kind
  | atRoot => kind = "at-root"
  | generic => true

def required : Strategy → List Capability
  | conditional => Conditional.required
  | keyframes => Keyframes.required
  | atRoot => AtRoot.required
  | generic => Generic.required

/-- The first of `strategies` that handles a kind. -/
def find? (strategies : List Strategy) (kind : String) : Option Strategy :=
  strategies.find? (fun strategy => strategy.handles kind)

variable {m : Type → Type} [Monad m] [MonadExceptOf Fault m]

/-- Compile a statement in a context. What the handler does not know comes to nothing. -/
def compile (strategy : Strategy) (context : Context m) (node : Statement)
    (parent : Option String) (level : Nat) : m String :=
  match strategy with
  | conditional => Conditional.compile context node parent level
  | keyframes => Keyframes.compile context node level
  | atRoot => AtRoot.compile context node parent level
  | generic => Generic.compile context node parent level

/-- Compile a statement with services that may lack what the handler requires. -/
def run (strategy : Strategy) (services : Services m) (node : Statement) (parent : Option String)
    (level : Nat) : m String := do
  match Context.create strategy.name strategy.required services with
  | .error fault => throw (.configuration fault)
  | .ok context => strategy.compile context node parent level

/-- Compile a statement with the first handler that takes it. -/
def dispatch (strategies : List Strategy) (services : Services m) (node : Statement)
    (parent : Option String) (level : Nat) : m String :=
  match node.kind? with
  | none => throw (.configuration (.noStrategy "statement"))
  | some kind =>
    match find? strategies kind with
    | none => throw (.configuration (.noStrategy kind))
    | some strategy => strategy.run services node parent level

end Strategy

end Scss
