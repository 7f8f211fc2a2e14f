import Scss.Eval

/-! Parts of the evaluator that stand inside longer definitions, under names of their own. Each is, by
unfolding, what the definition does there, so a lemma about the part is a step of the lemma about the
whole. -/
namespace Scss

section Handlers

variable {m : Type → Type} [Monad m] [MonadExceptOf Fault m] (context : Context m)

/-- A rule with a condition, once the condition is written out; `change` is what is done to its
contents. -/
def Conditional.finish (keyword condition : String) (body : List Statement) (parent : Option String)
    (level : Nat) (change : String → String) : m String := do
  let compiled ← context.compileBody body parent (level + 1)
  let rendered ← context.renderBody compiled parent (level + 1)
  let contents := change rendered
  if !body.isEmpty && Text.isBlank contents then return ""
  else return wrapBlock ("@" ++ keyword ++ " " ++ condition) contents level

/-- The body of `@at-root`, once the selector of the rule is written out. -/
def AtRoot.finish (around : Option String) (query : Option AtRootQuery) (body : List Statement)
    (level : Nat) (own : Option String) : m String := do
  let (kept, leavesMedia) := filter around query
  let selector := effective kept own
  let level := if leavesMedia then 0 else level
  let compiled ← context.compileBody body (if selector = "" then none else some selector) level
  let css ← context.renderBody compiled (some selector) level
  if leavesMedia then
    context.hoist css
    return ""
  else return css

end Handlers

namespace Eval

def nestedLines (self : Perform) (property : String) (node : Statement) : Run (List String) :=
  match node with
  | .property inner => self (.declare inner (some property))
  | .comment text _ => pure [text]
  | other => do
    let outcome ← self (.block (.style 0) [other])
    pure outcome.body.declarations

/-- The call that `call()` makes, to what it is given as a function. -/
def callTarget (self : Perform) (target : Value) (args : CallArgs) : Run Value :=
  match target with
  | .function reference => self (.call reference.qualifier reference.name args)
  | .string name _ => self (.call none name args)
  | other => Run.fail (Slots.typeFault "function" "function reference" other)

end Eval

end Scss
