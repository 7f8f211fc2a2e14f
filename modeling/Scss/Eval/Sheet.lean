import Scss.Eval.Job

/-!
Blocks under a selector, and stylesheets as the chunks of their statements.
-/
namespace Scss

def formatDeclarations (lines : List String) (level : Nat) : String :=
  String.join (lines.map fun line => indent level ++ line ++ "\n")

namespace Eval

variable (self : Perform)

/-- The output of statements under a selector. -/
def blockUnder (selector : Option String) (level : Nat) (nodes : List Statement) : Run Body := do
  let outcome ← Run.withSelector selector (self (.block (.style level) nodes))
  return outcome.body

/-- The texts of a body outside of all rules: its lines as one, and its blocks. -/
def bodyChunks (body : Body) : List String :=
  let lines :=
    if body.declarations.isEmpty then [] else [formatDeclarations body.declarations 0]
  lines ++ body.blocks.filter (fun css => !css.isEmpty)

/-- The chunks of a stylesheet, statement by statement. -/
def chunks (nodes : List Statement) : Run (List String) := do
  let parts ← nodes.mapM fun node => do return bodyChunks (← blockUnder self none 0 [node])
  return parts.flatten

/-- The text of a main stylesheet. What was put to the end closes it. -/
def sheet (nodes : List Statement) : Run String := do
  let parts ← chunks self nodes
  let machine ← get
  set { machine with hoisted := [] }
  return Text.join "\n" (parts ++ machine.hoisted)

end Eval

end Scss
