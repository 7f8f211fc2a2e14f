import Scss.Eval.Calc
import Scss.Eval.Statement

/-!
The evaluator: its parts tied together. How deep they nest is bounded, so that evaluation ends for
every stylesheet; one that calls itself without end reaches the bound, and fails with a fault that
says so.
-/
namespace Scss.Eval

/-- Perform a job, given how the jobs inside it are performed. -/
def step (setup : Setup) (self : Perform) {α : Type} : Job α → Run α
  | .evaluate expr divides => expression setup self expr divides
  | .calculate expr => calculation setup self expr
  | .call qualifier name args => invoke setup self qualifier name args
  | .declare d outer => declaration setup self d outer
  | .block mode nodes => statements setup self mode nodes
  | .repeat mode condition nodes => whileLoop self mode condition nodes

/-- Perform a job with jobs nested at most `depth` deep. -/
def perform (setup : Setup) : Nat → Perform
  | 0, _, _ => throw .exhausted
  | depth + 1, _, job => step setup (fun inner => perform setup depth inner) job

def depthBound : Nat := 1000000000

def stylesheet (setup : Setup) (nodes : List Statement) : Run String :=
  sheet (perform setup depthBound) nodes

/-- The value of an expression outside of all statements. -/
def value (setup : Setup) (expr : Expr) : Run Value :=
  perform setup depthBound (.evaluate expr false)

end Scss.Eval
