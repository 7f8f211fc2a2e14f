import Scss.Machine.Scope

/-!
What evaluation calls itself for. Every part of the evaluator takes the performance of such jobs as
a parameter, so it can be read, and reasoned about, without the others; the parts are tied together
in one place only, where a bound counts how deep they may nest.
-/
namespace Scss

/-- Where statements run. -/
inductive Mode where
  /-- In a style block, with rules at a level. -/
  | style (level : Nat)
  /-- In the body of a function, which gives no output. -/
  | function
deriving DecidableEq

/-- What statements come to: output, or a value that ends them. -/
structure Yield where
  body : Body
  returned : Option Value

namespace Yield

def nothing : Yield := ⟨.empty, none⟩

def ofBody (body : Body) : Yield := ⟨body, none⟩

def ofValue (value : Value) : Yield := ⟨.empty, some value⟩

def append (first second : Yield) : Yield := ⟨first.body.append second.body, second.returned⟩

end Yield

/-- An operand inside `calc()`: a number, or text for the browser. -/
inductive CalcTerm where
  | number (n : Number)
  | text (css : String)

inductive Job : Type → Type where
  /-- The value of an expression. With `divides`, a slash between two literals divides. -/
  | evaluate (expr : Expr) (divides : Bool) : Job Value
  | calculate (expr : Expr) : Job CalcTerm
  /-- Call a function with values. -/
  | call (qualifier : Option String) (name : String) (args : CallArgs) : Job Value
  /-- The lines of a declaration, nested in the property `outer`. -/
  | declare (declaration : Declaration Statement) (outer : Option String) : Job (List String)
  | block (mode : Mode) (nodes : List Statement) : Job Yield
  /-- Run a block as long as a condition holds. -/
  | repeat (mode : Mode) (condition : Expr) (nodes : List Statement) : Job Yield

abbrev Perform := {α : Type} → Job α → Run α

namespace Run

variable {α : Type}

/-- Run a step for each member, until one of them returns. -/
def untilReturn (step : α → Run Yield) : List α → Run Yield
  | [] => pure .nothing
  | item :: rest => do
    let first ← step item
    match first.returned with
    | some _ => return first
    | none => return first.append (← untilReturn step rest)

end Run

end Scss
