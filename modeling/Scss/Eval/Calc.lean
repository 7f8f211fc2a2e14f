import Scss.Eval.Job
import Scss.Eval.Operator

/-!
`calc()`. Numbers that go together are computed; the rest stays text for the browser.
-/
namespace Scss

namespace CalcTerm

def css : CalcTerm → String
  | number n => n.css
  | text css => css

/-- A term in parentheses, which a number does not need. -/
def grouped : CalcTerm → CalcTerm
  | number n => .number n
  | text css => .text ("(" ++ css ++ ")")

/-- Compute with two numbers, if they can be computed with. -/
def fold? (op : BinaryOp) (a b : Number) : Except Cause (Option Number) :=
  match op with
  | .add => if a.compatible b then some <$> a.add b else .ok none
  | .sub => if a.compatible b then some <$> a.sub b else .ok none
  | .mul => .ok (some (a.mul b))
  | .div => some <$> a.div b
  | _ => .ok none

def combine (op : BinaryOp) (left right : CalcTerm) : Except Cause CalcTerm := do
  let folded ←
    match left, right with
    | .number a, .number b => fold? op a b
    | _, _ => pure none
  match folded with
  | some n => return .number n
  | none => return .text (left.css ++ " " ++ op.symbol ++ " " ++ right.css)

/-- The operators of `calc()`. -/
def isOperator (op : BinaryOp) : Bool := op = .add || op = .sub || op = .mul || op = .div

end CalcTerm

namespace Eval

variable (setup : Setup) (self : Perform)

/-- A term by the value of its expression. -/
def plainTerm (expr : Expr) : Run CalcTerm := do
  match ← self (.evaluate expr false) with
  | .number n => return .number n
  | value => return .text (setup.format.value value)

/-- The term of an expression inside `calc()`. -/
def calculation (expr : Expr) : Run CalcTerm := do
  match expr with
  | .binary op left right _ =>
    if CalcTerm.isOperator op then
      let left ← self (.calculate left)
      let right ← self (.calculate right)
      Run.ofCause (CalcTerm.combine op left right)
    else plainTerm setup self expr
  | .paren inner _ => return (← self (.calculate inner)).grouped
  | .call none "calc" [arg] _ => return (← self (.calculate arg.value)).grouped
  | expr => plainTerm setup self expr

end Eval

end Scss
