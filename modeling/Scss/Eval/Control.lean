import Scss.Eval.Job

/-!
Conditionals and loops, the same in style blocks and in functions. Every run of a body has a frame of
its own, and a value that a body returns ends the loop.
-/
namespace Scss.Eval

variable (self : Perform)

def runScoped (mode : Mode) (body : List Statement) : Run Yield := do
  let semiGlobal := (← get).isSemiGlobal
  Run.withFrame semiGlobal (self (.block mode body))

def holds (condition : Expr) : Run Bool := do
  return (← self (.evaluate condition false)).isTruthy

def branches (mode : Mode) : List (Branch Statement) → Run Yield
  | [] => return .nothing
  | branch :: rest => do
    let taken ←
      match branch.test with
      | some test => holds self test
      | none => pure true
    if taken then runScoped self mode branch.body else branches mode rest

/-- Run a body, and again as long as the condition holds. -/
def whileLoop (mode : Mode) (condition : Expr) (body : List Statement) : Run Yield := do
  if ← holds self condition then
    let first ← runScoped self mode body
    match first.returned with
    | some _ => return first
    | none => return first.append (← self (.repeat mode condition body))
  else return .nothing

/-- What the variables of a loop stand for: the whole item for a single one, and otherwise its
members, with `null` for those that are not there. -/
def destructure (names : List String) (item : Value) : List (String × Value) :=
  match names with
  | [name] => [(name, item)]
  | _ =>
    let members := item.toList
    names.zipIdx.map fun (name, index) => (name, (members[index]?).getD .null)

/-- Run a body for each list of definitions, in a frame that has them. -/
def overDefinitions (mode : Mode) (rounds : List (List (String × Value)))
    (body : List Statement) : Run Yield := do
  let semiGlobal := (← get).isSemiGlobal
  Run.untilReturn
    (fun round => Run.withFrame semiGlobal do
      modify fun machine => round.foldl (fun m (name, value) => m.define name value) machine
      self (.block mode body))
    rounds

def eachLoop (mode : Mode) (names : List String) (list : Expr) (body : List Statement) :
    Run Yield := do
  let items := (← self (.evaluate list false)).toList
  overDefinitions self mode (items.map (destructure names)) body

/-- The whole numbers from `first` to `last`, upwards or downwards, with or without the last. -/
def steps (first last : Int) (inclusive : Bool) : List Int :=
  let count := (last - first).natAbs + if inclusive then 1 else 0
  let step : Int := if first ≤ last then 1 else -1
  (List.range count).map (fun index : Nat => first + step * index)

def bound (expr : Expr) : Run Number := do
  match ← self (.evaluate expr false) with
  | .number n => return n
  | other => Run.fail (.invalidArgument (other.inspect ++ " is not a number"))

/-- The whole number nearest to a bound. It has to fit into 64 bits. -/
def wholeBound (n : Number) : Except Cause Int :=
  let whole := Decimal.truncate n.value.round
  if Decimal.isWord whole then .ok whole else .error (.invalidNumber n.css)

def forLoop (mode : Mode) (name : String) (first last : Expr) (inclusive : Bool)
    (body : List Statement) : Run Yield := do
  let first ← bound self first
  let last ← bound self last
  let last ← if first.isUnitless then pure last else Run.ofCause (last.convert first.unitText)
  let unit := first.unit.or last.unit
  let start ← Run.ofCause (wholeBound first)
  let stop ← Run.ofCause (wholeBound last)
  let rounds := (steps start stop inclusive).map fun step =>
    [(name, Value.number ⟨Float.ofInt step, unit⟩)]
  overDefinitions self mode rounds body

end Scss.Eval
