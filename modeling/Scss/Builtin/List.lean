import Scss.Builtin.Arguments

/-!
Functions on lists. Every value is a list: a map of pairs, and any other value of itself.
-/
namespace Scss.Builtin.List

def isBracketed : Value → Bool
  | .list _ _ bracketed => bracketed
  | _ => false

def isList : Value → Bool
  | .list _ _ _ => true
  | _ => false

/-- The place that a number names in a list of `length` members: from one up, or from the end if it
is negative. -/
def position (args : Slots) (index length : Nat) : Except Cause Nat := do
  let n ← args.number index "n"
  if !n.isWhole then .error (.invalidArgument s!"$n: {n.css} is not an int")
  else
    let whole := Decimal.truncate n.value.round
    let wanted := max (-Decimal.wordLimit) (min (Decimal.wordLimit - 1) whole)
    let place := if wanted < 0 then length + wanted else wanted - 1
    if wanted = 0 || place < 0 || (length : Int) ≤ place then
      .error (.invalidArgument
        s!"$n: Invalid index {wanted} for a list with {length} elements")
    else return place.toNat

/-- The separator that an argument names; `auto` and `null` name none. -/
def separatorArg (args : Slots) (index : Nat) : Except Cause (Option Separator) :=
  match args.get? index with
  | none => .ok none
  | some (.string "auto" _) => .ok none
  | some (.string "space" _) => .ok (some .space)
  | some (.string "comma" _) => .ok (some .comma)
  | some (.string "slash" _) => .ok (some .slash)
  | some (.string other _) =>
    .error (.invalidArgument
      s!"$separator: Must be \"space\", \"comma\", \"slash\", or \"auto\", was {other}")
  | some other => .error (Slots.typeFault "separator" "string" other)

/-- The separator of two lists joined: that of the first with two members, else that of the first
if it is a list. -/
def joinedSeparator (first second : Value) : Separator :=
  if 2 ≤ first.toList.length then first.separator
  else if 2 ≤ second.toList.length then second.separator
  else if isList first then first.separator
  else .space

def join (args : Slots) : Except Cause Value := do
  let first ← args.required 0 "list1"
  let second ← args.required 1 "list2"
  let separator := (← separatorArg args 2).getD (joinedSeparator first second)
  let bracketed :=
    match args.get? 3 with
    | some (.string "auto" _) => isBracketed first
    | some value => value.isTruthy
    | none => isBracketed first
  return .list (first.toList ++ second.toList) separator bracketed

def append (args : Slots) : Except Cause Value := do
  let list ← args.required 0 "list"
  let separator := (← separatorArg args 2).getD (if isList list then list.separator else .space)
  return .list (list.toList ++ [args.valueAt 1]) separator (isBracketed list)

/-- The members of several lists side by side, as far as the shortest goes. -/
def zip (args : Slots) : Value :=
  let lists := (args.filter (fun value => !value.isNull)).map Value.toList
  let shortest := ((lists.map List.length).min?).getD 0
  .listOf ((List.range shortest).map fun i =>
    .listOf (lists.filterMap (fun list => list[i]?)) .space) .comma

def setNth (args : Slots) : Except Cause Value := do
  let list ← args.required 0 "list"
  let place ← position args 1 list.toList.length
  return .list (list.toList.set place (args.valueAt 2)) list.separator (isBracketed list)

def index (args : Slots) : Except Cause Value := do
  let list ← args.required 0 "list"
  match list.toList.findIdx? (fun item => item.equals (args.valueAt 1)) with
  | some place => return .ofNat (place + 1)
  | none => return .null

def slash (args : Slots) : Except Cause Value :=
  let values := args.filter (fun value => !value.isNull)
  if values.length < 2 then .error (.invalidArgument "At least two elements are required.")
  else .ok (.listOf values .slash)

def compute (name : String) (args : Slots) : Except Cause Value :=
  match name with
  | "length" => do return .ofNat (← args.required 0 "list").toList.length
  | "nth" => do
    let items := (← args.required 0 "list").toList
    let place ← position args 1 items.length
    return (items[place]?).getD .null
  | "set-nth" => setNth args
  | "join" => join args
  | "append" => append args
  | "zip" => .ok (zip args)
  | "index" => index args
  | "separator" => do return .unquoted (← args.required 0 "list").separator.name
  | "is-bracketed" => do return .bool (isBracketed (← args.required 0 "list"))
  | "slash" => slash args
  | _ => .error (.invalidArgument s!"Unknown list function: {name}")

def signature : String → List String
  | "nth" => ["list", "n"]
  | "set-nth" => ["list", "n", "value"]
  | "join" => ["list1", "list2", "separator", "bracketed"]
  | "append" => ["list", "val", "separator"]
  | "index" => ["list", "value"]
  | _ => ["list"]

def family : Family where
  module_ := some "list"
  members :=
    ["length", "nth", "set-nth", "join", "append", "zip", "index", "separator", "is-bracketed",
      "slash"]
  globals :=
    ["length", "nth", "set-nth", "join", "append", "zip", "index", "list-separator",
      "is-bracketed"]
  aliases := [("list-separator", "separator")]
  signature := signature
  raw := true
  constants := []
  run := fun name args => (compute name args).map .plain

end Scss.Builtin.List
