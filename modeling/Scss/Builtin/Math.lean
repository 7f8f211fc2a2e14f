import Scss.Builtin.Arguments

/-!
Functions on numbers. A call whose operands cannot be combined, because units differ in dimension
or an argument is no number, is left to the browser: its value is the call's own text, and a
warning says so.
-/
namespace Scss.Builtin.Math

/-- Functions that are computed whatever their operands are. -/
def alwaysComputed : List String := ["comparable", "compatible", "is-unitless", "random"]

/-- All arguments are numbers, and any two of them are compatible. -/
def combine (args : Slots) : Bool :=
  let present := args.filter (fun value => !value.isNull)
  let numbers := present.filterMap fun value =>
    match value with
    | .number n => some n
    | _ => none
  numbers.length = present.length && numbers.all (fun a => numbers.all a.compatible)

def callText (name : String) (args : Slots) : String :=
  let present := args.filter (fun value => !value.isNull)
  name ++ "(" ++ Text.join ", " (present.map Value.css) ++ ")"

/-- The nearest whole number; halves go away from zero, and so does what is a half up to a
hundred-billionth. -/
def round (x : Float) : Float :=
  let nudge := if (Binary.ofFloat x).negative then -1e-11 else 1e-11
  (x + nudge).round

/-- Apply a function to the number of the first argument, and keep its unit. -/
def onValue (args : Slots) (f : Float → Float) : Except Cause Value := do
  let n ← args.number 0 "number"
  return .number { n with value := f n.value }

/-- The best of the numbers, where a number is better than another if it compares as `wanted`. -/
def best (wanted : Ordering) (found : Option Number) : Slots → Except Cause Value
  | [] => .ok ((found.map Value.number).getD .null)
  | .number n :: rest => do
    match found with
    | some current =>
      let order ← n.compare current
      best wanted (some (if order = wanted then n else current)) rest
    | none => best wanted (some n) rest
  | other :: _ => .error (Slots.typeFault "numbers" "number" other)

def extremum (wanted : Ordering) (args : Slots) : Except Cause Value := do
  let _ ← args.required 0 "numbers"
  best wanted none args

/-- The value of `n` in the unit of `base`, if both have one. -/
def inUnitOf (base n : Number) : Except Cause Float :=
  match base.unit, n.unit with
  | some unit, some _ => do return (← n.convert unit).value
  | _, _ => .ok n.value

def clamp (args : Slots) : Except Cause Value := do
  let low ← args.number 0 "min"
  let n ← args.number 1 "number"
  let high ← args.number 2 "max"
  if (← n.compare low) = .lt then return .number low
  else if (← n.compare high) = .gt then return .number high
  else return .number n

def logarithm (args : Slots) : Except Cause Value := do
  let n ← args.unitless 0 "number"
  match args.get? 1 with
  | some _ =>
    let base ← args.unitless 1 "base"
    return .ofFloat (n.value.log / base.value.log)
  | none => return .ofFloat n.value.log

/-- The sum of the squares, in the unit of `first`. -/
def squares (first : Number) (sum : Float) : Slots → Except Cause Float
  | [] => .ok sum
  | .number n :: rest => do
    let v ← inUnitOf first n
    squares first (sum + v * v) rest
  | other :: _ => .error (Slots.typeFault "numbers" "number" other)

def hypot (args : Slots) : Except Cause Value := do
  let first ← args.number 0 "numbers"
  let sum ← squares first 0.0 args
  return .number { first with value := sum.sqrt }

def pi : Float := 3.141592653589793

/-- An angle in radians; a number without a unit is one. -/
def radians (n : Number) : Except Cause Float := do
  if n.isUnitless then return n.value
  return (← n.convert "deg").value * (pi / 180.0)

def degrees (radians : Float) : Value := .number ⟨radians * (180.0 / pi), some "deg"⟩

def ofAngle (args : Slots) (f : Float → Float) : Except Cause Value := do
  return .ofFloat (f (← radians (← args.number 0 "number")))

def toAngle (args : Slots) (f : Float → Float) : Except Cause Value := do
  return degrees (f (← args.unitless 0 "number").value)

/-- The greatest whole number of 64 bits with a sign. -/
def greatestLimit : Int := 9223372036854775807

/-- The limit of a draw, if there is one. -/
def random (args : Slots) : Except Cause (Option Int) := do
  match args.get? 0 with
  | none => return none
  | some _ =>
    let limit ← args.number 0 "limit"
    if limit.isWhole && !(limit.value < 1.0) then
      let whole := Decimal.truncate limit.value.round
      return some (if whole < greatestLimit then whole else greatestLimit)
    else .error (.invalidArgument
      s!"$limit: Must be an integer greater than zero, was {limit.css}")

/-- The value of a function, once its operands can be combined. -/
def compute (name : String) (args : Slots) : Except Cause Value :=
  match name with
  | "abs" => onValue args Float.abs
  | "ceil" => onValue args Float.ceil
  | "floor" => onValue args Float.floor
  | "round" => onValue args round
  | "max" => extremum .gt args
  | "min" => extremum .lt args
  | "clamp" => clamp args
  | "div" => do
    let left ← args.number 0 "number1"
    let right ← args.number 1 "number2"
    return .number (← left.div right)
  | "percentage" => do
    let n ← args.unitless 0 "number"
    return .number ⟨n.value * 100.0, some "%"⟩
  | "sqrt" => do return .ofFloat (← args.unitless 0 "number").value.sqrt
  | "pow" => do
    let base ← args.unitless 0 "base"
    let exponent ← args.unitless 1 "exponent"
    return .ofFloat (base.value.pow exponent.value)
  | "log" => logarithm args
  | "hypot" => hypot args
  | "sin" => ofAngle args Float.sin
  | "cos" => ofAngle args Float.cos
  | "tan" => ofAngle args Float.tan
  | "asin" => toAngle args Float.asin
  | "acos" => toAngle args Float.acos
  | "atan" => toAngle args Float.atan
  | "atan2" => do
    let y ← args.number 0 "y"
    let x ← args.number 1 "x"
    return degrees (y.value.atan2 (← inUnitOf y x))
  | "unit" => do return .quoted (← args.number 0 "number").unitText
  | "is-unitless" => do return .bool (← args.number 0 "number").isUnitless
  | "compatible" => do
    let left ← args.number 0 "number1"
    let right ← args.number 1 "number2"
    return .bool (left.compatible right)
  | _ => .error (.unknownFunction s!"math.{name}")

def run (name : String) (args : Slots) : Except Cause Computed := do
  if alwaysComputed.contains name || combine args then
    if name = "random" then return .draw (← random args) else return .plain (← compute name args)
  else
    let text := callText name args
    return .value (.unquoted text) (some s!"deferring {name} to the browser: {text}")

def signature : String → List String
  | "div" | "compatible" => ["number1", "number2"]
  | "clamp" => ["min", "number", "max"]
  | "pow" => ["base", "exponent"]
  | "log" => ["number", "base"]
  | "atan2" => ["y", "x"]
  | "random" => ["limit"]
  | _ => ["number"]

def family : Family where
  module_ := some "math"
  members :=
    ["abs", "ceil", "floor", "round", "max", "min", "clamp", "div", "percentage", "sqrt", "pow",
      "log", "hypot", "sin", "cos", "tan", "asin", "acos", "atan", "atan2", "unit", "is-unitless",
      "compatible", "random"]
  globals :=
    ["abs", "ceil", "floor", "round", "max", "min", "percentage", "unit", "unitless", "comparable",
      "random"]
  aliases := [("unitless", "is-unitless"), ("comparable", "compatible")]
  signature := signature
  raw := true
  constants := [("pi", .ofFloat pi), ("e", .ofFloat 2.718281828459045)]
  run := run

end Scss.Builtin.Math
