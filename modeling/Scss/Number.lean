import Scss.Decimal.Text
import Scss.Fault
import Scss.Unit

/-!
Numbers with at most one unit. A number without a unit goes along with any other; two units have
to be compatible, and the right operand is converted to the left one's unit.
-/
namespace Scss

structure Number where
  value : Float
  unit : Option String

namespace Number

/-- A number with the unit `unit`; an empty unit is none. -/
def ofUnit (value : Float) (unit : String) : Number := ⟨value, if unit.isEmpty then none else some unit⟩

def unitless (value : Float) : Number := ⟨value, none⟩

def isUnitless (n : Number) : Bool := n.unit.isNone

def unitText (n : Number) : String := n.unit.getD ""

def isWhole (n : Number) : Bool := Decimal.isWhole n.value

/-- One of the numbers has no unit, or the units are compatible. -/
def compatible (a b : Number) : Bool :=
  match a.unit, b.unit with
  | some left, some right => Unit.compatible left right
  | _, _ => true

def incompatible (a b : Number) : Cause := .incompatibleUnits a.unitText b.unitText

/-- The number in another unit of its dimension. A number without a unit takes the unit over, and
one with the same unit, up to case, is unchanged. -/
def convert (n : Number) (unit : String) : Except Cause Number :=
  match n.unit with
  | none => .ok (ofUnit n.value unit)
  | some own =>
    if Text.same own unit then .ok n
    else
      match Unit.factor? own, Unit.factor? unit with
      | some (a, ownFactor), some (b, factor) =>
        if a = b then .ok (ofUnit (n.value * ownFactor / factor) unit)
        else .error (.incompatibleUnits own unit)
      | _, _ => .error (.incompatibleUnits own unit)

/-- The value of `b` in the unit of `a`. -/
def operand (a b : Number) : Except Cause Float :=
  if a.compatible b then
    match a.unit, b.unit with
    | some unit, some _ => do return (← b.convert unit).value
    | _, _ => .ok b.value
  else .error (a.incompatible b)

/-- The unit of a result: that of `a`, or else that of `b`. -/
def resultUnit (a b : Number) : Option String := a.unit.or b.unit

def add (a b : Number) : Except Cause Number := do
  let right ← a.operand b
  return ⟨a.value + right, a.resultUnit b⟩

def sub (a b : Number) : Except Cause Number := do
  let right ← a.operand b
  return ⟨a.value - right, a.resultUnit b⟩

def mul (a b : Number) : Number := ⟨a.value * b.value, a.resultUnit b⟩

/-- Division. Two units cancel, and so does a unit of the divisor alone. -/
def div (a b : Number) : Except Cause Number :=
  if b.value == 0.0 then .error .divisionByZero
  else
    match a.unit, b.unit with
    | unit, none => .ok ⟨a.value / b.value, unit⟩
    | none, some _ => .ok (unitless (a.value / b.value))
    | some _, some _ => do
      let right ← a.operand b
      return unitless (a.value / right)

def mod (a b : Number) : Except Cause Number :=
  if b.value == 0.0 then .error .divisionByZero
  else do
    let right ← a.operand b
    let remainder := Decimal.remainder a.value right
    let opposite := remainder != 0.0 && (decide (remainder < 0.0) != decide (right < 0.0))
    return ⟨if opposite then remainder + right else remainder, a.resultUnit b⟩

def neg (n : Number) : Number := { n with value := -n.value }

/-- Equal up to the tolerance, in one unit. A number with a unit never equals one without. -/
def equals (a b : Number) : Bool :=
  if a.unit.isSome != b.unit.isSome then false
  else
    match a.operand b with
    | .ok right => (a.value - right).abs < Decimal.tolerance
    | .error _ => false

/-- The order of two numbers in one unit. Values closer than the tolerance are equal, and so is
everything to NaN. -/
def compare (a b : Number) : Except Cause Ordering := do
  let right ← a.operand b
  if (a.value - right).abs < Decimal.tolerance then return .eq
  else if a.value < right then return .lt
  else if a.value > right then return .gt
  else return .eq

def css (n : Number) : String := Decimal.text n.value ++ n.unitText

def compressed (n : Number) : String :=
  match n.css.toList with
  | '0' :: '.' :: rest => String.ofList ('.' :: rest)
  | '-' :: '0' :: '.' :: rest => String.ofList ('-' :: '.' :: rest)
  | text => String.ofList text

theorem compatible_refl (n : Number) : n.compatible n = true := by
  unfold compatible
  split
  · rename_i left right hl hr
    rw [hl] at hr
    cases hr
    exact Unit.compatible_refl left
  · rfl

theorem compatible_comm (a b : Number) : a.compatible b = b.compatible a := by
  unfold compatible
  cases a.unit <;> cases b.unit <;> simp [Unit.compatible_comm]

end Number

end Scss
