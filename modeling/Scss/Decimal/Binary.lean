/-!
Binary floating-point numbers taken apart and put together. A finite number is a sign, a whole
number and a power of two, so what needs exact arithmetic is done on whole numbers.
-/
namespace Scss

def pow2 (n : Nat) : Nat := Nat.pow 2 n

def pow10 (n : Nat) : Nat := Nat.pow 10 n

/-- The exact magnitude of a finite number: `mantissa · 2 ^ exponent`. -/
structure Binary where
  negative : Bool
  mantissa : Nat
  exponent : Int
deriving DecidableEq

namespace Binary

/-- Read the fields of a double. Infinities and NaN have no magnitude; their fields are read as
if they were finite. -/
def ofFloat (x : Float) : Binary :=
  let bits : Nat := x.toBits.toNat
  let fraction : Nat := bits % pow2 52
  let biased : Nat := bits / pow2 52 % pow2 11
  let negative : Bool := bits / pow2 63 = 1
  if biased = 0 then ⟨negative, fraction, -1074⟩
  else ⟨negative, fraction + pow2 52, (biased : Int) - 1075⟩

/-- The double of a sign, a mantissa below `2 ^ 53` and an exponent; exact where the value is a
double. -/
def toFloat (b : Binary) : Float :=
  let magnitude := (Float.ofNat b.mantissa).scaleB b.exponent
  if b.negative then -magnitude else magnitude

/-- Numerator and denominator of the magnitude. -/
def fraction (b : Binary) : Nat × Nat :=
  if 0 ≤ b.exponent then (b.mantissa * pow2 b.exponent.toNat, 1)
  else (b.mantissa, pow2 (-b.exponent).toNat)

end Binary

namespace Decimal

/-- The remainder of `x / y` with the sign of `x`, exactly. It is NaN if `x` is not finite or `y` is
zero or NaN, and `x` if `y` is infinite. -/
def remainder (x y : Float) : Float :=
  if x.isNaN || y.isNaN || x.isInf || y == 0.0 then 0.0 / 0.0
  else if y.isInf then x
  else
    let a := Binary.ofFloat x
    let b := Binary.ofFloat y
    let exponent := min a.exponent b.exponent
    let numerator := a.mantissa * pow2 (a.exponent - exponent).toNat
    let denominator := b.mantissa * pow2 (b.exponent - exponent).toNat
    Binary.toFloat ⟨a.negative, numerator % denominator, exponent⟩

/-- The remainder of `x / y` brought into `[0, |y|)`. -/
def euclideanRemainder (x y : Float) : Float :=
  let r := remainder x y
  if r < 0.0 then r + y.abs else r

/-- `x` kept between two bounds; NaN stays NaN. -/
def clamp (x low high : Float) : Float :=
  if x < low then low else if x > high then high else x

/-- The greater of two numbers; a NaN gives way. -/
def maximum (x y : Float) : Float :=
  if x.isNaN then y else if y.isNaN then x else if x < y then y else x

/-- The lesser of two numbers; a NaN gives way. -/
def minimum (x y : Float) : Float :=
  if x.isNaN then y else if y.isNaN then x else if y < x then y else x

/-- The whole number nearest to zero of a finite number's integral part. -/
def truncate (x : Float) : Int :=
  let b := Binary.ofFloat x
  let (numerator, denominator) := b.fraction
  let magnitude : Int := (numerator / denominator : Nat)
  if b.negative then -magnitude else magnitude

end Decimal

end Scss
