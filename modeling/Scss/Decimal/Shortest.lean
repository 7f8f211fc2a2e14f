import Scss.Decimal.Binary

/-!
The fewest decimal digits that still name one double, and of those the digits nearest to it. A
decimal names a double if it lies in the interval of reals that round to it; the ends of the
interval belong to it if the mantissa is even.
-/
namespace Scss.Decimal

/-- The reals that round to a double, all multiplied by one denominator: the value and the two
ends of the interval. -/
structure Interval where
  low : Nat
  value : Nat
  high : Nat
  denominator : Nat
  closed : Bool

/-- The interval of a positive double. Below a power of two the doubles are twice as dense. -/
def Interval.ofBinary (b : Binary) : Interval :=
  let boundary := b.mantissa = pow2 52 ∧ b.exponent ≠ -1074
  let up := (b.exponent - 2).toNat
  let down := (2 - b.exponent).toNat
  let unit := pow2 up
  { low := (4 * b.mantissa - if boundary then 1 else 2) * unit
    value := 4 * b.mantissa * unit
    high := (4 * b.mantissa + 2) * unit
    denominator := pow2 down
    closed := b.mantissa % 2 = 0 }

/-- Whether the decimal `digits · 10 ^ exponent` lies in the interval. -/
def Interval.holds (interval : Interval) (digits : Nat) (exponent : Int) : Bool :=
  let scaled := digits * pow10 exponent.toNat * interval.denominator
  let down := pow10 (-exponent).toNat
  if interval.closed then interval.low * down ≤ scaled && scaled ≤ interval.high * down
  else interval.low * down < scaled && scaled < interval.high * down

/-- The number of decimal digits of the integral part of a positive fraction, or, if it has none,
minus the number of zeros behind the point. -/
def magnitude (numerator denominator : Nat) : Int :=
  if denominator ≤ numerator then ((Nat.toDigits 10 (numerator / denominator)).length : Int)
  else 1 - ((Nat.toDigits 10 (denominator / numerator)).length : Int)

/-- The best decimal with so many digits, if one names the double. -/
def candidate? (interval : Interval) (count : Nat) : Option (Nat × Int) :=
  let exponent := magnitude interval.value interval.denominator - count
  let numerator := interval.value * pow10 (-exponent).toNat
  let denominator := interval.denominator * pow10 exponent.toNat
  let below := numerator / denominator
  let lowHolds := interval.holds below exponent
  let highHolds := interval.holds (below + 1) exponent
  let nearerAbove := denominator < 2 * (numerator % denominator) ∨
    (denominator = 2 * (numerator % denominator) ∧ below % 2 = 1)
  if lowHolds && highHolds then some (if nearerAbove then below + 1 else below, exponent)
  else if lowHolds then some (below, exponent)
  else if highHolds then some (below + 1, exponent)
  else none

/-- Digits and decimal exponent of a positive double; seventeen digits always suffice. -/
def shortest (b : Binary) : Nat × Int :=
  let interval := Interval.ofBinary b
  ((List.range 18).findSome? (candidate? interval)).getD (b.mantissa, b.exponent)

end Scss.Decimal
