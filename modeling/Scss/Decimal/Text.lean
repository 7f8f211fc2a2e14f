import Scss.Decimal.Shortest
import Scss.Text.Ascii

/-!
Numbers as a stylesheet writes them: whole numbers without a point, others with ten places at most
and no zeros at the end. Reading takes the double nearest to the decimal that is written.
-/
namespace Scss.Decimal

/-- The nearest whole number to a fraction; a half goes to the even neighbour. -/
def roundDiv (numerator denominator : Nat) : Nat :=
  let quotient := numerator / denominator
  let twice := 2 * (numerator % denominator)
  if twice < denominator then quotient
  else if denominator < twice then quotient + 1
  else quotient + quotient % 2

/-- Digits written with at least `width` places. -/
def padded (width value : Nat) : List Char :=
  let digits := Nat.toDigits 10 value
  List.replicate (width - digits.length) '0' ++ digits

/-- A finite number with exactly `places` places behind the point. -/
def fixed (places : Nat) (x : Float) : List Char :=
  let b := Binary.ofFloat x
  let (numerator, denominator) := b.fraction
  let digits := padded (places + 1) (roundDiv (numerator * pow10 places) denominator)
  let whole := digits.take (digits.length - places)
  let text := whole ++ '.' :: digits.drop (digits.length - places)
  if b.negative then '-' :: text else text

/-- A whole number of any size, written out by its shortest digits and zeros. -/
def positional (x : Float) : List Char :=
  let b := Binary.ofFloat x
  let (digits, exponent) := shortest b
  let text := Nat.toDigits 10 digits ++ List.replicate exponent.toNat '0'
  if b.negative then '-' :: text else text

/-- Numbers closer than this count as equal. -/
def tolerance : Float := 1e-10

def isWhole (x : Float) : Bool := (x - x.round).abs < tolerance

/-- Zeros at the end behind the point go, and so does a point that ends the text. -/
def trimZeros (text : List Char) : List Char :=
  let reversed := text.reverse.dropWhile (· = '0')
  (reversed.dropWhile (· = '.')).reverse

/-- The least power of two that a whole number of 64 bits with sign does not reach. -/
def wordLimit : Int := 9223372036854775808

/-- The whole numbers that are written exactly: those of 64 bits with sign. -/
def isWord (n : Int) : Bool := -wordLimit ≤ n && n < wordLimit

/-- The text of a number without its unit. Whole numbers have no point, and of those beyond 64 bits
only the digits that tell the double apart are written; all others have ten places at most. There
is no negative zero. -/
def text (x : Float) : String :=
  if x.isNaN then "NaN"
  else if x.isInf then if x > 0.0 then "Infinity" else "-Infinity"
  else if isWhole x then
    let whole := truncate x.round
    if isWord whole then toString whole else String.ofList (positional x.round)
  else
    let digits := trimZeros (fixed 10 x)
    if digits = ['-', '0'] then "0" else String.ofList digits

/-- The double nearest to `digits · 10 ^ exponent`. Decimals of more than 310 digits are infinite,
and those below `10 ^ -330` are zero. -/
def nearest (digits : Nat) (exponent : Int) : Float :=
  if digits = 0 then 0.0
  else
    let size := exponent + (Nat.toDigits 10 digits).length
    if 310 < size then 1.0 / 0.0
    else if size < -330 then 0.0
    else if 0 ≤ exponent then Float.ofScientific digits false exponent.toNat
    else Float.ofScientific digits true (-exponent).toNat

/-- An exponent as it is written: a sign or none, and digits. -/
def readExponent? (text : List Char) : Option Int :=
  let (negative, digits) :=
    match text with
    | '-' :: rest => (true, rest)
    | '+' :: rest => (false, rest)
    | rest => (false, rest)
  if digits.isEmpty || !digits.all Char.isDigit then none
  else
    let value := Chars.decimalValue digits
    some (if negative then -(value : Int) else value)

/-- Read digits with at most one point among them and at least one digit, and an exponent behind a
letter e or none. -/
def readUnsigned? (text : List Char) : Option Float :=
  let whole := text.takeWhile Char.isDigit
  let afterWhole := text.drop whole.length
  let (places, rest) :=
    match afterWhole with
    | '.' :: more => (more.takeWhile Char.isDigit, more.dropWhile Char.isDigit)
    | more => ([], more)
  if whole.isEmpty && places.isEmpty then none
  else
    let digits := Chars.decimalValue (whole ++ places)
    match rest with
    | [] => some (nearest digits (-(places.length : Int)))
    | c :: exponent =>
      if c = 'e' ∨ c = 'E' then
        (readExponent? exponent).map (fun e => nearest digits (e - places.length))
      else none

/-- Read a decimal with a sign or none. The words for infinity and for not a number are read too,
in any case. -/
def read? (text : List Char) : Option Float :=
  let (negative, magnitude) :=
    match text with
    | '-' :: rest => (true, rest)
    | '+' :: rest => (false, rest)
    | rest => (false, rest)
  let word := Chars.lower magnitude
  let value? :=
    if word = "inf".toList ∨ word = "infinity".toList then some (1.0 / 0.0)
    else if word = "nan".toList then some (0.0 / 0.0)
    else readUnsigned? magnitude
  value?.map (fun value => if negative then -value else value)

end Scss.Decimal
