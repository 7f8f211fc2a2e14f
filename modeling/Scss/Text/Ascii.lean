/-!
Case and character classes restricted to ASCII. Keywords, units and colour names of the language
compare without regard to ASCII case only: a long s or a Kelvin sign is no letter s or k.
-/
namespace Scss

namespace Chars

/-- Every ASCII capital lowered, and all else unchanged. -/
def lower (text : List Char) : List Char := text.map Char.toLower

def isHexDigit (c : Char) : Bool :=
  c.isDigit || ('a' ≤ c && c ≤ 'f') || ('A' ≤ c && c ≤ 'F')

/-- The value of a hexadecimal digit; other characters count as zero. -/
def hexValue (c : Char) : Nat :=
  if c.isDigit then c.toNat - '0'.toNat
  else if 'a' ≤ c && c ≤ 'f' then c.toNat - 'a'.toNat + 10
  else if 'A' ≤ c && c ≤ 'F' then c.toNat - 'A'.toNat + 10
  else 0

/-- The number written by decimal digits, most significant first. -/
def decimalValue (digits : List Char) : Nat :=
  digits.foldl (fun value c => value * 10 + (c.toNat - '0'.toNat)) 0

end Chars

namespace Text

def lower (text : String) : String := String.ofList (Chars.lower text.toList)

def upper (text : String) : String := String.ofList (text.toList.map Char.toUpper)

def same (left right : String) : Bool := lower left == lower right

theorem same_refl (text : String) : same text text = true := by simp [same]

theorem same_symm (left right : String) : same left right = same right left := by
  rw [same, same, BEq.comm]

end Text

end Scss
