import Scss.Text.Ascii

/-!
Colours by their channels, and their hexadecimal literals.
-/
namespace Scss

/-- Three bytes and an opacity from zero to one. -/
structure Rgba where
  red : UInt8
  green : UInt8
  blue : UInt8
  alpha : Float

namespace Rgba

/-- An opaque colour from a number of three bytes, red first. -/
def ofCode (code : Nat) : Rgba :=
  ⟨(code / 65536 % 256).toUInt8, (code / 256 % 256).toUInt8, (code % 256).toUInt8, 1.0⟩

def byte (high low : Char) : UInt8 := (Chars.hexValue high * 16 + Chars.hexValue low).toUInt8

def opacity (value : UInt8) : Float := Float.ofNat value.toNat / 255.0

/-- The channels of `#` and three, four, six or eight hexadecimal digits. In the short forms every
digit counts twice. -/
def ofHex? (literal : String) : Option Rgba :=
  match literal.toList with
  | '#' :: digits =>
    if digits.all Chars.isHexDigit then
      match digits with
      | [r, g, b] => some ⟨byte r r, byte g g, byte b b, 1.0⟩
      | [r, g, b, a] => some ⟨byte r r, byte g g, byte b b, opacity (byte a a)⟩
      | [r, r', g, g', b, b'] => some ⟨byte r r', byte g g', byte b b', 1.0⟩
      | [r, r', g, g', b, b', a, a'] =>
        some ⟨byte r r', byte g g', byte b b', opacity (byte a a')⟩
      | _ => none
    else none
  | _ => none

end Rgba

end Scss
