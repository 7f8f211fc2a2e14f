import Scss.Color.Named
import Scss.Decimal.Text

/-!
Colours as values: channels, and the spelling of a literal as long as nothing has changed it.
-/
namespace Scss

structure Color where
  rgba : Rgba
  /-- How a literal is written. -/
  spelling : Option String

namespace Color

/-- The byte nearest to a number; what lies outside goes to the nearest end, and NaN to zero. -/
def channel (value : Float) : UInt8 :=
  let kept := Decimal.clamp value.round 0.0 255.0
  if kept.isNaN then 0 else (Decimal.truncate kept).toNat.toUInt8

/-- A colour by its channels, rounded and kept in range. -/
def ofRgba (red green blue alpha : Float) : Color :=
  ⟨⟨channel red, channel green, channel blue, Decimal.clamp alpha 0.0 1.0⟩, none⟩

def literal (rgba : Rgba) (spelling : String) : Color := ⟨rgba, some spelling⟩

/-- Hue in degrees, saturation and lightness in percent. -/
structure Hsl where
  hue : Float
  saturation : Float
  lightness : Float

def share (value : UInt8) : Float := Float.ofNat value.toNat / 255.0

def toHsl (color : Color) : Hsl :=
  let r := share color.rgba.red
  let g := share color.rgba.green
  let b := share color.rgba.blue
  let high := Decimal.maximum (Decimal.maximum r g) b
  let low := Decimal.minimum (Decimal.minimum r g) b
  let lightness := (high + low) / 2.0
  let delta := high - low
  if delta.abs < Decimal.tolerance then ⟨0.0, 0.0, lightness * 100.0⟩
  else
    let saturation :=
      if lightness > 0.5 then delta / (2.0 - high - low) else delta / (high + low)
    let hue :=
      if high == r then (g - b) / delta + (if g < b then 6.0 else 0.0)
      else if high == g then (b - r) / delta + 2.0
      else (r - g) / delta + 4.0
    ⟨hue * 60.0, saturation * 100.0, lightness * 100.0⟩

/-- One channel of a colour between the bounds `low` and `high`, at a hue of `turn` turns. -/
def hueChannel (low high turn : Float) : Float :=
  let turn := if turn < 0.0 then turn + 1.0 else turn
  let turn := if turn > 1.0 then turn - 1.0 else turn
  let value :=
    if turn * 6.0 < 1.0 then low + (high - low) * turn * 6.0
    else if turn * 2.0 < 1.0 then high
    else if turn * 3.0 < 2.0 then low + (high - low) * (2.0 / 3.0 - turn) * 6.0
    else low
  value * 255.0

def ofHsl (hsl : Hsl) (alpha : Float) : Color :=
  let turn := Decimal.euclideanRemainder hsl.hue 360.0 / 360.0
  let s := Decimal.clamp (hsl.saturation / 100.0) 0.0 1.0
  let l := Decimal.clamp (hsl.lightness / 100.0) 0.0 1.0
  let high := if l <= 0.5 then l * (s + 1.0) else l + s - l * s
  let low := l * 2.0 - high
  ofRgba (hueChannel low high (turn + 1.0 / 3.0)) (hueChannel low high turn)
    (hueChannel low high (turn - 1.0 / 3.0)) alpha

def hexByte (value : UInt8) : List Char :=
  let digits := Nat.toDigits 16 value.toNat
  List.replicate (2 - digits.length) '0' ++ digits

/-- The spelling of a literal, or six digits, or a call of `rgba` if the colour is not opaque. -/
def css (color : Color) : String :=
  match color.spelling with
  | some spelling => spelling
  | none =>
    let c := color.rgba
    if c.alpha >= 1.0 then
      String.ofList ('#' :: hexByte c.red ++ hexByte c.green ++ hexByte c.blue)
    else s!"rgba({c.red}, {c.green}, {c.blue}, {Decimal.text c.alpha})"

/-- The same channels, and the same opacity up to the tolerance. -/
def equals (a b : Color) : Bool :=
  a.rgba.red = b.rgba.red && a.rgba.green = b.rgba.green && a.rgba.blue = b.rgba.blue &&
    (a.rgba.alpha - b.rgba.alpha).abs < Decimal.tolerance

end Color

end Scss
