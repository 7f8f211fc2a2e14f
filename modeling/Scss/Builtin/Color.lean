import Scss.Builtin.Arguments

/-!
Functions on colours. Lightness, saturation and hue change through the HSL form; the result has no
spelling, since no literal stands for it.
-/
namespace Scss.Builtin.Color

open Scss (Color)

def channelFloat (value : UInt8) : Float := Float.ofNat value.toNat

def channelValue (value : UInt8) : Value := .ofFloat (channelFloat value)

/-- A number, or a percentage as a share of `whole`. -/
def share (n : Number) (whole : Float) : Float :=
  if n.unit = some "%" then n.value * whole / 100.0 else n.value

def fraction (n : Number) : Float := if n.unit = some "%" then n.value / 100.0 else n.value

def kept (name : String) (args : Slots) : Value :=
  .unquoted (name ++ "(" ++ Text.join ", " (List.map Value.css args) ++ ")")

def withAlpha (c : Color) (alpha : Float) : Color :=
  .ofRgba (channelFloat c.rgba.red) (channelFloat c.rgba.green) (channelFloat c.rgba.blue) alpha

def numbers? (args : Slots) : Option (List Number) :=
  args.mapM fun value =>
    match value with
    | .number n => some n
    | _ => none

/-- Three channels and an opacity or none, one list of them, or a colour and an opacity. What is no
number, such as a variable of the browser, keeps the call as it is. -/
def rgb (name : String) (args : Slots) : Except Cause Value :=
  let present := args.filter (fun value => !value.isNull)
  let args :=
    match present with
    | [.list items _ _] => items
    | other => other
  match args with
  | [.color c, .number n] => .ok (.color (withAlpha c (fraction n)))
  | [.color _, _] => .ok (kept name args)
  | args =>
    match numbers? args with
    | some [r, g, b] =>
      .ok (.color (.ofRgba (share r 255.0) (share g 255.0) (share b 255.0) 1.0))
    | some [r, g, b, a] =>
      .ok (.color (.ofRgba (share r 255.0) (share g 255.0) (share b 255.0) (fraction a)))
    | some (first :: rest) =>
      .error (.invalidArgument
        s!"{name}() expects 3 or 4 channels, got {(first :: rest).length}")
    | _ => .ok (kept name args)

def machineEpsilon : Float := 2.220446049250313e-16

/-- The weighted mean of two colours; `weight` is the share of the first, and the opacities count
too. -/
def mix (first second : Color) (weight : Float) : Color :=
  let w := weight * 2.0 - 1.0
  let a := first.rgba.alpha - second.rgba.alpha
  let combined := if (w * a + 1.0).abs < machineEpsilon then w else (w + a) / (1.0 + w * a)
  let w1 := (combined + 1.0) / 2.0
  let w2 := 1.0 - w1
  let blend (x y : UInt8) : Float := channelFloat x * w1 + channelFloat y * w2
  .ofRgba (blend first.rgba.red second.rgba.red) (blend first.rgba.green second.rgba.green)
    (blend first.rgba.blue second.rgba.blue)
    (first.rgba.alpha * weight + second.rgba.alpha * (1.0 - weight))

def onHsl (c : Color) (f : Color.Hsl → Color.Hsl) : Value := .color (.ofHsl (f c.toHsl) c.rgba.alpha)

def percent (x : Float) : Float := Decimal.clamp x 0.0 100.0

/-- What an optional argument adds. -/
def delta (args : Slots) (index : Nat) (param : String) : Except Cause Float := do
  match args.get? index with
  | some _ => return (← args.number index param).value
  | none => return 0.0

/-- Change channels first, and then hue, saturation and lightness. -/
def adjust (args : Slots) : Except Cause Value := do
  let c ← args.color 0 "color"
  let red := channelFloat c.rgba.red + (← delta args 1 "red")
  let green := channelFloat c.rgba.green + (← delta args 2 "green")
  let blue := channelFloat c.rgba.blue + (← delta args 3 "blue")
  let alpha := c.rgba.alpha + (← delta args 7 "alpha")
  let result := Color.ofRgba red green blue alpha
  let hue ← delta args 4 "hue"
  let saturation ← delta args 5 "saturation"
  let lightness ← delta args 6 "lightness"
  if hue != 0.0 || saturation != 0.0 || lightness != 0.0 then
    return onHsl result fun hsl =>
      ⟨hsl.hue + hue, percent (hsl.saturation + saturation), percent (hsl.lightness + lightness)⟩
  else return .color result

/-- Change the lightness. -/
def shade (sign : Float) (args : Slots) : Except Cause Value := do
  let c ← args.color 0 "color"
  let amount ← args.amount 1 "amount"
  return onHsl c fun hsl => { hsl with lightness := percent (hsl.lightness + sign * amount) }

/-- Change the saturation. -/
def tone (sign : Float) (args : Slots) : Except Cause Value := do
  let c ← args.color 0 "color"
  let amount ← args.amount 1 "amount"
  return onHsl c fun hsl => { hsl with saturation := percent (hsl.saturation + sign * amount) }

/-- Change the opacity. -/
def fade (sign : Float) (args : Slots) : Except Cause Value := do
  let c ← args.color 0 "color"
  let n ← args.number 1 "amount"
  return .color (withAlpha c (c.rgba.alpha + sign * fraction n))

def invert (args : Slots) : Except Cause Value := do
  let c ← args.color 0 "color"
  let inverted := Color.ofRgba (255.0 - channelFloat c.rgba.red) (255.0 - channelFloat c.rgba.green)
    (255.0 - channelFloat c.rgba.blue) c.rgba.alpha
  match args.get? 1 with
  | some _ => return .color (mix inverted c ((← args.amount 1 "weight") / 100.0))
  | none => return .color inverted

def mixArgs (args : Slots) : Except Cause Value := do
  let first ← args.color 0 "color1"
  let second ← args.color 1 "color2"
  match args.get? 2 with
  | some _ => return .color (mix first second ((← args.amount 2 "weight") / 100.0))
  | none => return .color (mix first second 0.5)

def compute (name : String) (args : Slots) : Except Cause Value :=
  match name with
  | "rgb" | "rgba" => rgb name args
  | "red" => do return channelValue (← args.color 0 "color").rgba.red
  | "green" => do return channelValue (← args.color 0 "color").rgba.green
  | "blue" => do return channelValue (← args.color 0 "color").rgba.blue
  | "alpha" => do return .ofFloat (← args.color 0 "color").rgba.alpha
  | "lighten" => shade 1.0 args
  | "darken" => shade (-1.0) args
  | "saturate" => tone 1.0 args
  | "desaturate" => tone (-1.0) args
  | "adjust-hue" => do
    let c ← args.color 0 "color"
    let degrees := (← args.number 1 "degrees").value
    return onHsl c fun hsl => { hsl with hue := hsl.hue + degrees }
  | "grayscale" => do
    return onHsl (← args.color 0 "color") fun hsl => { hsl with saturation := 0.0 }
  | "complement" => do
    return onHsl (← args.color 0 "color") fun hsl => { hsl with hue := hsl.hue + 180.0 }
  | "invert" => invert args
  | "transparentize" => fade (-1.0) args
  | "opacify" => fade 1.0 args
  | "mix" => mixArgs args
  | "adjust" => adjust args
  | _ => .error (.invalidArgument s!"Unknown color function: {name}")

def signature : String → List String
  | "rgb" | "rgba" => ["red", "green", "blue", "alpha"]
  | "mix" => ["color1", "color2", "weight"]
  | "invert" => ["color", "weight"]
  | "adjust-hue" => ["color", "degrees"]
  | "adjust" => ["color", "red", "green", "blue", "hue", "saturation", "lightness", "alpha"]
  | "lighten" | "darken" | "saturate" | "desaturate" | "transparentize" | "opacify" =>
    ["color", "amount"]
  | _ => ["color"]

def family : Family where
  module_ := some "color"
  members :=
    ["red", "green", "blue", "alpha", "opacity", "mix", "adjust", "grayscale", "complement",
      "invert", "lighten", "darken", "saturate", "desaturate", "adjust-hue", "transparentize",
      "opacify", "fade-in", "fade-out"]
  globals :=
    ["rgb", "rgba", "red", "green", "blue", "alpha", "opacity", "lighten", "darken", "mix",
      "transparentize", "fade-out", "opacify", "fade-in", "saturate", "desaturate", "adjust-hue",
      "grayscale", "complement", "invert", "adjust-color"]
  aliases :=
    [("adjust-color", "adjust"), ("fade-out", "transparentize"), ("fade-in", "opacify"),
      ("opacity", "alpha")]
  signature := signature
  raw := true
  constants := []
  run := fun name args => (compute name args).map .plain

end Scss.Builtin.Color
