import Scss.Builtin.Arguments
import Scss.Reflow.Gradient

/-!
Functions of the browser that are written out again in one form: colours in other spaces, and
gradients. Their arguments come as text.
-/
namespace Scss.Builtin.Native

def texts (args : Slots) : List String :=
  (List.map Value.bare args).filter (fun text => !text.isEmpty)

def callText (name : String) (args : List String) : String :=
  name ++ "(" ++ Text.join ", " args ++ ")"

/-- Where channels are divided: at blanks, slashes and commas. -/
def isDivider (c : Char) : Bool := Chars.isBlank c || c = '/' || c = ','

def parts (text : String) : List String :=
  let blanked := text.toList.map (fun c => if isDivider c then ' ' else c)
  (Chars.words blanked).map String.ofList

/-- An opacity that is a plain number, as numbers are written; any other as it is. -/
def opacity (text : String) : String :=
  match Decimal.read? text.toList with
  | some value => Decimal.text value
  | none => text

/-- The call with three or four channels in one form, or as it is. -/
def color (name : String) (args : Slots) : String :=
  let rendered := texts args
  let hsl := name = "hsl" || name = "hsla"
  match rendered.flatMap parts with
  | [a, b, c] => if hsl then s!"hsl({a}, {b}, {c})" else s!"{name}({a} {b} {c})"
  | [a, b, c, alpha] =>
    if hsl then s!"hsla({a}, {b}, {c}, {opacity alpha})"
    else s!"{name}({a} {b} {c} / {opacity alpha})"
  | _ => callText name rendered

def gradient (name : String) (args : Slots) : String :=
  callText name (Gradient.segments (texts args))

def family (globals : List String) (text : String → Slots → String) : Family where
  module_ := none
  members := []
  globals := globals
  aliases := []
  signature := fun _ => []
  raw := false
  constants := []
  run := fun name args => .ok (.plain (.unquoted (text name args)))

def colors : Family := family ["hsl", "hsla", "hwb", "lab", "lch", "oklch"] color

def gradients : Family :=
  family ["linear-gradient", "radial-gradient", "repeating-linear-gradient",
    "repeating-radial-gradient"] gradient

end Scss.Builtin.Native
