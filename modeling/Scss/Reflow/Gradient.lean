import Scss.Text.Ascii
import Scss.Text.Cut
import Scss.Text.TopLevel
import Scss.Text.Word

/-!
Arguments of gradients, put together again from the words they came in: `to` and its sides, a
number and its angle unit, a colour and its position. Only the look of the words decides.
-/
namespace Scss.Gradient

def sides : List String := ["top", "bottom", "left", "right"]

def angleUnits : List String := ["deg", "rad", "grad", "turn"]

def positionUnits : List String :=
  ["", "%", "px", "em", "rem", "vw", "vh", "vmin", "vmax", "ch", "ex", "cm", "mm", "in", "pt", "pc"]

def colorFunctions : List String :=
  ["rgb", "rgba", "hsl", "hsla", "hwb", "lab", "lch", "oklab", "oklch", "color", "var"]

/-- What follows a number at the start of a text: a minus or none, and digits with at most one point
among them, which may be the last character but not the only one. -/
def afterNumber? (text : List Char) : Option (List Char) :=
  let unsigned :=
    match text with
    | '-' :: rest => rest
    | rest => rest
  let rest := unsigned.dropWhile Chars.isDecimal
  if unsigned.takeWhile Chars.isDecimal ≠ [] then
    match rest with
    | '.' :: more => some (more.dropWhile Chars.isDecimal)
    | more => some more
  else
    match rest with
    | '.' :: c :: more => if Chars.isDecimal c then some (more.dropWhile Chars.isDecimal) else none
    | _ => none

def isBareNumber (text : String) : Bool := afterNumber? text.toList = some []

def isPosition (text : String) : Bool :=
  match afterNumber? text.toList with
  | some unit => positionUnits.contains (String.ofList unit)
  | none => false

/-- A hash and three to eight hexadecimal digits, a word of letters, or a call of a colour
function on one line. -/
def isColor (text : String) : Bool :=
  match text.toList with
  | '#' :: digits => 3 ≤ digits.length && digits.length ≤ 8 && digits.all Chars.isHexDigit
  | chars =>
    (!chars.isEmpty && chars.all Char.isAlpha) ||
      (colorFunctions.any (fun name => Text.startsWith (name ++ "(") text) &&
        chars.getLast? = some ')' && !chars.contains '\n')

/-- `to`, a side or none, and now a side. -/
def continuesDirection (last segment : String) : Bool :=
  let words := Text.words last
  sides.contains segment && words.head? = some "to" && words.length < 3

def continuesStop (last segment : String) : Bool :=
  last ≠ "to" && isColor last && isPosition segment

/-- Add one segment. The segments before it are listed from the last to the first. -/
def addSegment (before : List String) (segment : String) : List String :=
  match before with
  | [] => [segment]
  | last :: rest =>
    if continuesDirection last segment || continuesStop last segment then
      (last ++ " " ++ segment) :: rest
    else if isBareNumber last && angleUnits.contains segment then (last ++ segment) :: rest
    else segment :: last :: rest

def segments (args : List String) : List String :=
  let pieces := (args.flatMap (Text.splitTopLevel ',')).filter (fun piece => !piece.isEmpty)
  (pieces.foldl addSegment []).reverse

end Scss.Gradient
