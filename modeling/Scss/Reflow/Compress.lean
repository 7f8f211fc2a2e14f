import Scss.Text.Blank
import Scss.Text.Cut
import Scss.Text.Lines

/-!
Compressed output, made from expanded output: no comments but those marked for keeping, no
indentation, no line feeds, no blank behind a property's colon, no semicolon before a closing
brace. The text is taken line by line, as the expanded style lays it out.
-/
namespace Scss.Compress

/-- The length of the text up to and with the first closing mark of a comment. -/
def closeLength : List Char → Option Nat
  | [] => none
  | '*' :: '/' :: _ => some 2
  | _ :: rest => (closeLength rest).map (· + 1)

/-- The length of a comment behind its opening mark, if it is to go. An exclamation mark keeps it.
The character behind the opening mark is never part of the closing one, unless nothing closes the
comment later. -/
def commentLength (text : List Char) : Option Nat :=
  let empty := if ['*', '/'].isPrefixOf text then some 2 else none
  match text with
  | [] => none
  | '!' :: _ => none
  | _ :: rest =>
    match closeLength rest with
    | some length => some (length + 1)
    | none => empty

/-- Leave comments out; `skip` characters belong to one that is left out already. -/
def stripFrom : Nat → List Char → List Char
  | _, [] => []
  | skip + 1, _ :: rest => stripFrom skip rest
  | 0, c :: rest =>
    match c, rest with
    | '/', '*' :: more =>
      match commentLength more with
      | some length => stripFrom (length + 1) rest
      | none => c :: stripFrom 0 rest
    | _, _ => c :: stripFrom 0 rest

/-- The text without the comments that are not marked for keeping. -/
def strip (css : List Char) : List Char := stripFrom 0 css

/-- A declaration without the blanks behind its first colon. The property has no blanks. -/
def tightenColon (line : List Char) : List Char :=
  let property := line.takeWhile (fun c => c ≠ ':' && !Chars.isBlank c)
  match line.drop property.length with
  | ':' :: rest => if property.isEmpty then line else property ++ ':' :: Chars.trimStart rest
  | _ => line

/-- One line that is trimmed and not empty. -/
def line (text : List Char) : List Char :=
  if text.getLast? = some '\x7b' then
    Chars.replace " \x7b".toList ['\x7b'] (Chars.replace ", ".toList [','] text)
  else if text.head? = some '\x7d' || "/*".toList.isPrefixOf text then text
  else tightenColon text

def chars (css : List Char) : List Char :=
  let lines := ((Chars.lines (strip css)).map Chars.trim).filter (fun text => !text.isEmpty)
  Chars.replace ";\x7d".toList ['\x7d'] (lines.flatMap line)

def text (css : String) : String := String.ofList (chars css.toList)

end Scss.Compress
