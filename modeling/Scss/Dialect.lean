import Scss.Path
import Scss.Text.Blank
import Scss.Text.Cut
import Scss.Text.Lines

/-!
Dialects of stylesheets. The one by indentation is turned into the one by braces line by line,
before any token is read: a line with deeper lines behind it opens a block, other lines get a
semicolon, and blank lines stay.
-/
namespace Scss

inductive Dialect where
  /-- Blocks by braces. -/
  | scss
  /-- Blocks by indentation. -/
  | indented
  /-- Plain CSS, which is read like the dialect by braces. -/
  | css
deriving DecidableEq

def Dialect.ofPath (path : String) : Dialect :=
  match Path.extension? path with
  | some "sass" => .indented
  | some "css" => .css
  | _ => .scss

namespace Indented

def width (line : List Char) : Nat := (line.takeWhile (fun c => c = ' ' || c = '\t')).length

def isBlankLine (line : List Char) : Bool := line.all Chars.isBlank

/-- The least indentation of an indented line, or two if no line is indented. -/
def unitOf (lines : List (List Char)) : Nat :=
  let widths := (lines.filter (fun line => !isBlankLine line)).map width
  ((widths.filter (0 < ·)).min?).getD 2

def depth (unit : Nat) (line : List Char) : Nat := width line / unit

def pad (depth : Nat) : List Char := List.replicate (2 * depth) ' '

/-- A line that closes a block. -/
def closing (depth : Nat) : List Char := pad depth ++ ['\x7d']

/-- A statement with the short forms for defining and including mixins written out. -/
def statement : List Char → List Char
  | '=' :: rest => "@mixin ".toList ++ Chars.trimStart rest
  | '+' :: rest => "@include ".toList ++ Chars.trimStart rest
  | text => text

/-- Whether the next line that is not blank is deeper than `own`. -/
def opensBlock (unit own : Nat) (following : List (List Char)) : Bool :=
  match following.find? (fun line => !isBlankLine line) with
  | some line => own < depth unit line
  | none => false

def closesComment (line : List Char) : Bool := Chars.hasInfix ['*', '/'] line

/-- The lines that belong to a comment behind its first line, which starts at `start` columns:
blank ones and deeper ones, as long as the comment is open. `last` is the comment's last line so
far. The answer is how many lines there are. -/
def commentSpan (start : Nat) (last : List Char) : List (List Char) → Nat
  | [] => 0
  | line :: rest =>
    if closesComment last then 0
    else if isBlankLine line then commentSpan start last rest + 1
    else if start < width line then commentSpan start (Chars.trimEnd line) rest + 1
    else 0

/-- The last line of a comment gets its closing mark if it has none. -/
def closeLast : List (List Char) → List (List Char)
  | [] => []
  | [last] => [if closesComment last then last else last ++ " */".toList]
  | line :: rest => line :: closeLast rest

def commentLines (first : List Char) (following : List (List Char)) : List (List Char) :=
  closeLast (first :: (following.filter (fun line => !isBlankLine line)).map Chars.trimEnd)

/-- Where the conversion stands: the depths of the open blocks, innermost first, the blank lines
not written yet, and how many lines are written already as part of a comment. -/
structure State where
  opened : List Nat
  blanks : Nat
  skip : Nat

/-- One line that is neither blank nor part of a comment, as a statement or the head of a block. -/
def statementLine (own : Nat) (opens : Bool) (text : List Char) : List Char :=
  let body := statement text
  if opens then pad own ++ body ++ " \x7b".toList
  else if [some ';', some '\x7b', some '\x7d'].contains body.getLast? then pad own ++ body
  else pad own ++ body ++ [';']

def convert (unit : Nat) : State → List (List Char) → List (List Char)
  | state, [] => state.opened.map closing
  | state, line :: rest =>
    if 0 < state.skip then convert unit { state with skip := state.skip - 1 } rest
    else if isBlankLine line then convert unit { state with blanks := state.blanks + 1 } rest
    else
      let text := Chars.trim line
      let own := depth unit line
      let closed := (state.opened.takeWhile (own ≤ ·)).map closing
      let opened := state.opened.dropWhile (own ≤ ·)
      let before := closed ++ List.replicate state.blanks []
      if ['/', '*'].isPrefixOf text then
        let first := pad own ++ text
        let span := commentSpan (width line) first rest
        before ++ commentLines first (rest.take span) ++ convert unit ⟨opened, 0, span⟩ rest
      else if ['/', '/'].isPrefixOf text || text.getLast? = some ',' then
        before ++ (pad own ++ text) :: convert unit ⟨opened, 0, 0⟩ rest
      else
        let opens := opensBlock unit own rest
        before ++ statementLine own opens text ::
          convert unit ⟨if opens then own :: opened else opened, 0, 0⟩ rest

def unit (source : String) : Nat := unitOf (Chars.lines source.toList)

/-- A text by indentation as a text by braces. It keeps the line ends and a line feed at the end. -/
def toScss (source : String) : String :=
  let chars := source.toList
  let newline := if Chars.hasInfix ['\r', '\n'] chars then ['\r', '\n'] else ['\n']
  let lines := Chars.lines chars
  let converted := convert (unitOf lines) ⟨[], 0, 0⟩ lines
  let final := if chars.getLast? = some '\n' then newline else []
  String.ofList (List.intercalate newline converted ++ final)

end Indented

def Dialect.toScss (dialect : Dialect) (source : String) : String :=
  match dialect with
  | .indented => Indented.toScss source
  | .scss => source
  | .css => source

end Scss
