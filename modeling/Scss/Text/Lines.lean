/-!
Lines of a text. A line ends with a line feed, which belongs to it, or with the text; a text that
ends with a line feed has no empty last line.
-/
namespace Scss

namespace Chars

/-- A line without its line feed, and whether it had one. -/
structure Line where
  body : List Char
  ended : Bool
deriving DecidableEq

/-- One step of `lineCut`, from the end of the text to its front. -/
def pushLine (c : Char) (after : List Line) : List Line :=
  if c = '\n' then ⟨[], true⟩ :: after
  else
    match after with
    | [] => [⟨[c], false⟩]
    | line :: rest => ⟨c :: line.body, line.ended⟩ :: rest

/-- The lines of a text, each with the mark whether a line feed ended it. -/
def lineCut (text : List Char) : List Line := text.foldr pushLine []

def dropReturn (line : List Char) : List Char :=
  if line.getLast? = some '\r' then line.dropLast else line

/-- A line as it reads: a carriage return before the line feed goes with it. -/
def Line.text (line : Line) : List Char := if line.ended then dropReturn line.body else line.body

def lines (text : List Char) : List (List Char) := (lineCut text).map Line.text

/-- Write a line back, with its line feed if it had one. -/
def Line.whole (line : Line) : List Char := if line.ended then line.body ++ ['\n'] else line.body

/-- Cutting into lines loses nothing. -/
theorem flatMap_whole_lineCut (text : List Char) : (lineCut text).flatMap Line.whole = text := by
  induction text with
  | nil => rfl
  | cons c rest ih =>
    have step : lineCut (c :: rest) = pushLine c (lineCut rest) := rfl
    rw [step]
    by_cases newline : c = '\n'
    · simp [pushLine, newline, Line.whole, ih]
    · cases cut : lineCut rest with
      | nil =>
        have empty : rest = [] := by rw [← ih, cut]; rfl
        simp [pushLine, newline, Line.whole, empty]
      | cons line more =>
        rw [cut] at ih
        cases ended : line.ended <;> simp_all [pushLine, Line.whole, List.flatMap_cons]

end Chars

namespace Text

def lines (text : String) : List String := (Chars.lines text.toList).map String.ofList

end Text

end Scss
