import Scss.Text.Lines
import Scss.Text.TopLevel

/-!
Selector lists in finished text: a line that is the head of a rule with commas in it becomes one
line for each selector, under the same indentation.
-/
namespace Scss.SelectorList

/-- Indentation and selectors of a line that is the head of a rule and has a comma. The head of an
at-rule is none, and neither is a line with other braces in it. -/
def header? (line : List Char) : Option (List Char × List Char) :=
  let indent := line.takeWhile Chars.isBlank
  let rest := line.drop indent.length
  let head := rest.dropLast
  if rest.getLast? = some '\x7b' && head.head? ≠ some '@' && head.tail.contains ',' &&
      !head.contains '\x7b' && !head.contains '\x7d' then
    some (indent, Chars.trimEnd head)
  else none

def splitLine (line : List Char) : List Char :=
  match header? line with
  | some (indent, selectors) =>
    indent ++ List.intercalate (",\n".toList ++ indent) (Chars.splitTopLevel ',' selectors) ++
      " \x7b".toList
  | none => line

def splitChars (css : List Char) : List Char :=
  (Chars.lineCut css).flatMap fun line => Chars.Line.whole { line with body := splitLine line.body }

def split (css : String) : String := String.ofList (splitChars css.toList)

end Scss.SelectorList
