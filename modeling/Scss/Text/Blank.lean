/-!
Blank characters, as Unicode's property White_Space lists them, and what the stylesheet language
does with them: trimming, cutting into words and collapsing runs.

Functions on `List Char` stand in the namespace `Chars`, and their forms on `String` in `Text`.
-/
namespace Scss

namespace Chars

/-- The property White_Space: the ASCII blanks, NEL, the no-break space and the wider spaces and
separators. The zero-width space and the byte order mark are not in it. -/
def isBlank (c : Char) : Bool :=
  c = ' ' || ('\t' ≤ c && c ≤ '\r') || c = '\u0085' || c = '\u00a0' || c = '\u1680' ||
    ('\u2000' ≤ c && c ≤ '\u200a') || c = '\u2028' || c = '\u2029' || c = '\u202f' ||
    c = '\u205f' || c = '\u3000'

def trimStart (text : List Char) : List Char := text.dropWhile isBlank

def trimEnd (text : List Char) : List Char := (text.reverse.dropWhile isBlank).reverse

def trim (text : List Char) : List Char := trimEnd (trimStart text)

/-- One step of `words`: a blank closes the word that is open. -/
def pushWord (c : Char) : List (List Char) → List (List Char)
  | [] => if isBlank c then [[]] else [[c]]
  | word :: rest => if isBlank c then [] :: word :: rest else (c :: word) :: rest

/-- The maximal runs of characters that are not blank. -/
def words (text : List Char) : List (List Char) :=
  (text.foldr pushWord [[]]).filter (fun word => !word.isEmpty)

/-- Every run of blanks becomes one space; `after` says that a blank was just written. -/
def collapseFrom (after : Bool) : List Char → List Char
  | [] => []
  | c :: rest =>
    if isBlank c then
      if after then collapseFrom true rest else ' ' :: collapseFrom true rest
    else c :: collapseFrom false rest

def collapse (text : List Char) : List Char := collapseFrom false text

theorem isBlank_of_isWhitespace {c : Char} (h : c.isWhitespace = true) : isBlank c = true := by
  simp only [Char.isWhitespace, Bool.or_eq_true, decide_eq_true_eq] at h
  rcases h with ((h | h) | h) | h <;> subst h <;> decide

@[simp]
theorem trimStart_nil : trimStart [] = [] := rfl

@[simp]
theorem trimEnd_nil : trimEnd [] = [] := rfl

@[simp]
theorem trim_nil : trim [] = [] := rfl

end Chars

namespace Text

/-- Lift a function on characters to `String`. -/
def mapChars (f : List Char → List Char) (text : String) : String := String.ofList (f text.toList)

def trim : String → String := mapChars Chars.trim

def trimStart : String → String := mapChars Chars.trimStart

def trimEnd : String → String := mapChars Chars.trimEnd

def collapse : String → String := mapChars Chars.collapse

/-- Nothing but blanks, or nothing at all. -/
def isBlank (text : String) : Bool := text.toList.all Chars.isBlank

def words (text : String) : List String := (Chars.words text.toList).map String.ofList

@[simp]
theorem toList_mapChars (f : List Char → List Char) (text : String) :
    (mapChars f text).toList = f text.toList := by
  simp [mapChars]

end Text

end Scss
