import Scss.Text.Blank

/-!
Cutting a text at the separators that stand outside quotes and outside brackets. Quotes have no
escapes here, and a closing bracket that closes nothing takes the depth below zero, where no
separator cuts. The depth is a machine number, which starts over behind the greatest.
-/
namespace Scss

/-- What is open at a place of a text: the depth of round and square brackets, and a quote. -/
structure Enclosure where
  depth : Int32
  quote : Option Char
deriving DecidableEq

namespace Enclosure

def outside : Enclosure := ⟨0, none⟩

/-- The enclosure behind `c`. -/
def next (enclosure : Enclosure) (c : Char) : Enclosure :=
  match enclosure.quote with
  | some mark => if c = mark then { enclosure with quote := none } else enclosure
  | none =>
    if c = '"' ∨ c = '\'' then { enclosure with quote := some c }
    else if c = '(' ∨ c = '[' then { enclosure with depth := enclosure.depth + 1 }
    else if c = ')' ∨ c = ']' then { enclosure with depth := enclosure.depth - 1 }
    else enclosure

/-- Whether `c` cuts here. A quote or a bracket never does. -/
def cutsAt (enclosure : Enclosure) (separator c : Char) : Bool :=
  enclosure.quote.isNone && c = separator && enclosure.depth = 0 &&
    !(c = '"' || c = '\'' || c = '(' || c = '[' || c = ')' || c = ']')

end Enclosure

namespace Chars

def extendFirst (c : Char) : List (List Char) → List (List Char)
  | [] => [[c]]
  | piece :: rest => (c :: piece) :: rest

/-- The pieces of a text between its cuts, as they stand. -/
def topLevelPieces (separator : Char) : Enclosure → List Char → List (List Char)
  | _, [] => [[]]
  | enclosure, c :: rest =>
    if enclosure.cutsAt separator c then [] :: topLevelPieces separator enclosure rest
    else extendFirst c (topLevelPieces separator (enclosure.next c) rest)

def splitTopLevel (separator : Char) (text : List Char) : List (List Char) :=
  (topLevelPieces separator Enclosure.outside text).map trim

end Chars

namespace Text

def splitTopLevel (separator : Char) (text : String) : List String :=
  (Chars.splitTopLevel separator text.toList).map String.ofList

end Text

end Scss
