import Scss.Text.TopLevel

/-!
Source maps: where the head of each rule stands in the output, and where it came from. Heads are
noted while rules are written, and looked up in the finished text, one behind the other.
-/
namespace Scss

/-- A place in the output and the line it came from. Lines count from one, columns from zero and in
bytes. -/
structure Mapping where
  generatedLine : Nat
  generatedColumn : Nat
  originalLine : Nat
  source : String
deriving DecidableEq

/-- The head of a rule that is not looked up yet. -/
structure PendingMapping where
  selector : String
  source : String
  line : Nat
deriving DecidableEq

/-- A place in a text: line, column in bytes, and what stands there. -/
structure Spot where
  line : Nat
  column : Nat
  rest : List Char
deriving DecidableEq

namespace Spot

def start (text : List Char) : Spot := ⟨1, 0, text⟩

/-- The place behind the next character, if there is one. -/
def next (spot : Spot) : Spot :=
  match spot.rest with
  | [] => spot
  | c :: rest =>
    if c = '\n' then ⟨spot.line + 1, 0, rest⟩ else ⟨spot.line, spot.column + c.utf8Size, rest⟩

/-- The place behind `count` characters. -/
def advance (spot : Spot) : Nat → Spot
  | 0 => spot
  | count + 1 => spot.next.advance count

/-- Whether a rule's head ends here: a brace or a comma follows, with or without blanks. -/
def endsHead (spot : Spot) : Bool :=
  match spot.rest.dropWhile Chars.isBlank with
  | c :: _ => c = '\x7b' || c = ','
  | [] => false

/-- Look for a head from a place on. `left` bounds the characters to go, and `skip` of them belong
to an occurrence that is no head. -/
def findWithin (head : List Char) : Nat → Nat → Spot → Option Spot
  | 0, _, _ => none
  | left + 1, skip + 1, spot => findWithin head left skip spot.next
  | left + 1, 0, spot =>
    if head.isPrefixOf spot.rest then
      if (spot.advance head.length).endsHead then some spot
      else findWithin head left (head.length - 1) spot.next
    else findWithin head left 0 spot.next

def find? (spot : Spot) (head : List Char) : Option Spot :=
  findWithin head spot.rest.length 0 spot

end Spot

namespace PendingMapping

/-- The part of the selector that is looked up: up to its first comma. -/
def head (pending : PendingMapping) : List Char :=
  ((Chars.splitTopLevel ',' pending.selector.toList).head?).getD []

/-- Look up the heads from a place on. One that is not found is left out. -/
def resolveFrom (spot : Spot) : List PendingMapping → List Mapping
  | [] => []
  | pending :: rest =>
    match pending.head with
    | [] => resolveFrom spot rest
    | head =>
      match spot.find? head with
      | none => resolveFrom spot rest
      | some found =>
        ⟨found.line, found.column, pending.line, pending.source⟩ ::
          resolveFrom (found.advance head.length) rest

def resolve (css : String) (pending : List PendingMapping) : List Mapping :=
  resolveFrom (Spot.start css.toList) pending

end PendingMapping

structure SourceMap where
  file : Option String
  sources : List String
  contents : List String
  mappings : List Mapping

namespace SourceMap

def empty (file : Option String) : SourceMap := ⟨file, [], [], []⟩

/-- Register a source, with its text if there is one. A name that is there already changes
nothing. -/
def addSource (map : SourceMap) (name : String) (content : Option String) : SourceMap :=
  if map.sources.contains name then map
  else { map with sources := map.sources ++ [name], contents := map.contents ++ content.toList }

def indexOf (map : SourceMap) (name : String) : Nat := map.sources.idxOf name

end SourceMap

end Scss
