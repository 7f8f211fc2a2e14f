import Scss.Value

/-!
Maps: entries in the order of first insertion, at most one for each name. The name of a key is its
text without quotes, so a quoted and an unquoted string name the same entry.
-/
namespace Scss

abbrev Entries := List (Value × Value)

namespace Entries

/-- Whether an entry has the name of `key`. -/
def named (key : Value) (entry : Value × Value) : Bool := entry.1.bare = key.bare

def get? (entries : Entries) (key : Value) : Option Value := (entries.find? (named key)).map Prod.snd

def contains (entries : Entries) (key : Value) : Bool := entries.any (named key)

/-- Put a value under a key. An entry of that name keeps its place. -/
def insert : Entries → Value → Value → Entries
  | [], key, value => [(key, value)]
  | entry :: rest, key, value =>
    if named key entry then (key, value) :: rest else entry :: insert rest key value

/-- Take the entry of a name out; the others keep their order. -/
def erase (entries : Entries) (key : Value) : Entries := entries.eraseP (named key)

/-- The map of a list of pairs; the last value of a name counts, in the place of the first. -/
def ofPairs (pairs : List (Value × Value)) : Entries :=
  pairs.foldl (fun entries pair => insert entries pair.1 pair.2) []

def keys (entries : Entries) : List Value := entries.map Prod.fst

def values (entries : Entries) : List Value := entries.map Prod.snd

/-- All entries of both; those of `other` win. -/
def merge (entries other : Entries) : Entries :=
  other.foldl (fun merged entry => insert merged entry.1 entry.2) entries

mutual

/-- All entries of both; where both have a map, the maps are merged in turn, and otherwise the
entry of the second wins. -/
def deepMerge (entries : Entries) : List (Value × Value) → Entries
  | [] => entries
  | (key, value) :: rest => deepMerge (insert entries key (deepValue (get? entries key) value)) rest

/-- A value of the second map, merged into what the first has under its key. -/
def deepValue (own : Option Value) : Value → Value
  | .map other =>
    match own with
    | some (.map entries) => .map (deepMerge entries other)
    | _ => .map other
  | value => value

end

end Entries

namespace Value

mutual

/-- Equality of the language: numbers up to the tolerance and the unit, strings regardless of
quotes, lists and maps by their members. An empty list equals an empty map. -/
def equals : Value → Value → Bool
  | null, null => true
  | bool a, bool b => a = b
  | number a, number b => a.equals b
  | string a _, string b _ => a = b
  | color a, color b => a.equals b
  | list a separator bracketed, list b separator' bracketed' =>
    separator = separator' && bracketed = bracketed' && a.length = b.length && allEqual a b
  | map a, map b => a.length = b.length && allFound a b
  | list a _ _, map b => a.isEmpty && b.isEmpty
  | map a, list b _ _ => b.isEmpty && a.isEmpty
  | function a, function b => a = b
  | mixin a, mixin b => a = b
  | _, _ => false

def allEqual : List Value → List Value → Bool
  | x :: xs, y :: ys => x.equals y && allEqual xs ys
  | _, _ => true

/-- Every entry has an equal one of its name in the other map. -/
def allFound : List (Value × Value) → Entries → Bool
  | [], _ => true
  | (key, value) :: rest, other =>
    (match Entries.get? other key with
      | some found => value.equals found
      | none => false) && allFound rest other

end

end Value

end Scss
