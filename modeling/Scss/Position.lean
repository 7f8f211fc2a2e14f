/-!
Places in a source text. Lines and columns count from one, columns in characters, and only a line
feed starts a new line.
-/
namespace Scss

structure Position where
  line : Nat
  column : Nat
deriving DecidableEq

namespace Position

def start : Position := ⟨1, 1⟩

def next (position : Position) (c : Char) : Position :=
  if c = '\n' then ⟨position.line + 1, 1⟩ else ⟨position.line, position.column + 1⟩

def after (position : Position) (text : List Char) : Position := text.foldl next position

/-- The place `count` columns to the right. -/
def shift (position : Position) (count : Nat) : Position :=
  { position with column := position.column + count }

/-- `line:column`. -/
def text (position : Position) : String := s!"{position.line}:{position.column}"

@[simp]
theorem after_nil (position : Position) : position.after [] = position := rfl

@[simp]
theorem after_cons (position : Position) (c : Char) (rest : List Char) :
    position.after (c :: rest) = (position.next c).after rest := rfl

@[simp]
theorem after_append (position : Position) (left right : List Char) :
    position.after (left ++ right) = (position.after left).after right :=
  List.foldl_append

end Position

end Scss
