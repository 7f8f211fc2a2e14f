/-!
Documents of plain data, as settings come in and source maps go out.
-/
namespace Scss

inductive Document where
  | null
  | bool (value : Bool)
  | whole (value : Int)
  /-- A number that is not whole; which one does not matter to any reader. -/
  | fraction
  | text (value : String)
  | array (items : List Document)
  | object (entries : List (String × Document))

namespace Document

instance : Inhabited Document := ⟨.null⟩

def bool? : Document → Option Bool
  | bool value => some value
  | _ => none

def text? : Document → Option String
  | text value => some value
  | _ => none

def texts? : Document → Option (List String)
  | array items => items.mapM text?
  | _ => none

/-- A value that may be `null` for none. -/
def optional {α : Type} (read? : Document → Option α) : Document → Option (Option α)
  | null => some none
  | document => (read? document).map some

/-- The values of an object under names, or of an array by place. A name that occurs twice cannot be
read, and an array has to have between `least` and as many values as there are names. -/
def record? (names : List String) (least : Nat) : Document → Option (List (Option Document))
  | object entries =>
    if names.all (fun name => (entries.filter (fun entry => entry.1 = name)).length ≤ 1) then
      some (names.map fun name => entries.lookup name)
    else none
  | array items =>
    if least ≤ items.length && items.length ≤ names.length then
      some (names.zipIdx.map fun (_, index) => items[index]?)
    else none
  | _ => none

/-- A value by its reader, or a default if it is missing. -/
def field? {α : Type} (read? : Document → Option α) (default : α) : Option Document → Option α
  | some document => read? document
  | none => some default

end Document

end Scss
