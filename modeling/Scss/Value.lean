import Scss.Color
import Scss.Number
import Scss.Separator
import Scss.Text.Cut

/-!
Values of expressions, and their text. Text comes in two forms, written out and compressed, which
differ in the comma of lists and in the zero before a number's point.
-/
namespace Scss

/-- A function or a mixin by name, found when it is called. -/
structure Reference where
  qualifier : Option String
  name : String
deriving DecidableEq

def Reference.text (reference : Reference) : String :=
  match reference.qualifier with
  | some qualifier => s!"{qualifier}.{reference.name}"
  | none => reference.name

inductive Value where
  | null
  | bool (value : Bool)
  | number (value : Number)
  | string (text : String) (quoted : Bool)
  | color (value : Color)
  | list (items : List Value) (separator : Separator) (bracketed : Bool)
  /-- Keys and values in the order of first insertion. -/
  | map (entries : List (Value × Value))
  | function (reference : Reference)
  | mixin (reference : Reference)

namespace Value

instance : Inhabited Value := ⟨.null⟩

def ofFloat (value : Float) : Value := .number (.unitless value)

def ofNat (value : Nat) : Value := ofFloat (Float.ofNat value)

def quoted (text : String) : Value := .string text true

def unquoted (text : String) : Value := .string text false

def listOf (items : List Value) (separator : Separator) : Value := .list items separator false

/-- Everything counts as true but `null` and `false`. -/
def isTruthy : Value → Bool
  | null => false
  | bool false => false
  | _ => true

def isNull : Value → Bool
  | null => true
  | _ => false

def typeName : Value → String
  | null => "null"
  | bool _ => "bool"
  | number _ => "number"
  | string _ _ => "string"
  | color _ => "color"
  | list _ _ _ => "list"
  | map _ => "map"
  | function _ => "function"
  | mixin _ => "mixin"

/-- The members as of a list: a map has pairs, and any other value is its only member. -/
def toList : Value → List Value
  | list items _ _ => items
  | map entries => entries.map (fun (key, value) => listOf [key, value] .space)
  | other => [other]

def separator : Value → Separator
  | list _ separator _ => separator
  | map _ => .comma
  | _ => .space

end Value

/-- The text of a string in quotes. A text that holds double quotes only is put into single ones;
otherwise double quotes inside get a backslash. -/
def quoteText (text : String) : String :=
  if text.toList.contains '"' && !text.toList.contains '\'' then "'" ++ text ++ "'"
  else "\"" ++ Text.replace "\"" "\\\"" text ++ "\""

structure Format where
  compressed : Bool
deriving DecidableEq

namespace Format

def expanded : Format := ⟨false⟩

def separator (format : Format) : Separator → String
  | .comma => if format.compressed then "," else ", "
  | other => other.text

def number (format : Format) (n : Number) : String :=
  if format.compressed then n.compressed else n.css

def bracket (bracketed : Bool) (text : String) : String := if bracketed then s!"[{text}]" else text

mutual

/-- The text of a value. `null` has none, and lists leave out members without text. -/
def value (format : Format) : Value → String
  | .null => ""
  | .bool b => if b then "true" else "false"
  | .number n => format.number n
  | .string text quoted => if quoted then quoteText text else text
  | .color c => c.css
  | .list items separator bracketed =>
    bracket bracketed (Text.join (format.separator separator)
      ((format.values items).filter (fun text => !text.isEmpty)))
  | .map entries => "(" ++ Text.join ", " (format.pairs entries) ++ ")"
  | .function reference => s!"get-function(\"{reference.text}\")"
  | .mixin reference => s!"get-mixin(\"{reference.text}\")"

def values (format : Format) : List Value → List String
  | [] => []
  | item :: rest => format.value item :: format.values rest

def pairs (format : Format) : List (Value × Value) → List String
  | [] => []
  | (key, item) :: rest => s!"{format.value key}: {format.value item}" :: format.pairs rest

end

end Format

namespace Value

def css (value : Value) : String := Format.expanded.value value

/-- The text without the quotes of a string: the name of a map's key, and what interpolation
puts in. -/
def bare : Value → String
  | string text _ => text
  | other => other.css

mutual

/-- The text for people: `null` and empty lists can be seen. -/
def inspect : Value → String
  | null => "null"
  | list items separator bracketed =>
    match items with
    | [] => if bracketed then "[]" else "()"
    | items => Format.bracket bracketed (Text.join separator.text (inspectAll items))
  | map entries => "(" ++ Text.join ", " (inspectPairs entries) ++ ")"
  | other => other.css

def inspectAll : List Value → List String
  | [] => []
  | item :: rest => item.inspect :: inspectAll rest

def inspectPairs : List (Value × Value) → List String
  | [] => []
  | (key, item) :: rest => s!"{key.inspect}: {item.inspect}" :: inspectPairs rest

end

end Value

end Scss
