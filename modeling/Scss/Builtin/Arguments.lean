import Scss.Value.Map

/-!
Arguments of calls, and how the functions of the library take them: by place after names have been
put in their places, with `null` for an argument that is not there.
-/
namespace Scss

/-- The arguments of a call: values by place, and values by name in the order of the call. -/
structure CallArgs where
  positional : List Value
  named : List (String × Value)

namespace CallArgs

def ofValues (values : List Value) : CallArgs := ⟨values, []⟩

/-- Give a name a value. A name given again keeps its place. -/
def insertNamed (name : String) (value : Value) : List (String × Value) → List (String × Value)
  | [] => [(name, value)]
  | entry :: rest =>
    if entry.1 = name then (name, value) :: rest else entry :: insertNamed name value rest

/-- Put the named values into their places, from the place `index` on. Places that stay empty
before a named one are `null`. -/
def place (values : List Value) (named : List (String × Value)) :
    Nat → List String → Except Cause (List Value)
  | _, [] =>
    match named with
    | [] => .ok values
    | (name, _) :: _ => .error (.invalidArgument s!"No argument named ${name}")
  | index, param :: rest =>
    match named.lookup param with
    | none => place values named (index + 1) rest
    | some value =>
      if index < values.length then
        .error (.invalidArgument s!"Argument ${param} was passed both by position and by name")
      else
        place (values ++ List.replicate (index - values.length) .null ++ [value])
          (named.eraseP (fun entry => entry.1 = param)) (index + 1) rest

/-- All arguments by place, as `signature` lists the names. -/
def normalize (args : CallArgs) (signature : List String) : Except Cause (List Value) :=
  place args.positional args.named 0 signature

end CallArgs

abbrev Slots := List Value

namespace Slots

/-- The argument in a place; `null` counts as none. -/
def get? (args : Slots) (index : Nat) : Option Value :=
  match args[index]? with
  | some .null => none
  | found => found

/-- The value in a place, which may be `null`. -/
def valueAt (args : Slots) (index : Nat) : Value := (args[index]?).getD .null

def required (args : Slots) (index : Nat) (param : String) : Except Cause Value :=
  match get? args index with
  | some value => .ok value
  | none => .error (.invalidArgument s!"Missing argument ${param}")

def typeFault (param expected : String) (value : Value) : Cause :=
  .invalidArgument s!"${param}: {value.inspect} is not a {expected}"

def number (args : Slots) (index : Nat) (param : String) : Except Cause Number := do
  match ← required args index param with
  | .number n => .ok n
  | other => .error (typeFault param "number" other)

def color (args : Slots) (index : Nat) (param : String) : Except Cause Color := do
  match ← required args index param with
  | .color c => .ok c
  | other => .error (typeFault param "color" other)

/-- A map; the empty list counts as one. -/
def map (args : Slots) (index : Nat) (param : String) : Except Cause Entries := do
  match ← required args index param with
  | .map entries => .ok entries
  | .list [] _ _ => .ok []
  | other => .error (typeFault param "map" other)

def unitless (args : Slots) (index : Nat) (param : String) : Except Cause Number := do
  let n ← number args index param
  if n.isUnitless then .ok n
  else .error (.invalidArgument s!"${param}: Expected {n.css} to have no units")

/-- A number without a unit, or a percentage by its number. -/
def amount (args : Slots) (index : Nat) (param : String) : Except Cause Float := do
  let n ← number args index param
  if n.unit = none || n.unit = some "%" then .ok n.value
  else .error (.invalidArgument
    s!"${param}: Expected {n.css} to have unit \"%\" or no units")

end Slots

/-- What a function of the library comes to. -/
inductive Computed where
  /-- A value, and a warning if there is one. -/
  | value (value : Value) (warning : Option String)
  /-- A number is to be drawn: a whole one from one up to a limit, or without a limit one from zero up
  to one. -/
  | draw (limit : Option Int)

def Computed.plain (value : Value) : Computed := .value value none

/-- A family of functions that belong together. -/
structure Family where
  /-- The module that holds them, if one does. -/
  module_ : Option String
  /-- The names in that module. -/
  members : List String
  /-- The names that need no module. -/
  globals : List String
  /-- Names, and the function that each is another name of. -/
  aliases : List (String × String)
  /-- The parameters of a function, for arguments by name. -/
  signature : String → List String
  /-- Whether arguments stay values; otherwise they are turned into text. -/
  raw : Bool
  /-- The variables of the module. -/
  constants : List (String × Value)
  run : String → Slots → Except Cause Computed

end Scss
