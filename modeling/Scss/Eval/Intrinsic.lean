import Scss.Machine.Scope

/-!
Functions that look at the scopes of their caller, and the few for strings. `call()` is not here,
because it calls other functions.
-/
namespace Scss.Intrinsic

def signature : String → List String
  | "type-of" | "inspect" => ["value"]
  | "variable-exists" => ["name"]
  | "global-variable-exists" | "function-exists" | "mixin-exists" => ["name", "module"]
  | "get-function" => ["name", "css", "module"]
  | _ => ["string"]

/-- The module that an argument names, unless it is `null` or not there. -/
def module? (values : Slots) (index : Nat) : Option String := (values.get? index).map Value.bare

/-- Whether a variable of the running module, or of the module of a name, is there. -/
def globalExists (setup : Setup) (machine : Machine) (name : String) : Option String → Bool
  | some qualifier => (machine.qualifiedVariable setup.registry qualifier name).isOk
  | none => machine.current.vars.contains (normalizeName name)

/-- Whether a function is there. Functions of the library and of its caller need no module. -/
def functionExists (setup : Setup) (machine : Machine) (name : String)
    (qualifier : Option String) : Except Cause Bool := do
  let defined := (← machine.function? setup.registry qualifier name).isSome
  return defined ||
    (qualifier.isNone &&
      (setup.registry.contains none name || setup.callbacks.contains (normalizeName name)))

def mapText (change : String → String) : Value → Except Cause Value
  | .string text quoted => .ok (.string (change text) quoted)
  | other => .error (Slots.typeFault "string" "string" other)

/-- The value of a function for its first argument and all arguments. -/
def apply (setup : Setup) (machine : Machine) (name : String) (first : Value) (values : Slots) :
    Except Cause Value :=
  match name with
  | "type-of" => .ok (.unquoted first.typeName)
  | "inspect" => .ok (.unquoted first.inspect)
  | "variable-exists" => .ok (.bool (machine.lookup? setup.registry first.bare).isSome)
  | "global-variable-exists" =>
    .ok (.bool (globalExists setup machine first.bare (module? values 1)))
  | "function-exists" => Value.bool <$> functionExists setup machine first.bare (module? values 1)
  | "mixin-exists" =>
    (fun found => .bool found.isSome) <$> machine.mixin? (module? values 1) first.bare
  | "get-function" => .ok (.function ⟨module? values 2, first.bare⟩)
  | "unquote" => .ok (.unquoted first.bare)
  | "quote" => .ok (.quoted first.bare)
  | "to-upper-case" => mapText Text.upper first
  | "to-lower-case" => mapText Text.lower first
  | name => .error (.unknownFunction name)

def run (setup : Setup) (machine : Machine) (name : String) (args : CallArgs) :
    Except Cause Value := do
  let params := signature name
  let values ← args.normalize params
  match values with
  | first :: _ => apply setup machine name first values
  | [] =>
    let param := (params.head?).getD ""
    .error (.invalidArgument s!"Missing argument ${param} for {name}()")

end Scss.Intrinsic
