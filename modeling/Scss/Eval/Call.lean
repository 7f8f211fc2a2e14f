import Scss.Eval.Intrinsic
import Scss.Eval.Job

/-!
Calls with values. A name stands for the first of: a function of the stylesheet, one that looks at
the scopes, one that the caller of the library added, one of the library; and without any of these
for a function of the browser, which is written out again.
-/
namespace Scss.Eval

variable (setup : Setup) (self : Perform)

/-- Define one parameter: by place, by name, or by its default, which may use the parameters before
it. -/
def bindOne (callee : String) (left : CallArgs) (param : Parameter) : Run CallArgs := do
  let key := normalizeName param.name
  match left.positional, left.named.lookup key with
  | value :: rest, _ =>
    modify (·.define key value)
    return { left with positional := rest }
  | [], some value =>
    modify (·.define key value)
    return { left with named := left.named.eraseP (fun entry => entry.1 = key) }
  | [], none =>
    match param.default with
    | some default =>
      let value ← self (.evaluate default false)
      modify (·.define key value)
      return left
    | none => Run.fail (.invalidArgument s!"Missing argument ${param.name} for {callee}")

/-- Define the parameters of a call in the innermost frame. What is left over goes to the parameter
for the rest, or is a fault. -/
def bind (params : Parameters) (args : CallArgs) (callee : String) : Run PUnit := do
  let left ← params.params.foldlM (bindOne self callee) args
  match params.rest, left.positional, left.named with
  | some rest, values, _ => modify (·.define rest (.listOf values .comma))
  | none, [], [] => return ⟨⟩
  | none, [], (name, _) :: _ =>
    Run.fail (.invalidArgument s!"No argument named ${name} for {callee}")
  | none, _ :: _, _ =>
    let allowed := params.params.length
    let passed := args.positional.length
    Run.fail (.invalidArgument
      s!"Only {allowed} arguments allowed for {callee}, but {passed} were passed")

def callUser (function : Callable) (args : CallArgs) : Run Value := do
  let outcome ← Run.inFunction function.env do
    bind self function.params args function.name
    self (.block .function function.body)
  match outcome.returned with
  | some value => return value
  | none => Run.fail (.missingReturn function.name)

/-- `call()`, whose first argument is the function. -/
def callValue (args : CallArgs) : Run Value := do
  let call (target : Value) (args : CallArgs) : Run Value :=
    match target with
    | .function reference => self (.call reference.qualifier reference.name args)
    | .string name _ => self (.call none name args)
    | other => Run.fail (Slots.typeFault "function" "function reference" other)
  match args.named.lookup "function", args.positional with
  | some target, _ =>
    call target { args with named := args.named.eraseP (fun entry => entry.1 = "function") }
  | none, target :: rest => call target { args with positional := rest }
  | none, [] => Run.fail (.invalidArgument "Missing argument $function for call()")

def callIntrinsic (name : String) (args : CallArgs) : Run Value := do
  if name = "call" then callValue self args
  else Run.ofCause (Intrinsic.run setup (← get) name args)

/-- The value that a function of the library comes to; a warning of it is logged. -/
def computed (result : Except Cause Computed) : Run Value := do
  match ← Run.ofCause result with
  | .value value none => return value
  | .value value (some warning) =>
    Run.log .warn warning
    return value
  | .draw limit => Run.draw setup.chance limit

def callModule (module_ name : String) (args : CallArgs) : Run Value :=
  if setup.registry.isIntrinsic (some module_) name then
    callIntrinsic setup self (normalizeName name) args
  else
    match setup.registry.call? (some module_) name args setup.format with
    | some result => computed setup result
    | none => Run.fail (.unknownFunction s!"{module_}.{name}")

def browserCall (name : String) (args : CallArgs) : String :=
  let positional := args.positional.map setup.format.value
  let named := args.named.map fun (key, value) => "$" ++ key ++ ": " ++ setup.format.value value
  name ++ "(" ++ Text.join ", " (positional ++ named) ++ ")"

/-- Run a function that is neither qualified nor one of the stylesheet. -/
def callGlobal (name : String) (args : CallArgs) : Run Value :=
  let normalized := normalizeName name
  if setup.registry.isIntrinsic none normalized then callIntrinsic setup self normalized args
  else
    match setup.callbacks.get? normalized with
    | some callback => Run.ofCause (callback (args.positional ++ args.named.map Prod.snd))
    | none =>
      match setup.registry.call? none name args setup.format with
      | some result => computed setup result
      | none => return .unquoted (browserCall setup name args)

def invoke (qualifier : Option String) (name : String) (args : CallArgs) : Run Value := do
  match ← Run.ofCause ((← get).function? setup.registry qualifier name) with
  | some (.user function) => callUser self function args
  | some (.builtin module_) => callModule setup self module_ name args
  | none =>
    match qualifier with
    | some qualifier => Run.fail (.unknownFunction s!"{qualifier}.{name}")
    | none => callGlobal setup self name args

end Scss.Eval
