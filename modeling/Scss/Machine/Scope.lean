import Scss.Machine

/-!
Finding and setting variables, functions and mixins. A name is looked for in the frames of the
blocks around, then in the module, then in the modules that need no name before them. Members of a
module may come from modules that it forwards; how many of those are followed is bounded by the
number of modules and the length of the name.
-/
namespace Scss

inductive FunctionTarget where
  | user (callable : Callable)
  /-- In this module of the library. -/
  | builtin (name : String)

namespace Machine

variable {α : Type}

/-- The first member that `own` or `library` finds in a module or in what it forwards, to a depth of
at most `depth` modules. -/
def member? (machine : Machine) (sigil : String) (library : String → String → Option α)
    (own : Environment → String → Option α) : Nat → ModuleRef → String → Option α
  | 0, _, _ => none
  | _ + 1, .builtin module_, name => library module_ name
  | depth + 1, .user id, name =>
    let environment := machine.environment id
    match own environment name with
    | some found => some found
    | none =>
      environment.forwards.findSome? fun forward =>
        match forward.expose? name sigil with
        | some inner => member? machine sigil library own depth forward.module_ inner
        | none => none

/-- A bound on how many modules are followed in a row. Forwarding only cuts a name at its start, so a
search that comes to a module with the same rest of the name again comes to it without end. -/
def forwardDepth (machine : Machine) (name : String) : Nat :=
  machine.environments.size * (name.length + 1) + 1

def moduleVariable? (machine : Machine) (registry : Registry) (module_ : ModuleRef)
    (name : String) : Option Value :=
  machine.member? "$" (fun library name => (registry.constants library).lookup name)
    (fun environment name => environment.vars.get? name) (machine.forwardDepth name) module_ name

def moduleFunction? (machine : Machine) (registry : Registry) (module_ : ModuleRef)
    (name : String) : Option FunctionTarget :=
  machine.member? ""
    (fun library name =>
      if registry.contains (some library) name then some (.builtin library) else none)
    (fun environment name => (environment.functions.get? name).map .user)
    (machine.forwardDepth name) module_ name

def moduleMixin? (machine : Machine) (module_ : ModuleRef) (name : String) : Option Callable :=
  machine.member? "" (fun _ _ => none) (fun environment name => environment.mixins.get? name)
    (machine.forwardDepth name) module_ name

/-- Find a member of the running module, or of the modules that need no name before them. -/
def here? (own : Option α) (inModule : ModuleRef → Option α) (stars : List ModuleRef) : Option α :=
  match own with
  | some found => some found
  | none => stars.findSome? inModule

def lookup? (machine : Machine) (registry : Registry) (name : String) : Option Value :=
  let name := normalizeName name
  match machine.frames.findSome? (fun frame => frame.vars.get? name) with
  | some value => some value
  | none =>
    here? (machine.current.vars.get? name)
      (fun module_ => machine.moduleVariable? registry module_ name) machine.current.stars

def module? (machine : Machine) (name : String) : Except Cause ModuleRef :=
  match machine.current.namespaces.get? name with
  | some module_ => .ok module_
  | none => .error (.unknownModule name)

def qualifiedVariable (machine : Machine) (registry : Registry) (qualifier name : String) :
    Except Cause Value := do
  let module_ ← machine.module? qualifier
  match machine.moduleVariable? registry module_ (normalizeName name) with
  | some value => .ok value
  | none => .error (.undefinedVariable s!"{qualifier}.${name}")

/-- Find a function, in the module of a name if one is given. -/
def function? (machine : Machine) (registry : Registry) (qualifier : Option String)
    (name : String) : Except Cause (Option FunctionTarget) :=
  let name := normalizeName name
  match qualifier with
  | some qualifier => do
    return machine.moduleFunction? registry (← machine.module? qualifier) name
  | none =>
    .ok (here? ((machine.current.functions.get? name).map .user)
      (fun module_ => machine.moduleFunction? registry module_ name) machine.current.stars)

/-- Find a mixin, in the module of a name if one is given. -/
def mixin? (machine : Machine) (qualifier : Option String) (name : String) :
    Except Cause (Option Callable) :=
  let name := normalizeName name
  match qualifier with
  | some qualifier => do return machine.moduleMixin? (← machine.module? qualifier) name
  | none =>
    .ok (here? (machine.current.mixins.get? name)
      (fun module_ => machine.moduleMixin? module_ name) machine.current.stars)

/-- Whether no rule or call stands between the running block and its module. -/
def isSemiGlobal (machine : Machine) : Bool := machine.frames.all Frame.semiGlobal

def setGlobal (machine : Machine) (name : String) (value : Value) : Machine :=
  machine.modifyEnvironment machine.env fun environment =>
    { environment with vars := environment.vars.set name value }

/-- Set a variable in the innermost block, or in the module outside of all blocks. -/
def define (machine : Machine) (name : String) (value : Value) : Machine :=
  let name := normalizeName name
  match machine.frames with
  | frame :: rest =>
    { machine with frames := { frame with vars := frame.vars.set name value } :: rest }
  | [] => machine.setGlobal name value

/-- Set a variable in the innermost frame that has it; `none` if none has. -/
def setInFrames? (name : String) (value : Value) : List Frame → Option (List Frame)
  | [] => none
  | frame :: rest =>
    if frame.vars.contains name then
      some ({ frame with vars := frame.vars.set name value } :: rest)
    else (setInFrames? name value rest).map (frame :: ·)

/-- Assign a variable: where it is defined nearest, and otherwise in the innermost block. A variable
of the module is reached from blocks outside of rules and calls only, or with `global`. -/
def assign (machine : Machine) (name : String) (value : Value) (global : Bool) : Machine :=
  let name := normalizeName name
  if global || machine.frames.isEmpty then machine.setGlobal name value
  else
    match setInFrames? name value machine.frames with
    | some frames => { machine with frames := frames }
    | none =>
      if machine.isSemiGlobal && machine.current.vars.contains name then
        machine.setGlobal name value
      else machine.define name value

/-- Assign a variable of the module of a name, which has to define it itself. -/
def assignQualified (machine : Machine) (qualifier name : String) (value : Value) :
    Except Cause Machine := do
  let name := normalizeName name
  let undefined : Except Cause Machine := .error (.undefinedVariable s!"{qualifier}.${name}")
  match ← machine.module? qualifier with
  | .builtin _ => undefined
  | .user id =>
    if (machine.environment id).vars.contains name then
      .ok (machine.modifyEnvironment id fun environment =>
        { environment with vars := environment.vars.set name value })
    else undefined

def callable (machine : Machine) (name : String) (params : Parameters) (body : List Statement) :
    Callable := ⟨name, params, body, machine.env⟩

def defineFunction (machine : Machine) (name : String) (params : Parameters)
    (body : List Statement) : Machine :=
  let function := machine.callable name params body
  machine.modifyEnvironment machine.env fun environment =>
    { environment with functions := environment.functions.set (normalizeName name) function }

def defineMixin (machine : Machine) (name : String) (params : Parameters)
    (body : List Statement) : Machine :=
  let mixin := machine.callable name params body
  machine.modifyEnvironment machine.env fun environment =>
    { environment with mixins := environment.mixins.set (normalizeName name) mixin }

end Machine

namespace Run

variable {α : Type}

def withFrame (semiGlobal : Bool) (action : Run α) : Run α :=
  enclosed (fun before => { before with frames := .fresh semiGlobal :: before.frames })
    (fun _ after => { after with frames := after.frames.tail }) action

def withSelector (selector : Option String) (action : Run α) : Run α :=
  enclosed (fun before => { before with selector := selector })
    (fun before after => { after with selector := before.selector }) action

def withMedia (query : String) (action : Run α) : Run α :=
  enclosed (fun before => { before with media := some query })
    (fun before after => { after with media := before.media }) action

/-- Run the body of a function: in its own module, with one fresh frame. -/
def inFunction (env : EnvId) (action : Run α) : Run α :=
  enclosed (fun before => { before with env := env, frames := [.fresh false] })
    (fun before after => { after with env := before.env, frames := before.frames }) action

/-- Run the body of a mixin: in its own module, with one fresh frame, while the includer's state
waits for the block that is handed over. -/
def inMixin (env : EnvId) (block : Option (ContentBlock Statement)) (action : Run α) : Run α :=
  enclosed
    (fun before =>
      { before with
        env := env
        frames := [.fresh false]
        contents := ⟨block, before.env, before.frames⟩ :: before.contents })
    (fun before after =>
      { after with
        env := before.env
        frames := (after.contents.head?.map ContentFrame.frames).getD []
        contents := after.contents.tail })
    action

/-- Run a block that was handed over: in the includer's module and frames, and one fresh frame more,
while the mixin's state waits. -/
def inContent (content : ContentFrame) (action : Run α) : Run α :=
  enclosed
    (fun before =>
      { before with
        env := content.env
        frames := .fresh false :: content.frames
        contents := before.contents.tail })
    (fun before after =>
      { after with
        env := before.env
        frames := before.frames
        contents := { content with frames := after.frames.tail } :: after.contents })
    action

/-- Run the statements of a module: in its own environment and file, outside of everything. -/
def inModule (env : EnvId) (path : String) (action : Run α) : Run α :=
  enclosed
    (fun before =>
      { before with
        env := env
        frames := []
        file := path
        selector := none
        media := none
        loading := path :: before.loading })
    (fun before after =>
      { after with
        env := before.env
        frames := before.frames
        file := before.file
        selector := before.selector
        media := before.media
        loading := after.loading.tail })
    action

/-- Run the statements of a file in place. -/
def inFile (path : String) (action : Run α) : Run α :=
  enclosed (fun before => { before with file := path, loading := path :: before.loading })
    (fun before after => { after with file := before.file, loading := after.loading.tail }) action

end Run

end Scss
