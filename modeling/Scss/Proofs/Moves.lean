import Mathlib.Tactic
import Scss.Eval

/-! What a run can do to the machine, step by step. `Change` lists the changes that are made in one
go, and `Place` the places that a part of a run has for itself, with what has to hold at the entrance
and what is left at the exit. A run moves by these alone, and meets the states between them; so an
invariant is a statement about one change, one entrance and one exit.

What may happen depends on the realm: the value of an expression changes nothing but what the
functions it calls change, a function sets variables, and only style statements define, include and
load. -/
namespace Scss

/-- What is running. -/
inductive Realm where
  /-- The value of an expression. -/
  | value
  /-- The body of a function. -/
  | function
  /-- The statements of a style block. -/
  | style
deriving DecidableEq

def Mode.realm : Mode → Realm
  | .style _ => .style
  | .function => .function

def Job.realm {α : Type} : Job α → Realm
  | .evaluate _ _ => .value
  | .calculate _ => .value
  | .call _ _ _ => .value
  | .declare _ _ => .style
  | .block mode _ => mode.realm
  | .repeat mode _ _ => mode.realm

/-- What runs for a call: the parameters of the function are defined, and then its statements run.
-/
def Eval.runFunction (self : Perform) (function : Callable) (args : CallArgs) : Run Yield := do
  bind self function.params args function.name
  self (.block .function function.body)

/-- What runs for `@include`: the parameters of the mixin are defined, and then its statements run.
-/
def Eval.runMixin (self : Perform) (mixin : Callable) (values : CallArgs) (level : Nat) :
    Run Yield := do
  bind self mixin.params values mixin.name
  self (.block (.style level) mixin.body)

/-- What runs for `@content`: the parameters of the block are defined, and then its statements run.
-/
def Eval.runBlock (self : Perform) (block : ContentBlock Statement) (values : CallArgs)
    (level : Nat) : Run Yield := do
  bind self block.params values "@content"
  self (.block (.style level) block.body)

namespace Machine

/-- A run of a block's statements that starts in one state and ends in another. -/
def RunsBlock (setup : Setup) (block : ContentBlock Statement) (start after : Machine) : Prop :=
  ∃ depth values level,
    after = (Eval.runBlock (Eval.perform setup depth) block values level start).2

def IsLoaded (machine : Machine) (id : EnvId) : Prop :=
  ∃ path, machine.modules.get? path = some id

/-- A module that can be used or forwarded. -/
def Offers (machine : Machine) : ModuleRef → Prop
  | .builtin _ => True
  | .user id => machine.IsLoaded id

def enterMixin (machine : Machine) (env : EnvId) (block : Option (ContentBlock Statement)) :
    Machine :=
  { machine with
    env := env
    frames := [.fresh false]
    contents := ⟨block, machine.env, machine.frames⟩ :: machine.contents }

def leaveMixin (machine after : Machine) : Machine :=
  { after with
    env := machine.env
    frames := (after.contents.head?.map ContentFrame.frames).getD []
    contents := after.contents.tail }

/-- The state in which a block starts that was handed over, with other blocks waiting outside of it.
-/
def enterContent (machine : Machine) (content : ContentFrame) (outer : List ContentFrame) :
    Machine :=
  { machine with
    env := content.env
    frames := .fresh false :: content.frames
    contents := outer }

def leaveContent (machine : Machine) (content : ContentFrame) (after : Machine) : Machine :=
  { after with
    env := machine.env
    frames := machine.frames
    contents := { content with frames := after.frames.tail } :: after.contents }

def enterModule (machine : Machine) (path : String) (configured : Bindings Value) : Machine :=
  { machine with
    environments := machine.environments.push { Environment.empty with vars := configured }
    env := machine.environments.size
    frames := []
    file := path
    selector := none
    media := none
    loading := path :: machine.loading }

def leaveModule (machine after : Machine) : Machine :=
  { after with
    env := machine.env
    frames := machine.frames
    file := machine.file
    selector := machine.selector
    media := machine.media
    loading := after.loading.tail }

def learn (machine : Machine) (path : String) (id : EnvId) : Machine :=
  { machine with modules := machine.modules.set path id }

/-- The state in which the running module uses another under a name, or without one for the name
`*`. -/
def useAs (machine : Machine) (name : String) (module_ : ModuleRef) : Machine :=
  machine.modifyEnvironment machine.env fun environment =>
    if name = "*" then { environment with stars := environment.stars ++ [module_] }
    else { environment with namespaces := environment.namespaces.set name module_ }

def passOn (machine : Machine) (forward : Forward) : Machine :=
  machine.modifyEnvironment machine.env fun environment =>
    { environment with forwards := environment.forwards ++ [forward] }

/-- The changes that are made in one go. -/
inductive Change : Realm → Machine → Machine → Prop where
  | log (realm : Realm) (machine : Machine) (entry : LogEntry) :
      Change realm machine { machine with log := machine.log ++ [entry] }
  | draw (realm : Realm) (machine : Machine) : Change realm machine machine.countDraw
  | define (mode : Mode) (machine : Machine) (name : String) (value : Value) :
      Change mode.realm machine (machine.define name value)
  | assign (mode : Mode) (machine : Machine) (name : String) (value : Value) (global : Bool) :
      Change mode.realm machine (machine.assign name value global)
  | assignQualified (mode : Mode) {machine after : Machine} {qualifier name : String} {value : Value}
      (assigned : machine.assignQualified qualifier name value = .ok after) :
      Change mode.realm machine after
  | note (machine : Machine) (mapping : PendingMapping) :
      Change .style machine { machine with pending := machine.pending ++ [mapping] }
  | hoist (machine : Machine) (css : String) :
      Change .style machine { machine with hoisted := machine.hoisted ++ [css] }
  | defineFunction (machine : Machine) (name : String) (params : Parameters)
      (body : List Statement) : Change .style machine (machine.defineFunction name params body)
  | defineMixin (machine : Machine) (name : String) (params : Parameters)
      (body : List Statement) : Change .style machine (machine.defineMixin name params body)
  | use {machine : Machine} {module_ : ModuleRef} (offered : machine.Offers module_)
      (name : String) :
      Change .style machine (machine.useAs name module_)
  | forward {machine : Machine} {forward : Forward} (offered : machine.Offers forward.module_) :
      Change .style machine (machine.passOn forward)

/-- The places that a part of a run has for itself: the realm and the state outside, the realm and
the state that the part starts in, and how the state that it ends in leads to the one outside. -/
inductive Place (setup : Setup) :
    Realm → Machine → Realm → Machine → (Machine → Machine → Prop) → Prop where
  | frame (mode : Mode) (machine : Machine) (semiGlobal : Bool) :
      Place setup mode.realm machine mode.realm
        { machine with frames := .fresh semiGlobal :: machine.frames }
        fun after next => next = { after with frames := after.frames.tail }
  | selector (machine : Machine) (selector : Option String) :
      Place setup .style machine .style { machine with selector := selector }
        fun after next => next = { after with selector := machine.selector }
  | media (machine : Machine) (query : String) :
      Place setup .style machine .style { machine with media := some query }
        fun after next => next = { after with media := machine.media }
  | function (realm : Realm) {machine : Machine} {qualifier : Option String} {name : String}
      {function : Callable}
      (found : machine.function? setup.registry qualifier name = .ok (some (.user function))) :
      Place setup realm machine .function
        { machine with env := function.env, frames := [.fresh false] }
        fun after next => next = { after with env := machine.env, frames := machine.frames }
  | mixin {machine : Machine} {qualifier : Option String} {name : String} {mixin : Callable}
      (found : machine.mixin? qualifier name = .ok (some mixin))
      (block : Option (ContentBlock Statement)) :
      Place setup .style machine .style (machine.enterMixin mixin.env block)
        fun after next => next = machine.leaveMixin after
  | content {machine : Machine} {content : ContentFrame} {outer : List ContentFrame}
      {block : ContentBlock Statement} (handed : machine.contents = content :: outer)
      (given : content.block = some block) :
      Place setup .style machine .style (machine.enterContent content outer)
        fun after next =>
          RunsBlock setup block (machine.enterContent content outer) after ∧
          next = machine.leaveContent content after
  | module {machine : Machine} {url : String} {sheet : LoadedFile}
      (found : Eval.findSheet setup.loader machine.file url = .ok sheet)
      (unknown : machine.modules.get? sheet.path = none)
      (unopened : sheet.path ∉ machine.loading) (configured : Bindings Value) (complete : Bool) :
      Place setup .style machine .style
        (machine.enterModule sheet.path configured)
        fun after next => next =
          if complete then (machine.leaveModule after).learn sheet.path machine.environments.size
          else machine.leaveModule after
  | file {machine : Machine} {url : String} {sheet : LoadedFile}
      (found : Eval.findSheet setup.loader machine.file url = .ok sheet)
      (unopened : sheet.path ∉ machine.loading) :
      Place setup .style machine .style
        { machine with file := sheet.path, loading := sheet.path :: machine.loading }
        fun after next => next = { after with file := machine.file, loading := after.loading.tail }

/-- A run in a realm leads from one state to another. -/
inductive Moves (setup : Setup) : Realm → Machine → Machine → Prop where
  | refl (realm : Realm) (machine : Machine) : Moves setup realm machine machine
  | trans {realm : Realm} {first second third : Machine} (head : Moves setup realm first second)
      (tail : Moves setup realm second third) : Moves setup realm first third
  | change {realm : Realm} {machine next : Machine} (change : Change realm machine next) :
      Moves setup realm machine next
  | place {realm inner : Realm} {machine start after next : Machine}
      {exit : Machine → Machine → Prop} (place : Place setup realm machine inner start exit)
      (inside : Moves setup inner start after) (left : exit after next) :
      Moves setup realm machine next

/-- A run in a realm from one state is, at some time, in another realm and state: the start, a state
that it has moved to, or one inside a place that it has entered. -/
inductive Meets (setup : Setup) : Realm → Machine → Realm → Machine → Prop where
  | here (realm : Realm) (machine : Machine) : Meets setup realm machine realm machine
  | later {realm inner : Realm} {machine next state : Machine}
      (moves : Moves setup realm machine next) (rest : Meets setup realm next inner state) :
      Meets setup realm machine inner state
  | inside {realm middle inner : Realm} {machine start state : Machine}
      {exit : Machine → Machine → Prop} (place : Place setup realm machine middle start exit)
      (rest : Meets setup middle start inner state) : Meets setup realm machine inner state

theorem Meets.trans {setup : Setup} {realm middle inner : Realm} {first second third : Machine}
    (head : Meets setup realm first middle second) (tail : Meets setup middle second inner third) :
    Meets setup realm first inner third := by
  induction head with
  | here => exact tail
  | later moves _ ih => exact .later moves (ih tail)
  | inside place _ ih => exact .inside place (ih tail)

structure Invariant (setup : Setup) (inv : Realm → Machine → Prop) : Prop where
  change : ∀ {realm machine next}, Change realm machine next → inv realm machine → inv realm next
  enter : ∀ {realm machine inner start exit}, Place setup realm machine inner start exit →
    inv realm machine → inv inner start
  leave : ∀ {realm machine inner start exit after next},
    Place setup realm machine inner start exit → Moves setup inner start after → exit after next →
    inv realm machine → inv inner after → inv realm next

namespace Invariant

variable {setup : Setup} {inv : Realm → Machine → Prop} {realm inner : Realm}
  {machine state : Machine}

theorem moves (kept : Invariant setup inv) (moves : Moves setup realm machine state)
    (holds : inv realm machine) : inv realm state := by
  induction moves with
  | refl => exact holds
  | trans _ _ first second => exact second (first holds)
  | change change => exact kept.change change holds
  | place place inside left ih => exact kept.leave place inside left holds (ih (kept.enter place holds))

/-- An invariant holds wherever a run is at any time. -/
theorem meets (kept : Invariant setup inv) (met : Meets setup realm machine inner state)
    (holds : inv realm machine) : inv inner state := by
  induction met with
  | here => exact holds
  | later moves _ ih => exact ih (kept.moves moves holds)
  | inside place _ ih => exact ih (kept.enter place holds)

end Invariant

end Machine

end Scss
