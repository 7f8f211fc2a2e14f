import Scss.Proofs.Moves.Jobs

/-! How the machine evolves. `Machine.Reaches` lists, once, what a computation can do to the
machine: note something for the output, change an environment or a variable, learn a module, and run
a part in a place of its own. Every job evolves the machine by these moves only, whether it succeeds
or fails, so an invariant of the machine is a statement about each move. -/
namespace Scss

namespace Machine

/-- The moves by which one state of the machine becomes another. A part that runs in a place of its
own starts in the state made for it and ends in a state it reaches from there. -/
inductive Reaches : Machine → Machine → Prop where
  | refl (machine : Machine) : Reaches machine machine
  | trans {first second third : Machine} (head : Reaches first second)
      (tail : Reaches second third) : Reaches first third
  | log (machine : Machine) (entry : LogEntry) :
      Reaches machine { machine with log := machine.log ++ [entry] }
  | draw (machine : Machine) : Reaches machine machine.countDraw
  | note (machine : Machine) (mapping : PendingMapping) :
      Reaches machine { machine with pending := machine.pending ++ [mapping] }
  | hoist (machine : Machine) (css : String) :
      Reaches machine { machine with hoisted := machine.hoisted ++ [css] }
  | define (machine : Machine) (name : String) (value : Value) :
      Reaches machine (machine.define name value)
  | assign (machine : Machine) (name : String) (value : Value) (global : Bool) :
      Reaches machine (machine.assign name value global)
  | change (machine : Machine) (id : EnvId) (f : Environment → Environment) :
      Reaches machine (machine.modifyEnvironment id f)
  | extend (machine : Machine) (environment : Environment) :
      Reaches machine (machine.addEnvironment environment).2
  | learn (machine : Machine) (path : String) (id : EnvId) :
      Reaches machine { machine with modules := machine.modules.set path id }
  | frame {machine after : Machine} (semiGlobal : Bool)
      (inside : Reaches { machine with frames := .fresh semiGlobal :: machine.frames } after) :
      Reaches machine { after with frames := after.frames.tail }
  | selector {machine after : Machine} (selector : Option String)
      (inside : Reaches { machine with selector := selector } after) :
      Reaches machine { after with selector := machine.selector }
  | media {machine after : Machine} (query : String)
      (inside : Reaches { machine with media := some query } after) :
      Reaches machine { after with media := machine.media }
  | function {machine after : Machine} (env : EnvId)
      (inside : Reaches { machine with env := env, frames := [.fresh false] } after) :
      Reaches machine { after with env := machine.env, frames := machine.frames }
  | mixin {machine after : Machine} (env : EnvId) (block : Option (ContentBlock Statement))
      (inside : Reaches
        { machine with
          env := env
          frames := [.fresh false]
          contents := ⟨block, machine.env, machine.frames⟩ :: machine.contents } after) :
      Reaches machine
        { after with
          env := machine.env
          frames := (after.contents.head?.map ContentFrame.frames).getD []
          contents := after.contents.tail }
  | content {machine after : Machine} {content : ContentFrame} {outer : List ContentFrame}
      (handed : machine.contents = content :: outer)
      (inside : Reaches
        { machine with
          env := content.env
          frames := .fresh false :: content.frames
          contents := outer } after) :
      Reaches machine
        { after with
          env := machine.env
          frames := machine.frames
          contents := { content with frames := after.frames.tail } :: after.contents }
  | module {machine after : Machine} (env : EnvId) (path : String)
      (inside : Reaches
        { machine with
          env := env
          frames := []
          file := path
          selector := none
          media := none
          loading := path :: machine.loading } after) :
      Reaches machine
        { after with
          env := machine.env
          frames := machine.frames
          file := machine.file
          selector := machine.selector
          media := machine.media
          loading := after.loading.tail }
  | file {machine after : Machine} (path : String)
      (inside : Reaches { machine with file := path, loading := path :: machine.loading } after) :
      Reaches machine { after with file := machine.file, loading := after.loading.tail }

theorem Change.reaches {realm : Realm} {machine next : Machine} (change : Change realm machine next) :
    Reaches machine next := by
  cases change with
  | log => exact .log machine _
  | draw => exact .draw machine
  | note => exact .note machine _
  | hoist => exact .hoist machine _
  | define => exact .define machine _ _
  | assign => exact .assign machine _ _ _
  | defineFunction | defineMixin | use | forward => exact .change machine _ _
  | assignQualified mode assigned =>
    obtain ⟨id, -, rfl⟩ := assignQualified_cases assigned
    exact .change machine id _

/-- What the moves of a run do, whatever the realm and whatever is known at an entrance. -/
theorem Moves.reaches {setup : Setup} {realm : Realm} {machine after : Machine}
    (moves : Moves setup realm machine after) : Reaches machine after := by
  induction moves with
  | refl realm machine => exact .refl machine
  | trans _ _ first second => exact first.trans second
  | change change => exact change.reaches
  | @place realm inner machine start after next exit place inside left ih =>
    cases place with
    | frame mode _ semiGlobal => exact left ▸ .frame semiGlobal ih
    | selector _ selector => exact left ▸ .selector selector ih
    | media _ query => exact left ▸ .media query ih
    | function realm found => exact left ▸ .function _ ih
    | mixin found block => exact left ▸ .mixin _ block ih
    | content handed given => exact left.2 ▸ .content handed ih
    | file found unopened => exact left ▸ .file _ ih
    | @module _ url sheet found unknown unopened configured complete =>
      have made : Reaches machine
          (machine.addEnvironment { Environment.empty with vars := configured }).2 :=
        .extend machine _
      have loaded := made.trans (.module machine.environments.size sheet.path ih)
      subst left
      split
      · exact loaded.trans (.learn _ sheet.path machine.environments.size)
      · exact loaded

end Machine

/-- An action evolves the machine by its moves alone. -/
def Run.Evolves {α : Type} (action : Run α) : Prop :=
  ∀ start, Run.Keeps (Machine.Reaches start) (fun _ => True) action

theorem Run.Evolves.reaches {α : Type} {action : Run α} (evolves : Evolves action)
    (before : Machine) : Machine.Reaches before (action before).2 :=
  (evolves before before (.refl before)).1

def Perform.Evolves (self : Perform) : Prop := ∀ {α : Type} (job : Job α), Run.Evolves (self job)

/-- Every job evolves the machine by its moves, whether it succeeds or fails. -/
theorem Eval.perform_evolves (setup : Setup) (depth : Nat) :
    Perform.Evolves (perform setup depth) := by
  intro α job start before reached
  exact ⟨reached.trans (perform_moves setup depth job before).reaches, fun _ _ => trivial⟩

end Scss
