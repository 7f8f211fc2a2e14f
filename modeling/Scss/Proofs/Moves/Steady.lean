import Scss.Proofs.Lookup
import Scss.Proofs.Moves

/-! Values and functions leave the machine steady: whatever they do, they set variables, write to the
log and draw numbers. The value of an expression does not even touch the frames, and what it does it may do in
every realm. -/
namespace Scss.Machine

variable {setup : Setup} {realm : Realm} {machine after : Machine}

/-- Nothing but variables, the log and the count of draws has changed. -/
structure Steady (machine after : Machine) : Prop where
  definitions : after.definitions = machine.definitions
  rest : after = { machine with
    environments := after.environments
    frames := after.frames
    log := after.log
    drawn := after.drawn }

namespace Steady

theorem refl (machine : Machine) : Steady machine machine := ⟨rfl, rfl⟩

theorem trans {first second third : Machine} (head : Steady first second)
    (tail : Steady second third) : Steady first third := by
  refine ⟨tail.definitions.trans head.definitions, ?_⟩
  rw [tail.rest, head.rest]

theorem env (steady : Steady machine after) : after.env = machine.env := by
  rw [steady.rest]

theorem contents (steady : Steady machine after) : after.contents = machine.contents := by
  rw [steady.rest]

theorem pending (steady : Steady machine after) : after.pending = machine.pending := by
  rw [steady.rest]

theorem size (steady : Steady machine after) :
    after.environments.size = machine.environments.size := by
  rw [← size_definitions, ← size_definitions, steady.definitions]

theorem outside (steady : Steady machine after) :
    after = { machine with
      environments := after.environments
      frames := after.frames
      hoisted := after.hoisted
      pending := after.pending
      log := after.log
      drawn := after.drawn } := by
  rw [steady.rest]

end Steady

/-- Setting a variable of a module. -/
theorem steady_setVariable (machine : Machine) (id : EnvId) (name : String) (value : Value) :
    Steady machine (machine.modifyEnvironment id fun environment =>
      { environment with vars := environment.vars.set name value }) :=
  ⟨definitions_modifyEnvironment machine id _ fun _ => rfl, rfl⟩

theorem steady_define (machine : Machine) (name : String) (value : Value) :
    Steady machine (machine.define name value) := by
  unfold define
  dsimp only
  split
  · exact ⟨rfl, rfl⟩
  · exact steady_setVariable machine _ _ value

theorem steady_assign (machine : Machine) (name : String) (value : Value) (global : Bool) :
    Steady machine (machine.assign name value global) := by
  unfold assign
  dsimp only
  split
  · exact steady_setVariable machine _ _ value
  · split
    · exact ⟨rfl, rfl⟩
    · split
      · exact steady_setVariable machine _ _ value
      · exact steady_define machine _ value

/-- An assignment to the variable of a module by the name of the module. -/
theorem assignQualified_cases {qualifier name : String} {value : Value}
    (assigned : machine.assignQualified qualifier name value = .ok after) :
    ∃ id, machine.module? qualifier = .ok (.user id) ∧
      after = machine.modifyEnvironment id fun environment =>
        { environment with vars := environment.vars.set (normalizeName name) value } := by
  unfold assignQualified at assigned
  cases found : machine.module? qualifier with
  | error cause => simp [found, bind, Except.bind] at assigned
  | ok target =>
    cases target with
    | builtin library => simp [found, bind, Except.bind] at assigned
    | user id =>
      simp only [found, bind, Except.bind] at assigned
      split at assigned
      · cases assigned
        exact ⟨id, rfl, rfl⟩
      · cases assigned

theorem Change.steady (change : Change realm machine after) (plain : realm ≠ .style) :
    Steady machine after := by
  cases change with
  | log | draw => exact ⟨rfl, rfl⟩
  | define mode machine name value => exact steady_define machine name value
  | assign mode machine name value global => exact steady_assign machine name value global
  | assignQualified mode assigned =>
    obtain ⟨id, -, rfl⟩ := assignQualified_cases assigned
    exact steady_setVariable machine id _ _
  | note | hoist | defineFunction | defineMixin | use | forward => exact absurd rfl plain

/-- A change leaves everything else as it is. -/
theorem Change.rest (change : Change realm machine after) :
    after = { machine with
      environments := after.environments
      frames := after.frames
      hoisted := after.hoisted
      pending := after.pending
      log := after.log
      drawn := after.drawn } := by
  cases change with
  | define mode _ name value => exact (steady_define machine name value).outside
  | assign mode _ name value global => exact (steady_assign machine name value global).outside
  | assignQualified mode assigned =>
    obtain ⟨id, -, rfl⟩ := assignQualified_cases assigned
    rfl
  | log | draw | note | hoist | defineFunction | defineMixin | use | forward => rfl

namespace Change

variable (change : Change realm machine after)

include change

theorem env_eq : after.env = machine.env := by rw [change.rest]

theorem contents_eq : after.contents = machine.contents := by rw [change.rest]

theorem modules_eq : after.modules = machine.modules := by rw [change.rest]

theorem size_eq : after.environments.size = machine.environments.size := by
  cases change with
  | define => exact (steady_define machine _ _).size
  | assign => exact (steady_assign machine _ _ _).size
  | assignQualified mode assigned =>
    obtain ⟨id, -, rfl⟩ := assignQualified_cases assigned
    exact Array.size_modify
  | log | draw | note | hoist => rfl
  | defineFunction | defineMixin | use | forward => exact Array.size_modify

end Change

/-- Leaving a place defines nothing. -/
theorem Place.definitions_eq {inner : Realm} {start next : Machine} {exit : Machine → Machine → Prop}
    (place : Place setup realm machine inner start exit) (left : exit after next) :
    next.definitions = after.definitions := by
  cases place with
  | frame | selector | media | function | mixin | file =>
    subst left
    rfl
  | content =>
    obtain ⟨-, rfl⟩ := left
    rfl
  | module found unknown unopened configured complete =>
    subst left
    cases complete <;> rfl

/-- Environments are added, and none is removed. -/
theorem Moves.size_le (moves : Moves setup realm machine after) :
    machine.environments.size ≤ after.environments.size := by
  induction moves with
  | refl => exact le_refl _
  | trans _ _ first second => exact first.trans second
  | change change => exact change.size_eq.ge
  | @place realm inner machine start after next exit place inside left ih =>
    cases place with
    | frame | selector | media | function | mixin | file =>
      subst left
      exact ih
    | content =>
      obtain ⟨-, rfl⟩ := left
      exact ih
    | @module _ _ sheet _ _ _ configured complete =>
      have pushed : machine.environments.size ≤
          (machine.enterModule sheet.path configured).environments.size := by
        simp [enterModule]
      subst left
      cases complete <;> exact pushed.trans ih

/-- Values and functions set variables and write to the log. -/
theorem Moves.steady (moves : Moves setup realm machine after) (plain : realm ≠ .style) :
    Steady machine after := by
  induction moves with
  | refl realm machine => exact .refl machine
  | trans _ _ first second => exact (first plain).trans (second plain)
  | change change => exact change.steady plain
  | place place inside left ih =>
    cases place with
    | frame mode machine semiGlobal =>
      obtain ⟨definitions, rest⟩ := ih plain
      subst left
      refine ⟨definitions, ?_⟩
      rw [rest]
    | @function realm machine qualifier name function found =>
      obtain ⟨definitions, rest⟩ := ih (by decide)
      subst left
      refine ⟨definitions, ?_⟩
      rw [rest]
    | selector | media | mixin | content | module | file => exact absurd rfl plain

theorem Moves.frames_eq (moves : Moves setup .value machine after) :
    after.frames = machine.frames := by
  generalize same : Realm.value = realm at moves
  induction moves with
  | refl => rfl
  | trans _ _ first second => exact (second same).trans (first same)
  | change change =>
    cases change with
    | log | draw => rfl
    | define mode | assign mode | assignQualified mode => cases mode <;> cases same
    | note | hoist | defineFunction | defineMixin | use | forward => cases same
  | place place inside left ih =>
    cases place with
    | function => rw [left]
    | frame mode => cases mode <;> cases same
    | selector | media | mixin | content | module | file => cases same

/-- What the value of an expression does may be done in every realm. -/
theorem Moves.ofValue (moves : Moves setup .value machine after) (realm : Realm) :
    Moves setup realm machine after := by
  generalize same : Realm.value = inner at moves
  induction moves with
  | refl => exact .refl realm _
  | trans _ _ first second => exact (first same).trans (second same)
  | change change =>
    cases change with
    | log => exact .change (.log realm _ _)
    | draw => exact .change (.draw realm _)
    | define mode | assign mode | assignQualified mode => cases mode <;> cases same
    | note | hoist | defineFunction | defineMixin | use | forward => cases same
  | place place inside left ih =>
    cases place with
    | function realm found => exact .place (.function _ found) inside left
    | frame mode => cases mode <;> cases same
    | selector | media | mixin | content | module | file => cases same

end Scss.Machine
