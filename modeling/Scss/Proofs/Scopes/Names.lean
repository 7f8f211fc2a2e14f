import Mathlib.Tactic
import Scss.Machine.Scope

/-! The names of variables. A value that is assigned takes the place of one of its name, wherever one is
in reach; so inside a block an assignment names a variable in the innermost frame or none, unless it is
one to the module itself. -/
namespace Scss

theorem Bindings.names_set_of_contains {α : Type} {bindings : Bindings α} {name : String}
    (held : bindings.contains name = true) (value : α) :
    (bindings.set name value).names = bindings.names := by
  induction bindings with
  | nil => cases held
  | cons entry rest ih =>
    obtain ⟨key, own⟩ := entry
    unfold set
    by_cases same : key = name
    · simp [same, names]
    · have differs : (name == key) = false := by simpa using fun h => same h.symm
      have behind : contains rest name = true := by
        simpa [contains, get?, List.lookup_cons, differs] using held
      rw [if_neg same]
      exact congrArg (key :: ·) (ih behind)

theorem Bindings.mem_names_set {α : Type} (bindings : Bindings α) (name other : String) (value : α) :
    other ∈ (bindings.set name value).names ↔ other ∈ bindings.names ∨ other = name := by
  induction bindings with
  | nil => simp [set, names]
  | cons entry rest ih =>
    unfold set
    split
    · rename_i same
      simp only [names, List.map_cons, List.mem_cons, same]
      tauto
    · simp only [names, List.map_cons, List.mem_cons] at ih ⊢
      tauto

def Statement.setsGlobal : Statement → Prop
  | assign none _ _ _ true _ => True
  | _ => False

def Frame.names (frame : Frame) : List String := frame.vars.names

namespace Machine

def namesOf (machine : Machine) (id : EnvId) : List String := (machine.environment id).vars.names

/-- Where a module runs, it runs inside a block. -/
def Enclosed (machine : Machine) (id : EnvId) : Prop := machine.env = id → machine.frames ≠ []

def KeepsNames (machine next : Machine) : Prop :=
  ∀ id, machine.Enclosed id → next.namesOf id = machine.namesOf id

variable {machine : Machine} {name : String}

theorem namesOf_modify_of_ne (machine : Machine) (f : Environment → Environment) {id other : EnvId}
    (apart : other ≠ id) : (machine.modifyEnvironment id f).namesOf other = machine.namesOf other := by
  simp only [namesOf, environment, modifyEnvironment, Array.getElem?_modify, if_neg (Ne.symm apart)]

theorem namesOf_modify (machine : Machine) (id : EnvId) {f : Environment → Environment}
    (kept : ∀ environment, (f environment).vars = environment.vars) (other : EnvId) :
    (machine.modifyEnvironment id f).namesOf other = machine.namesOf other := by
  simp only [namesOf, environment, modifyEnvironment, Array.getElem?_modify]
  split
  · cases machine.environments[other]? with
    | none => rfl
    | some environment => exact congrArg Bindings.names (kept environment)
  · rfl

/-- A variable that is set anew keeps the names of its module. -/
theorem namesOf_set {id : EnvId} (held : (machine.environment id).vars.contains name = true)
    (value : Value) (other : EnvId) :
    (machine.modifyEnvironment id fun environment =>
      { environment with vars := environment.vars.set name value }).namesOf other =
      machine.namesOf other := by
  by_cases same : other = id
  · subst same
    simp only [environment] at held
    simp only [namesOf, environment, modifyEnvironment, Array.getElem?_modify, if_pos]
    cases found : machine.environments[other]? with
    | none => rfl
    | some environment =>
      rw [found] at held
      exact Bindings.names_set_of_contains held value
  · exact namesOf_modify_of_ne machine _ same

theorem mem_namesOf_setGlobal {key : String} {value : Value} {id : EnvId}
    (named : name ∈ (machine.setGlobal key value).namesOf id) :
    name ∈ machine.namesOf id ∨ machine.env = id ∧ name = key := by
  by_cases running : id = machine.env
  · subst running
    simp only [namesOf, setGlobal, environment, modifyEnvironment, Array.getElem?_modify, if_pos]
      at named ⊢
    cases found : machine.environments[machine.env]? with
    | none =>
      rw [found] at named
      cases named
    | some environment =>
      rw [found] at named
      exact ((Bindings.mem_names_set environment.vars key name value).mp named).imp_right
        fun same => ⟨trivial, same⟩
  · rw [setGlobal, namesOf_modify_of_ne machine _ running] at named
    exact .inl named

theorem keepsNames_define (machine : Machine) (name : String) (value : Value) :
    machine.KeepsNames (machine.define name value) := by
  intro id enclosed
  unfold define
  dsimp only
  split
  · rfl
  · rename_i outside
    exact namesOf_modify_of_ne machine _ fun same => enclosed same.symm outside

theorem keepsNames_assign (machine : Machine) (name : String) (value : Value) :
    machine.KeepsNames (machine.assign name value false) := by
  intro id enclosed
  unfold assign
  dsimp only
  split
  · rename_i outside
    have bare : machine.frames = [] := by simpa using outside
    exact namesOf_modify_of_ne machine _ fun same => enclosed same.symm bare
  · split
    · rfl
    · split
      · rename_i held
        exact namesOf_set (Bool.and_eq_true_iff.mp held).2 value id
      · exact keepsNames_define machine _ value id enclosed

/-- An assignment by the name of a module names nothing. -/
theorem namesOf_assignQualified {qualifier : String} {value : Value} {after : Machine}
    (assigned : machine.assignQualified qualifier name value = .ok after) (id : EnvId) :
    after.namesOf id = machine.namesOf id := by
  unfold assignQualified at assigned
  cases found : machine.module? qualifier with
  | error cause => simp [found, bind, Except.bind] at assigned
  | ok target =>
    cases target with
    | builtin library => simp [found, bind, Except.bind] at assigned
    | user target =>
      simp only [found, bind, Except.bind] at assigned
      split at assigned
      · rename_i held
        cases assigned
        exact namesOf_set held value id
      · cases assigned

theorem map_names_setInFrames {value : Value} {frames changed : List Frame}
    (found : setInFrames? name value frames = some changed) :
    changed.map Frame.names = frames.map Frame.names := by
  induction frames generalizing changed with
  | nil => cases found
  | cons frame rest ih =>
    unfold setInFrames? at found
    split at found
    · rename_i held
      obtain rfl := Option.some.inj found
      exact congrArg (· :: rest.map Frame.names) (Bindings.names_set_of_contains held value)
    · obtain ⟨inner, search, rfl⟩ := Option.map_eq_some_iff.mp found
      exact congrArg (frame.names :: ·) (ih search)

theorem map_names_define (machine : Machine) (name : String) (value : Value) :
    (machine.define name value).frames.tail.map Frame.names =
      machine.frames.tail.map Frame.names := by
  unfold define
  dsimp only
  split <;> simp_all [setGlobal, modifyEnvironment]

/-- An assignment names a variable in the innermost frame only. -/
theorem map_names_assign (machine : Machine) (name : String) (value : Value) (global : Bool) :
    (machine.assign name value global).frames.tail.map Frame.names =
      machine.frames.tail.map Frame.names := by
  unfold assign
  dsimp only
  split
  · rfl
  · split
    · rename_i changed found
      rw [List.map_tail, List.map_tail, map_names_setInFrames found]
    · split
      · rfl
      · exact map_names_define machine _ value

end Machine

end Scss
