import Scss.Compiler
import Scss.Proofs.Modules.Links

/-! Variables of a module by the name of the module. A read goes on along the forwards of the module; a
write sets only what the module defines itself. So a write that succeeds is read back, and it succeeds
wherever a read does, unless what is read comes through a forward. -/
namespace Scss

namespace Bindings

variable {α : Type}

theorem contains_iff {bindings : Bindings α} {name : String} :
    bindings.contains name = true ↔ ∃ value, bindings.get? name = some value :=
  Option.isSome_iff_exists

end Bindings

namespace Machine

/-- A module has a variable, by itself or by one that it forwards. -/
inductive Shows (machine : Machine) (registry : Registry) : ModuleRef → String → Value → Prop where
  | library {module_ name : String} {value : Value}
      (constant : (registry.constants module_).lookup name = some value) :
      Shows machine registry (.builtin module_) name value
  | own {id : EnvId} {name : String} {value : Value}
      (variable_ : (machine.environment id).vars.get? name = some value) :
      Shows machine registry (.user id) name value
  | forwarded {id : EnvId} {forward : Forward} {name inner : String} {value : Value}
      (listed : forward ∈ (machine.environment id).forwards)
      (exposed : forward.expose? name "$" = some inner)
      (shows_ : Shows machine registry forward.module_ inner value) :
      Shows machine registry (.user id) name value

section Reading

variable {machine : Machine} {registry : Registry} {qualifier name : String} {id : EnvId} {value : Value}

theorem shows_of_member? {depth : Nat} {module_ : ModuleRef}
    (found : machine.member? "$" (fun library name => (registry.constants library).lookup name)
      (fun environment name => environment.vars.get? name) depth module_ name = some value) :
    machine.Shows registry module_ name value := by
  induction depth generalizing module_ name with
  | zero => cases found
  | succ depth ih =>
    cases module_ with
    | builtin library => exact .library found
    | user id =>
      unfold member? at found
      dsimp only at found
      split at found
      · rename_i own
        exact .own (own.trans found)
      · obtain ⟨forward, listed, further⟩ := List.exists_of_findSome?_eq_some found
        split at further
        · rename_i inner exposed
          exact .forwarded listed exposed (ih further)
        · cases further

/-- What the module of a name defines itself is what the name reads. -/
theorem qualifiedVariable_own (bound : machine.module? qualifier = .ok (.user id))
    (own : (machine.environment id).vars.get? (normalizeName name) = some value) :
    machine.qualifiedVariable registry qualifier name = .ok value := by
  have found : machine.moduleVariable? registry (.user id) (normalizeName name) = some value := by
    unfold moduleVariable? forwardDepth member?
    simp only [own]
  unfold qualifiedVariable
  rw [bound]
  simp only [bind, Except.bind, found]

/-- What a name reads is a variable that its module shows. -/
theorem shows_of_qualifiedVariable (bound : machine.module? qualifier = .ok (.user id))
    (read : machine.qualifiedVariable registry qualifier name = .ok value) :
    machine.Shows registry (.user id) (normalizeName name) value := by
  unfold qualifiedVariable at read
  rw [bound] at read
  simp only [bind, Except.bind] at read
  split at read
  · rename_i found
    cases read
    exact shows_of_member? found
  · cases read

end Reading

section Writing

variable {machine : Machine} {qualifier name : String} {id : EnvId}

def setIn (machine : Machine) (id : EnvId) (name : String) (value : Value) : Machine :=
  machine.modifyEnvironment id fun environment =>
    { environment with vars := environment.vars.set name value }

theorem assignQualified_own (bound : machine.module? qualifier = .ok (.user id))
    (own : (machine.environment id).vars.contains (normalizeName name) = true) (value : Value) :
    machine.assignQualified qualifier name value =
      .ok (machine.setIn id (normalizeName name) value) := by
  unfold assignQualified
  rw [bound]
  simp only [bind, Except.bind, own, if_true]
  rfl

/-- What the module of a name does not define itself cannot be set by the name. -/
theorem assignQualified_foreign (bound : machine.module? qualifier = .ok (.user id))
    (foreign : (machine.environment id).vars.contains (normalizeName name) = false) (value : Value) :
    machine.assignQualified qualifier name value =
      .error (.undefinedVariable s!"{qualifier}.${normalizeName name}") := by
  unfold assignQualified
  rw [bound]
  simp only [bind, Except.bind, foreign, Bool.false_eq_true, if_false]

theorem lt_size_of_contains (own : (machine.environment id).vars.contains name = true) :
    id < machine.environments.size := by
  by_contra beyond
  have absent : machine.environment id = .empty := by
    simp only [environment, Array.getElem?_eq_none (not_lt.mp beyond), Option.getD_none]
  rw [absent] at own
  cases own

theorem module?_setIn (id : EnvId) (name : String) (value : Value) :
    (machine.setIn id name value).module? qualifier = machine.module? qualifier := by
  have kept : (machine.setIn id name value).definitions = machine.definitions :=
    definitions_modifyEnvironment machine id _ fun _ => rfl
  exact module?_congr kept rfl qualifier

/-- A variable that is set is read. -/
theorem qualifiedVariable_setIn (registry : Registry) (bound : machine.module? qualifier = .ok (.user id))
    (own : (machine.environment id).vars.contains (normalizeName name) = true) (value : Value) :
    (machine.setIn id (normalizeName name) value).qualifiedVariable registry qualifier name =
      .ok value := by
  refine qualifiedVariable_own ((module?_setIn ..).trans bound) ?_
  rw [setIn, environment_modify_self _ (lt_size_of_contains own)]
  exact Bindings.get?_set_self ..

end Writing

end Machine

namespace Eval

/-- An assignment by the name of a module sets the variable behind the value, or leaves all as the value
has left it. -/
theorem assignment_qualified {setup : Setup} {self : Perform} {qualifier name : String} {expr : Expr}
    {default global : Bool} {before machine : Machine} {value : Value}
    (evaluated : self (.evaluate expr false) before = (.ok value, machine)) :
    assignment setup self (some qualifier) name expr default global before =
      match machine.assignQualified qualifier name value with
      | .ok after => (.ok ⟨⟩, after)
      | .error cause => (.error (.because cause), machine) := by
  unfold assignment
  dsimp only
  rw [Run.bind_apply, evaluated]
  dsimp only
  rw [Run.get_bind_apply]
  cases machine.assignQualified qualifier name value <;> rfl

/-- By the name of a module, what can be read can be set and is read then, if the module defines it; what
it has only by a forward can be read and not set. What cannot be read cannot be set, and an assignment
that fails changes nothing. -/
theorem qualified_variables_set {setup : Setup} {machine : Machine} {qualifier name : String} {id : EnvId}
    (bound : machine.module? qualifier = .ok (.user id)) :
    (∀ old, machine.qualifiedVariable setup.registry qualifier name = .ok old →
      (∀ value, machine.assignQualified qualifier name value =
            .ok (machine.setIn id (normalizeName name) value) ∧
          (machine.setIn id (normalizeName name) value).qualifiedVariable setup.registry qualifier name =
            .ok value) ∨
        (∀ value, ∃ variable_, machine.assignQualified qualifier name value =
            .error (.undefinedVariable variable_)) ∧
          (machine.environment id).vars.contains (normalizeName name) = false ∧
          ∃ forward ∈ (machine.environment id).forwards, ∃ inner,
            forward.expose? (normalizeName name) "$" = some inner ∧
              machine.Shows setup.registry forward.module_ inner old) ∧
    (∀ cause, machine.qualifiedVariable setup.registry qualifier name = .error cause →
      ∀ value, ∃ variable_, machine.assignQualified qualifier name value =
        .error (.undefinedVariable variable_)) ∧
    ∀ (self : Perform) (expr : Expr) (default global : Bool) (before : Machine) (value : Value)
      (cause : Cause), self (.evaluate expr false) before = (.ok value, machine) →
      machine.assignQualified qualifier name value = .error cause →
      assignment setup self (some qualifier) name expr default global before =
        (.error (.because cause), machine) := by
  cases own : (machine.environment id).vars.contains (normalizeName name) with
  | true =>
    obtain ⟨current, defined⟩ := Bindings.contains_iff.mp own
    have read : machine.qualifiedVariable setup.registry qualifier name = .ok current :=
      Machine.qualifiedVariable_own bound defined
    refine ⟨fun old _ => .inl fun value => ⟨Machine.assignQualified_own bound own value,
      Machine.qualifiedVariable_setIn setup.registry bound own value⟩, fun cause unread => ?_, ?_⟩
    · cases read.symm.trans unread
    · intro self expr default global before value cause evaluated refused
      rw [assignment_qualified evaluated, refused]
  | false =>
    have refuses (value : Value) := Machine.assignQualified_foreign bound own value
    refine ⟨fun old read => .inr ⟨fun value => ⟨_, refuses value⟩, rfl, ?_⟩,
      fun cause _ value => ⟨_, refuses value⟩, ?_⟩
    · have shows_ := Machine.shows_of_qualifiedVariable bound read
      cases shows_ with
      | own defined =>
        rw [Bindings.contains_iff.mpr ⟨_, defined⟩] at own
        cases own
      | forwarded listed exposed shows_ => exact ⟨_, listed, _, exposed, shows_⟩
    · intro self expr default global before value cause evaluated refused
      rw [assignment_qualified evaluated, refused]

/-- A module has a variable of its own, and another one by a forward that hides a third. -/
theorem qualified_variables_set_library :
    let setup := (Compiler.create {} (Loader.memory [])).setup
    let library : Environment :=
      { Environment.empty with
        vars := [("a-b", .null)], forwards := [⟨.user 2, some "in_", some (.allBut ["$in-z"])⟩] }
    let inner : Environment := { Environment.empty with vars := [("y", .bool true), ("z", .null)] }
    let machine := { Machine.start "main.scss" with
      environments := #[{ Environment.empty with namespaces := [("lib", .user 1)] }, library, inner] }
    machine.module? "lib" = .ok (.user 1) ∧
      (machine.setIn 1 "a-b" (.bool true)).qualifiedVariable setup.registry "lib" "a_b" =
        .ok (.bool true) ∧
      machine.qualifiedVariable setup.registry "lib" "in-y" = .ok (.bool true) ∧
      ∃ variable_, machine.assignQualified "lib" "in-z" .null =
        .error (.undefinedVariable variable_) := by
  intro setup library inner machine
  have bound : machine.module? "lib" = .ok (.user 1) := rfl
  have read : machine.qualifiedVariable setup.registry "lib" "a_b" = .ok .null := by rfl
  refine ⟨bound, ?_, by rfl, ?_⟩
  · rcases (@qualified_variables_set setup _ _ _ _ bound).1 _ read with sets | ⟨-, foreign, -⟩
    · exact (sets (.bool true)).2
    · cases foreign
  · exact (@qualified_variables_set setup _ _ _ _ bound).2.1
      (.undefinedVariable "lib.$in-z") (by rfl) .null

/-- A variable that a module has by a forward is read by the name of the module and cannot be set. -/
theorem forwarded_variable_not_set :
    let compiler := Compiler.create {} (Loader.memory
      [("lib.scss", "@forward \"inner\";\n"), ("inner.scss", "$x: auto;\n")])
    let machine := { Machine.start "main.scss" with
      environments := #[{ Environment.empty with namespaces := [("lib", .user 1)] },
        { Environment.empty with forwards := [⟨.user 2, none, none⟩] },
        { Environment.empty with vars := [("x", .bool true)] }] }
    machine.qualifiedVariable compiler.setup.registry "lib" "x" = .ok (.bool true) ∧
      machine.assignQualified "lib" "x" (.bool false) = .error (.undefinedVariable "lib.$x") ∧
      (compiler.compile
          ⟨"input.scss", "@use \"lib\";\nlib.$x: none;\n.a \x7b v: lib.$x; \x7d\n"⟩ .scss).result.isOk =
        false ∧
      (compiler.compile
          ⟨"input.scss", "@use \"lib\";\n.a \x7b v: lib.$x; \x7d\n"⟩ .scss).result =
        .ok ".a \x7b\n  v: auto;\n\x7d\n" := by
  intro compiler machine
  exact ⟨by rfl, by rfl, by decide +kernel, by decide +kernel⟩

end Eval

end Scss
