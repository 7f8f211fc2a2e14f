import Mathlib.Tactic
import Scss.Machine.Scope

/-! What finding a name depends on. Functions and mixins are found by what modules define and use,
so the values of variables do not matter for them; variables are found by the environments and the
frames, so nothing else of the machine matters for them. -/
namespace Scss

def Environment.definitions (environment : Environment) : Environment :=
  { environment with vars := [] }

theorem Environment.definitions_eq_iff {first second : Environment} :
    first.definitions = second.definitions ↔
      first.mixins = second.mixins ∧ first.functions = second.functions ∧
      first.namespaces = second.namespaces ∧ first.stars = second.stars ∧
      first.forwards = second.forwards := by
  simp only [definitions, Environment.mk.injEq, true_and]

namespace Machine

variable {α : Type} {machine other : Machine}

def definitions (machine : Machine) : Array Environment :=
  machine.environments.map Environment.definitions

theorem definitions_environment (machine : Machine) (id : EnvId) :
    (machine.environment id).definitions = (machine.definitions[id]?).getD .empty := by
  simp only [environment, definitions, Array.getElem?_map]
  cases machine.environments[id]? <;> rfl

theorem size_definitions (machine : Machine) :
    machine.definitions.size = machine.environments.size := by
  simp [definitions]

/-- Setting variables of a module defines nothing. -/
theorem definitions_modifyEnvironment (machine : Machine) (id : EnvId) (f : Environment → Environment)
    (kept : ∀ environment, (f environment).definitions = environment.definitions) :
    (machine.modifyEnvironment id f).definitions = machine.definitions := by
  apply Array.ext_getElem?
  intro place
  simp only [definitions, modifyEnvironment, Array.getElem?_map, Array.getElem?_modify]
  split
  · cases machine.environments[place]? with
    | none => rfl
    | some environment => exact congrArg some (kept environment)
  · rfl

theorem member?_congr {sigil : String} {library : String → String → Option α}
    {own : Environment → String → Option α}
    (owns : ∀ id name, own (other.environment id) name = own (machine.environment id) name)
    (forwards : ∀ id, (other.environment id).forwards = (machine.environment id).forwards)
    (depth : Nat) (module_ : ModuleRef) (name : String) :
    other.member? sigil library own depth module_ name =
      machine.member? sigil library own depth module_ name := by
  induction depth generalizing module_ name with
  | zero => rfl
  | succ depth ih =>
    cases module_ with
    | builtin _ => rfl
    | user id => simp only [member?, owns, forwards, ih]

section Definitions

variable (same : other.definitions = machine.definitions) (running : other.env = machine.env)

include same

theorem environment_definitions_congr (id : EnvId) :
    (other.environment id).definitions = (machine.environment id).definitions := by
  rw [definitions_environment, definitions_environment, same]

theorem forwardDepth_congr (name : String) : other.forwardDepth name = machine.forwardDepth name := by
  rw [forwardDepth, forwardDepth, ← size_definitions, ← size_definitions, same]

theorem moduleFunction?_congr (registry : Registry) (module_ : ModuleRef) (name : String) :
    other.moduleFunction? registry module_ name = machine.moduleFunction? registry module_ name := by
  have defined id := Environment.definitions_eq_iff.mp (environment_definitions_congr same id)
  rw [moduleFunction?, moduleFunction?, forwardDepth_congr same]
  exact member?_congr (fun id name => by rw [(defined id).2.1]) (fun id => (defined id).2.2.2.2) _ _ _

theorem moduleMixin?_congr (module_ : ModuleRef) (name : String) :
    other.moduleMixin? module_ name = machine.moduleMixin? module_ name := by
  have defined id := Environment.definitions_eq_iff.mp (environment_definitions_congr same id)
  rw [moduleMixin?, moduleMixin?, forwardDepth_congr same]
  exact member?_congr (fun id name => by rw [(defined id).1]) (fun id => (defined id).2.2.2.2) _ _ _

include running

theorem current_definitions_congr : other.current.definitions = machine.current.definitions := by
  rw [current, current, running, environment_definitions_congr same]

theorem module?_congr (name : String) : other.module? name = machine.module? name := by
  obtain ⟨-, -, namespaces, -, -⟩ :=
    Environment.definitions_eq_iff.mp (current_definitions_congr same running)
  rw [module?, module?, namespaces]

theorem function?_congr (registry : Registry) (qualifier : Option String) (name : String) :
    other.function? registry qualifier name = machine.function? registry qualifier name := by
  obtain ⟨-, functions, -, stars, -⟩ :=
    Environment.definitions_eq_iff.mp (current_definitions_congr same running)
  simp only [function?, module?_congr same running, moduleFunction?_congr same, functions, stars]

theorem mixin?_congr (qualifier : Option String) (name : String) :
    other.mixin? qualifier name = machine.mixin? qualifier name := by
  obtain ⟨mixins, -, -, stars, -⟩ :=
    Environment.definitions_eq_iff.mp (current_definitions_congr same running)
  simp only [mixin?, module?_congr same running, moduleMixin?_congr same, mixins, stars]

end Definitions

section Variables

variable (same : other.environments = machine.environments)

include same

theorem environment_congr (id : EnvId) : other.environment id = machine.environment id := by
  rw [environment, environment, same]

theorem moduleVariable?_congr (registry : Registry) (module_ : ModuleRef) (name : String) :
    other.moduleVariable? registry module_ name = machine.moduleVariable? registry module_ name := by
  have inside := environment_congr same
  rw [moduleVariable?, moduleVariable?, forwardDepth, forwardDepth, same]
  exact member?_congr (fun id name => by rw [inside id]) (fun id => by rw [inside id]) _ _ _

variable (running : other.env = machine.env)

include running

theorem current_congr : other.current = machine.current := by
  rw [current, current, running, environment_congr same]

theorem qualifiedVariable_congr (registry : Registry) (qualifier name : String) :
    other.qualifiedVariable registry qualifier name =
      machine.qualifiedVariable registry qualifier name := by
  simp only [qualifiedVariable, module?, current_congr same running, moduleVariable?_congr same]

theorem lookup?_congr (frames : other.frames = machine.frames) (registry : Registry)
    (name : String) : other.lookup? registry name = machine.lookup? registry name := by
  simp only [lookup?, frames, current_congr same running, moduleVariable?_congr same]

end Variables

end Machine

end Scss
