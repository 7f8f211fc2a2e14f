import Scss.Proofs.Modules.Isolation

/-! What modules keep for later: the bodies of their functions and mixins. They are put there by
definitions alone, so what holds of every body that is defined holds of every body that a name leads
to. -/
namespace Scss.Machine

/-- What holds of the bodies of all functions, and of the bodies of all mixins. -/
structure Stocked (function mixin : List Statement → Prop) (machine : Machine) : Prop where
  functions : ∀ {id callable}, callable ∈ (machine.environment id).functions.values →
    function callable.body
  mixins : ∀ {id callable}, callable ∈ (machine.environment id).mixins.values → mixin callable.body

namespace Stocked

variable {function mixin : List Statement → Prop} {machine next : Machine}

theorem start (file : String) : Stocked function mixin (Machine.start file) := by
  have empty (id : EnvId) : (Machine.start file).environment id = .empty := by
    cases id <;> rfl
  constructor
  · intro id callable member
    rw [empty] at member
    cases member
  · intro id callable member
    rw [empty] at member
    cases member

theorem congr (stocked : Stocked function mixin machine)
    (same : next.definitions = machine.definitions) : Stocked function mixin next := by
  have defined (id : EnvId) :=
    Environment.definitions_eq_iff.mp (environment_definitions_congr same id)
  constructor
  · intro id callable member
    rw [(defined id).2.1] at member
    exact stocked.functions member
  · intro id callable member
    rw [(defined id).1] at member
    exact stocked.mixins member

/-- One environment is changed, and what it gets is as good as what there is. -/
theorem modify (stocked : Stocked function mixin machine) (id : EnvId) {f : Environment → Environment}
    (functions : ∀ {environment callable}, callable ∈ (f environment).functions.values →
      callable ∈ environment.functions.values ∨ function callable.body)
    (mixins : ∀ {environment callable}, callable ∈ (f environment).mixins.values →
      callable ∈ environment.mixins.values ∨ mixin callable.body) :
    Stocked function mixin (machine.modifyEnvironment id f) := by
  have cases (other : EnvId) :
      (machine.modifyEnvironment id f).environment other = machine.environment other ∨
      (machine.modifyEnvironment id f).environment other = f (machine.environment other) := by
    by_cases apart : other = id
    · subst apart
      by_cases real : other < machine.environments.size
      · exact .inr (environment_modify_self f real)
      · exact .inl (environment_modify_beyond f real)
    · exact .inl (environment_modify_of_ne machine f apart)
  constructor
  · intro other callable member
    rcases cases other with same | changed
    · exact stocked.functions (same ▸ member)
    · rcases functions (changed ▸ member) with old | new
      · exact stocked.functions old
      · exact new
  · intro other callable member
    rcases cases other with same | changed
    · exact stocked.mixins (same ▸ member)
    · rcases mixins (changed ▸ member) with old | new
      · exact stocked.mixins old
      · exact new

theorem defineFunction (stocked : Stocked function mixin machine) (name : String)
    (params : Parameters) {body : List Statement} (own : function body) :
    Stocked function mixin (machine.defineFunction name params body) := by
  apply stocked.modify
  · intro environment callable member
    rcases Bindings.mem_values_set member with old | rfl
    · exact .inl old
    · exact .inr own
  · exact .inl

theorem defineMixin (stocked : Stocked function mixin machine) (name : String) (params : Parameters)
    {body : List Statement} (own : mixin body) :
    Stocked function mixin (machine.defineMixin name params body) := by
  apply stocked.modify
  · exact .inl
  · intro environment callable member
    rcases Bindings.mem_values_set member with old | rfl
    · exact .inl old
    · exact .inr own

theorem useAs (stocked : Stocked function mixin machine) (name : String) (module_ : ModuleRef) :
    Stocked function mixin (machine.useAs name module_) := by
  apply stocked.modify
  · intro environment callable member
    split at member <;> exact .inl member
  · intro environment callable member
    split at member <;> exact .inl member

theorem passOn (stocked : Stocked function mixin machine) (forward : Forward) :
    Stocked function mixin (machine.passOn forward) :=
  stocked.modify _ .inl .inl

/-- A new module has neither. -/
theorem enterModule (stocked : Stocked function mixin machine) (path : String)
    (configured : Bindings Value) : Stocked function mixin (machine.enterModule path configured) := by
  constructor
  · intro id callable member
    by_cases new : id = machine.environments.size
    · rw [new, environment_enterModule_self] at member
      cases member
    · rw [environment_enterModule_of_ne new] at member
      exact stocked.functions member
  · intro id callable member
    by_cases new : id = machine.environments.size
    · rw [new, environment_enterModule_self] at member
      cases member
    · rw [environment_enterModule_of_ne new] at member
      exact stocked.mixins member

variable (stocked : Stocked function mixin machine) {qualifier : Option String} {name : String}
  {callable : Callable}

include stocked

theorem function? {registry : Registry}
    (found : machine.function? registry qualifier name = .ok (some (.user callable))) :
    function callable.body := by
  have anywhere {id other : EnvId} : True → .user other ∈ (machine.environment id).links → True :=
    fun _ _ => trivial
  obtain ⟨id, -, member⟩ := function?_reach anywhere trivial found
  exact stocked.functions member

theorem mixin? (found : machine.mixin? qualifier name = .ok (some callable)) : mixin callable.body := by
  have anywhere {id other : EnvId} : True → .user other ∈ (machine.environment id).links → True :=
    fun _ _ => trivial
  obtain ⟨id, -, member⟩ := mixin?_reach anywhere trivial found
  exact stocked.mixins member

end Stocked

end Scss.Machine
