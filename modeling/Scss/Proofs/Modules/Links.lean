import Scss.Proofs.Modules.Loading

/-! How modules are linked. A module refers to others by the modules that it uses and forwards, and
to itself by its functions and mixins. Names lead along these links only, and a change writes to the
running module or to one that it is linked to; so what holds along the links holds of all that a
name can lead to. -/
namespace Scss

namespace Bindings

variable {α : Type}

def values (bindings : Bindings α) : List α := bindings.map Prod.snd

theorem mem_values_of_get? {bindings : Bindings α} {name : String} {value : α}
    (found : bindings.get? name = some value) : value ∈ bindings.values :=
  List.mem_map_of_mem (mem_of_get? found)

theorem get?_set_of_ne (bindings : Bindings α) {name other : String} (value : α)
    (apart : other ≠ name) : (bindings.set name value).get? other = bindings.get? other := by
  have differs : (other == name) = false := by simpa using apart
  induction bindings with
  | nil => simp [set, get?, List.lookup_cons, differs]
  | cons entry rest ih =>
    obtain ⟨key, own⟩ := entry
    by_cases same : key = name
    · simp [set, same, get?, List.lookup_cons, differs]
    · cases found : other == key with
      | true => simp [set, same, get?, List.lookup_cons, found]
      | false => simpa [set, same, get?, List.lookup_cons, found] using ih

theorem mem_values_set {bindings : Bindings α} {name : String} {value other : α}
    (member : other ∈ (bindings.set name value).values) : other ∈ bindings.values ∨ other = value := by
  induction bindings with
  | nil => exact .inr (List.mem_singleton.mp member)
  | cons entry rest ih =>
    unfold set at member
    split at member
    · rcases List.mem_cons.mp member with same | behind
      · exact .inr same
      · exact .inl (List.mem_cons_of_mem _ behind)
    · rcases List.mem_cons.mp member with same | behind
      · exact .inl (same ▸ List.mem_cons_self ..)
      · exact (ih behind).imp_left (List.mem_cons_of_mem _)

end Bindings

namespace Environment

def links (environment : Environment) : List ModuleRef :=
  environment.namespaces.values ++ environment.stars ++ environment.forwards.map Forward.module_

def callables (environment : Environment) : List Callable :=
  environment.mixins.values ++ environment.functions.values

theorem mem_links {environment : Environment} {module_ : ModuleRef} :
    module_ ∈ environment.links ↔
      module_ ∈ environment.namespaces.values ∨ module_ ∈ environment.stars ∨
      ∃ forward ∈ environment.forwards, forward.module_ = module_ := by
  simp only [links, List.mem_append, List.mem_map, or_assoc]

theorem mem_callables {environment : Environment} {callable : Callable} :
    callable ∈ environment.callables ↔
      callable ∈ environment.mixins.values ∨ callable ∈ environment.functions.values :=
  List.mem_append

end Environment

open Environment (mem_links mem_callables)

namespace Machine

theorem module?_link {machine : Machine} {qualifier : String} {module_ : ModuleRef}
    (named : machine.module? qualifier = .ok module_) : module_ ∈ machine.current.links := by
  unfold module? at named
  split at named
  · rename_i other found
    obtain rfl := Except.ok.inj named
    exact mem_links.mpr (.inl (Bindings.mem_values_of_get? found))
  · cases named

section Lookup

variable {machine : Machine} {reach : EnvId → Prop}
  (closed : ∀ {id other}, reach id → .user other ∈ (machine.environment id).links → reach other)

include closed

/-- A member of a module is one of the library, or of a module that the links lead to. -/
theorem member?_reach {α : Type} {sigil : String} {library : String → String → Option α}
    {own : Environment → String → Option α} {depth : Nat} {module_ : ModuleRef} {name : String}
    {member : α} (entry : ∀ {id}, module_ = .user id → reach id)
    (found : machine.member? sigil library own depth module_ name = some member) :
    (∃ source inner, library source inner = some member) ∨
    ∃ id inner, reach id ∧ own (machine.environment id) inner = some member := by
  induction depth generalizing module_ name with
  | zero => cases found
  | succ depth ih =>
    cases module_ with
    | builtin source => exact .inl ⟨source, name, found⟩
    | user id =>
      have here : reach id := entry rfl
      unfold member? at found
      dsimp only at found
      split at found
      · rename_i value owned
        obtain rfl := Option.some.inj found
        exact .inr ⟨id, name, here, owned⟩
      · obtain ⟨forward, listed, passed⟩ := List.exists_of_findSome?_eq_some found
        split at passed
        · refine ih (fun same => closed here ?_) passed
          exact mem_links.mpr (.inr (.inr ⟨forward, listed, same⟩))
        · cases passed

variable (here : reach machine.env)

include here

theorem module?_reach {qualifier : String} {id : EnvId}
    (named : machine.module? qualifier = .ok (.user id)) : reach id :=
  closed here (module?_link named)

/-- A member that is found in the running module, or in those that need no name before them. -/
theorem here?_reach {α : Type} {member : α} {own : Option α} {inModule : ModuleRef → Option α}
    (found : here? own inModule machine.current.stars = some member) :
    own = some member ∨
    ∃ module_, (∀ {id}, module_ = .user id → reach id) ∧ inModule module_ = some member := by
  unfold here? at found
  split at found
  · exact .inl found
  · obtain ⟨module_, listed, inside⟩ := List.exists_of_findSome?_eq_some found
    refine .inr ⟨module_, fun same => closed here ?_, inside⟩
    exact mem_links.mpr (.inr (.inl (same ▸ listed)))

theorem mixin?_reach {qualifier : Option String} {name : String} {mixin : Callable}
    (found : machine.mixin? qualifier name = .ok (some mixin)) :
    ∃ id, reach id ∧ mixin ∈ (machine.environment id).mixins.values := by
  have inModule {module_ : ModuleRef} {name : String} (entry : ∀ {id}, module_ = .user id → reach id)
      (search : machine.moduleMixin? module_ name = some mixin) :
      ∃ id, reach id ∧ mixin ∈ (machine.environment id).mixins.values := by
    rcases member?_reach closed entry search with ⟨_, _, library⟩ | ⟨id, inner, reached, own⟩
    · cases library
    · exact ⟨id, reached, Bindings.mem_values_of_get? own⟩
  cases qualifier with
  | some qualifier =>
    cases named : machine.module? qualifier with
    | error cause => simp [mixin?, named, bind, Except.bind] at found
    | ok module_ =>
      have search : machine.moduleMixin? module_ (normalizeName name) = some mixin := by
        simpa [mixin?, named, bind, Except.bind, pure, Except.pure] using found
      exact inModule (fun same => module?_reach closed here (by rw [named, same])) search
  | none =>
    rcases here?_reach closed here (Except.ok.inj found) with own | ⟨module_, entry, inside⟩
    · exact ⟨machine.env, here, Bindings.mem_values_of_get? own⟩
    · exact inModule entry inside

theorem function?_reach {registry : Registry} {qualifier : Option String} {name : String}
    {function : Callable}
    (found : machine.function? registry qualifier name = .ok (some (.user function))) :
    ∃ id, reach id ∧ function ∈ (machine.environment id).functions.values := by
  have owned {id : EnvId} {name : String} (reached : reach id)
      (own : ((machine.environment id).functions.get? name).map FunctionTarget.user =
        some (.user function)) :
      ∃ id, reach id ∧ function ∈ (machine.environment id).functions.values := by
    obtain ⟨other, listed, same⟩ := Option.map_eq_some_iff.mp own
    cases same
    exact ⟨id, reached, Bindings.mem_values_of_get? listed⟩
  have inModule {module_ : ModuleRef} {name : String} (entry : ∀ {id}, module_ = .user id → reach id)
      (search : machine.moduleFunction? registry module_ name = some (.user function)) :
      ∃ id, reach id ∧ function ∈ (machine.environment id).functions.values := by
    rcases member?_reach closed entry search with ⟨source, inner, library⟩ | ⟨id, inner, reached, own⟩
    · split at library <;> cases library
    · exact owned reached own
  cases qualifier with
  | some qualifier =>
    cases named : machine.module? qualifier with
    | error cause => simp [function?, named, bind, Except.bind] at found
    | ok module_ =>
      have search : machine.moduleFunction? registry module_ (normalizeName name) =
          some (.user function) := by
        simpa [function?, named, bind, Except.bind, pure, Except.pure] using found
      exact inModule (fun same => module?_reach closed here (by rw [named, same])) search
  | none =>
    rcases here?_reach closed here (Except.ok.inj found) with own | ⟨module_, entry, inside⟩
    · exact owned here own
    · exact inModule entry inside

end Lookup

section Writing

variable {realm : Realm} {machine next : Machine} {id other : EnvId}
  {f : Environment → Environment}

theorem environment_modify_of_ne (machine : Machine) (f : Environment → Environment)
    (apart : other ≠ id) :
    (machine.modifyEnvironment id f).environment other = machine.environment other := by
  simp only [environment, modifyEnvironment, Array.getElem?_modify, if_neg (Ne.symm apart)]

theorem environment_modify_self (f : Environment → Environment)
    (real : id < machine.environments.size) :
    (machine.modifyEnvironment id f).environment id = f (machine.environment id) := by
  simp only [environment, modifyEnvironment, Array.getElem?_modify, if_pos,
    Array.getElem?_eq_getElem real, Option.map_some, Option.getD_some]

/-- An environment that does not exist is not made by a change. -/
theorem environment_modify_beyond (f : Environment → Environment)
    (beyond : ¬ id < machine.environments.size) :
    (machine.modifyEnvironment id f).environment id = machine.environment id := by
  simp [environment, modifyEnvironment, beyond]

/-- What a change may do to the environments: it writes to the running module, or to one that this
is linked to, links to modules that are offered, and defines functions and mixins of the running
module. -/
structure Writes (machine next : Machine) (id : EnvId) (f : Environment → Environment) : Prop where
  target : id = machine.env ∨ .user id ∈ machine.current.links
  written : next.environments = machine.environments.modify id f
  links : ∀ {environment module_}, module_ ∈ (f environment).links →
    module_ ∈ environment.links ∨ machine.Offers module_
  callables : ∀ {environment callable}, callable ∈ (f environment).callables →
    callable ∈ environment.callables ∨ id = machine.env ∧ callable.env = id

namespace Writes

theorem environment_of_ne (writes : Writes machine next id f) (apart : other ≠ id) :
    next.environment other = machine.environment other := by
  have same : next.environment other = (machine.modifyEnvironment id f).environment other :=
    environment_congr writes.written other
  rw [same, environment_modify_of_ne machine f apart]

theorem environment_self (writes : Writes machine next id f) :
    next.environment id = f (machine.environment id) ∨
      next.environment id = machine.environment id := by
  have same : next.environment id = (machine.modifyEnvironment id f).environment id :=
    environment_congr writes.written id
  rw [same]
  by_cases real : id < machine.environments.size
  · exact .inl (environment_modify_self f real)
  · exact .inr (environment_modify_beyond f real)

theorem mem_links (writes : Writes machine next id f) {module_ : ModuleRef}
    (member : module_ ∈ (next.environment other).links) :
    module_ ∈ (machine.environment other).links ∨ machine.Offers module_ := by
  by_cases apart : other = id
  · subst apart
    rcases writes.environment_self with same | same
    · exact writes.links (same ▸ member)
    · exact .inl (same ▸ member)
  · exact .inl (writes.environment_of_ne apart ▸ member)

theorem mem_callables (writes : Writes machine next id f) {callable : Callable}
    (member : callable ∈ (next.environment other).callables) :
    callable ∈ (machine.environment other).callables ∨
      other = machine.env ∧ callable.env = other := by
  by_cases apart : other = id
  · subst apart
    rcases writes.environment_self with same | same
    · exact writes.callables (same ▸ member)
    · exact .inl (same ▸ member)
  · exact .inl (writes.environment_of_ne apart ▸ member)

/-- A variable is set, and that is neither a link nor a callable. -/
theorem vars (target : id = machine.env ∨ .user id ∈ machine.current.links)
    (kept : ∀ environment, (f environment).definitions = environment.definitions) :
    Writes machine (machine.modifyEnvironment id f) id f := by
  refine ⟨target, rfl, fun {environment module_} member => .inl ?_,
    fun {environment callable} member => .inl ?_⟩
  · have same := congrArg Environment.links (kept environment)
    exact same ▸ member
  · have same := congrArg Environment.callables (kept environment)
    exact same ▸ member

theorem nothing (same : next.environments = machine.environments) :
    Writes machine next machine.env fun environment => environment := by
  refine ⟨.inl rfl, ?_, .inl, .inl⟩
  rw [same]
  apply Array.ext_getElem?
  intro place
  rw [Array.getElem?_modify, Option.map_id_fun']
  split <;> rfl

theorem setGlobal (machine : Machine) (name : String) (value : Value) :
    ∃ id f, Writes machine (machine.setGlobal name value) id f :=
  ⟨machine.env, _, .vars (.inl rfl) fun _ => rfl⟩

theorem define (machine : Machine) (name : String) (value : Value) :
    ∃ id f, Writes machine (machine.define name value) id f := by
  unfold Machine.define
  dsimp only
  split
  · exact ⟨_, _, .nothing rfl⟩
  · exact setGlobal machine _ value

theorem assign (machine : Machine) (name : String) (value : Value) (global : Bool) :
    ∃ id f, Writes machine (machine.assign name value global) id f := by
  unfold Machine.assign
  dsimp only
  split
  · exact setGlobal machine _ value
  · split
    · exact ⟨_, _, .nothing rfl⟩
    · split
      · exact setGlobal machine _ value
      · exact define machine _ value

/-- The running module gets a function or a mixin. -/
theorem callable (added : ∀ {environment callable}, callable ∈ (f environment).callables →
      callable ∈ environment.callables ∨ callable.env = machine.env)
    (kept : ∀ environment, (f environment).links = environment.links) :
    Writes machine (machine.modifyEnvironment machine.env f) machine.env f :=
  ⟨.inl rfl, rfl, fun member => .inl (kept _ ▸ member),
    fun member => (added member).imp_right fun own => ⟨rfl, own⟩⟩

/-- The running module gets a link. -/
theorem link {module_ : ModuleRef} (offered : machine.Offers module_)
    (added : ∀ {environment other}, other ∈ (f environment).links →
      other ∈ environment.links ∨ other = module_)
    (kept : ∀ environment, (f environment).callables = environment.callables) :
    Writes machine (machine.modifyEnvironment machine.env f) machine.env f :=
  ⟨.inl rfl, rfl, fun member => (added member).imp_right (by rintro rfl; exact offered),
    fun member => .inl (kept _ ▸ member)⟩

end Writes

theorem Change.writes (change : Change realm machine next) : ∃ id f, Writes machine next id f := by
  cases change with
  | log | draw | note | hoist => exact ⟨_, _, .nothing rfl⟩
  | define mode _ name value => exact Writes.define machine name value
  | assign mode _ name value global => exact Writes.assign machine name value global
  | assignQualified mode assigned =>
    obtain ⟨id, named, rfl⟩ := assignQualified_cases assigned
    exact ⟨id, _, .vars (.inr (module?_link named)) fun _ => rfl⟩
  | defineFunction _ name params body =>
    refine ⟨machine.env, _, .callable (fun {environment callable} member => ?_) fun _ => rfl⟩
    rcases mem_callables.mp member with mixin | function
    · exact .inl (mem_callables.mpr (.inl mixin))
    · rcases Bindings.mem_values_set function with old | rfl
      · exact .inl (mem_callables.mpr (.inr old))
      · exact .inr rfl
  | defineMixin _ name params body =>
    refine ⟨machine.env, _, .callable (fun {environment callable} member => ?_) fun _ => rfl⟩
    rcases mem_callables.mp member with mixin | function
    · rcases Bindings.mem_values_set mixin with old | rfl
      · exact .inl (mem_callables.mpr (.inl old))
      · exact .inr rfl
    · exact .inl (mem_callables.mpr (.inr function))
  | use offered name =>
    refine ⟨machine.env, _, .link offered (fun {environment other} member => ?_) fun environment => ?_⟩
    · split at member
      · rcases mem_links.mp member with named | star | passed
        · exact .inl (mem_links.mpr (.inl named))
        · rcases List.mem_append.mp star with old | added
          · exact .inl (mem_links.mpr (.inr (.inl old)))
          · exact .inr (List.mem_singleton.mp added)
        · exact .inl (mem_links.mpr (.inr (.inr passed)))
      · rcases mem_links.mp member with named | star | passed
        · rcases Bindings.mem_values_set named with old | added
          · exact .inl (mem_links.mpr (.inl old))
          · exact .inr added
        · exact .inl (mem_links.mpr (.inr (.inl star)))
        · exact .inl (mem_links.mpr (.inr (.inr passed)))
    · split <;> rfl
  | forward offered =>
    refine ⟨machine.env, _, .link offered (fun {environment other} member => ?_) fun _ => rfl⟩
    rcases mem_links.mp member with named | star | ⟨forward, listed, same⟩
    · exact .inl (mem_links.mpr (.inl named))
    · exact .inl (mem_links.mpr (.inr (.inl star)))
    · rcases List.mem_append.mp listed with old | added
      · exact .inl (mem_links.mpr (.inr (.inr ⟨forward, old, same⟩)))
      · rw [List.mem_singleton.mp added] at same
        exact .inr same.symm

end Writing

end Machine

end Scss
