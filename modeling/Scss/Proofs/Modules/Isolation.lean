import Scss.Proofs.Modules.Links

/-! Modules are isolated from their importer. A module becomes known when it is complete, and links
lead to known modules only; so while a module is loaded outside of all mixins, nothing leads back to
the importer, and nothing of the importer changes. -/
namespace Scss

open Environment (mem_callables)

namespace Machine

variable {setup : Setup} {realm inner : Realm} {machine start next after : Machine} {id : EnvId}

section Loaded

theorem isLoaded_learn {path : String} {new : EnvId}
    (loaded : (machine.learn path new).IsLoaded id) : machine.IsLoaded id ∨ id = new := by
  obtain ⟨name, found⟩ := loaded
  by_cases same : name = path
  · subst same
    rw [learn, Bindings.get?_set_self] at found
    exact .inr (Option.some.inj found).symm
  · rw [learn, Bindings.get?_set_of_ne _ _ same] at found
    exact .inl ⟨name, found⟩

/-- What has become known is new. -/
theorem Moves.loaded_cases (moves : Moves setup realm machine after) (loaded : after.IsLoaded id) :
    machine.IsLoaded id ∨ machine.environments.size ≤ id := by
  induction moves with
  | refl => exact .inl loaded
  | trans head _ first second =>
    rcases second loaded with early | late
    · exact first early
    · exact .inr (head.size_le.trans late)
  | change change =>
    obtain ⟨path, found⟩ := loaded
    exact .inl ⟨path, change.modules_eq ▸ found⟩
  | @place realm inner machine start after next exit place inside left ih =>
    cases place with
    | frame | selector | media | function | mixin | file =>
      subst left
      exact ih loaded
    | content =>
      obtain ⟨-, rfl⟩ := left
      exact ih loaded
    | @module _ url sheet found unknown unopened configured complete =>
      have known (before : after.IsLoaded id) :
          machine.IsLoaded id ∨ machine.environments.size ≤ id := by
        refine (ih before).imp_right fun late => ?_
        have pushed : machine.environments.size ≤
            (machine.enterModule sheet.path configured).environments.size := by
          simp [enterModule]
        exact pushed.trans late
      subst left
      cases complete with
      | false => exact known loaded
      | true =>
        rcases isLoaded_learn loaded with before | rfl
        · exact known before
        · exact .inr (le_refl _)

end Loaded

theorem environment_enterModule_self {path : String} {configured : Bindings Value} :
    (machine.enterModule path configured).environment machine.environments.size =
      { Environment.empty with vars := configured } := by
  simp [environment, enterModule]

theorem environment_enterModule_of_ne {path : String} {configured : Bindings Value}
    (old : id ≠ machine.environments.size) :
    (machine.enterModule path configured).environment id = machine.environment id := by
  simp [environment, enterModule, Array.getElem?_push, old]

section Wiring

/-- The links of the modules lead to modules that are known and exist, and their functions and
mixins are their own. -/
structure Wired (machine : Machine) : Prop where
  modules : ∀ {id}, machine.IsLoaded id → id < machine.environments.size
  links : ∀ {id other}, .user other ∈ (machine.environment id).links → machine.IsLoaded other
  callables : ∀ {id callable}, callable ∈ (machine.environment id).callables → callable.env = id

namespace Wired

theorem congr (wired : Wired machine) (environments : next.environments = machine.environments)
    (modules : next.modules = machine.modules) : Wired next := by
  have loaded {id : EnvId} : next.IsLoaded id ↔ machine.IsLoaded id := by
    rw [IsLoaded, IsLoaded, modules]
  refine ⟨fun known => ?_, fun member => ?_, fun member => ?_⟩
  · rw [environments]
    exact wired.modules (loaded.mp known)
  · rw [environment_congr environments] at member
    exact loaded.mpr (wired.links member)
  · rw [environment_congr environments] at member
    exact wired.callables member

theorem change (wired : Wired machine) (change : Change realm machine next) : Wired next := by
  obtain ⟨id, f, writes⟩ := change.writes
  have loaded {id : EnvId} : next.IsLoaded id ↔ machine.IsLoaded id := by
    rw [IsLoaded, IsLoaded, change.modules_eq]
  refine ⟨fun known => ?_, fun member => ?_, fun member => ?_⟩
  · rw [change.size_eq]
    exact wired.modules (loaded.mp known)
  · rcases writes.mem_links member with old | offered
    · exact loaded.mpr (wired.links old)
    · exact loaded.mpr offered
  · rcases writes.mem_callables member with old | ⟨-, own⟩
    · exact wired.callables old
    · exact own

/-- A new module has neither links nor callables. -/
theorem enterModule (wired : Wired machine) (path : String) (configured : Bindings Value) :
    Wired (machine.enterModule path configured) := by
  refine ⟨fun known => ?_, fun {id other} member => ?_, fun {id callable} member => ?_⟩
  · have old := wired.modules known
    simp only [Machine.enterModule, Array.size_push]
    exact old.trans (Nat.lt_succ_self _)
  · by_cases new : id = machine.environments.size
    · rw [new, environment_enterModule_self] at member
      cases member
    · rw [environment_enterModule_of_ne new] at member
      exact wired.links member
  · by_cases new : id = machine.environments.size
    · rw [new, environment_enterModule_self] at member
      cases member
    · rw [environment_enterModule_of_ne new] at member
      exact wired.callables member

/-- A module that is complete becomes known, and it exists. -/
theorem learn {path : String} (wired : Wired machine) (real : id < machine.environments.size)
    (behind : (machine.learn path id).modules = machine.modules ++ [(path, id)]) :
    Wired (machine.learn path id) := by
  refine ⟨fun known => ?_, fun member => ?_, fun member => wired.callables member⟩
  · rcases isLoaded_learn known with old | rfl
    · exact wired.modules old
    · exact real
  · obtain ⟨name, found⟩ := wired.links member
    exact ⟨name, behind ▸ Bindings.get?_append_of_get? found _⟩

end Wired

/-- The module that everything runs for: the running one outside of all mixins, and otherwise the
one that has included the outermost mixin. -/
def root (machine : Machine) : EnvId :=
  ((machine.contents.map ContentFrame.env).getLast?).getD machine.env

theorem Moves.root_eq (moves : Moves setup realm machine after) : after.root = machine.root := by
  rw [root, root, moves.env_eq, moves.envs_eq]

/-- A state of a compilation: the running module and those that wait for blocks exist, the modules
are wired, and style statements run for a module that is not complete. -/
structure Linked (realm : Realm) (machine : Machine) : Prop extends Wired machine where
  env : machine.env < machine.environments.size
  contents : ∀ content ∈ machine.contents, content.env < machine.environments.size
  incomplete : realm = .style → ¬ machine.IsLoaded machine.root

namespace Linked

theorem root_lt (linked : Linked realm machine) : machine.root < machine.environments.size := by
  unfold root
  cases last : (machine.contents.map ContentFrame.env).getLast? with
  | none => exact linked.env
  | some id =>
    obtain ⟨content, member, rfl⟩ := List.mem_map.mp (List.mem_of_getLast? last)
    exact linked.contents content member

/-- What is around stays, and what becomes known is new; so moves keep all but the wiring. -/
theorem moves (linked : Linked realm machine) (moves : Moves setup realm machine after)
    (wired : Wired after) : Linked realm after := by
  refine { wired with env := ?_, contents := ?_, incomplete := ?_ }
  · rw [moves.env_eq]
    exact linked.env.trans_le moves.size_le
  · intro content member
    have waiting : content.env ∈ machine.contents.map ContentFrame.env :=
      moves.envs_eq ▸ List.mem_map_of_mem member
    obtain ⟨other, listed, same⟩ := List.mem_map.mp waiting
    exact same ▸ (linked.contents other listed).trans_le moves.size_le
  · intro style loaded
    rw [moves.root_eq] at loaded
    rcases moves.loaded_cases loaded with early | late
    · exact linked.incomplete style early
    · exact absurd linked.root_lt late.not_gt

/-- A place that changes nothing that links depend on. -/
theorem congr (linked : Linked realm machine) (environments : next.environments = machine.environments)
    (modules : next.modules = machine.modules) (env : next.env = machine.env)
    (contents : next.contents = machine.contents) : Linked realm next := by
  refine { linked.toWired.congr environments modules with env := ?_, contents := ?_, incomplete := ?_ }
  · rw [env, environments]
    exact linked.env
  · rw [contents, environments]
    exact linked.contents
  · rw [IsLoaded, root, modules, env, contents]
    exact linked.incomplete

/-- The module of a function or mixin that is found exists. -/
theorem callable_lt (linked : Linked realm machine) {callable : Callable}
    (member : callable ∈ (machine.environment id).callables) :
    callable.env < machine.environments.size := by
  rw [linked.callables member]
  by_contra beyond
  have none : machine.environments[id]? = Option.none := by simpa using beyond
  rw [environment, none] at member
  cases member

theorem enter (linked : Linked realm machine) {exit : Machine → Machine → Prop}
    (place : Place setup realm machine inner start exit) : Linked inner start := by
  have anywhere {id other : EnvId} : True → .user other ∈ (machine.environment id).links → True :=
    fun _ _ => trivial
  cases place with
  | frame | selector | media | file => exact linked.congr rfl rfl rfl rfl
  | function realm found =>
    obtain ⟨id, -, member⟩ := function?_reach anywhere trivial found
    exact { linked.toWired.congr rfl rfl with
      env := linked.callable_lt (mem_callables.mpr (.inr member))
      contents := linked.contents
      incomplete := nofun }
  | @mixin _ _ _ mixin found block =>
    obtain ⟨id, -, member⟩ := mixin?_reach anywhere trivial found
    refine { linked.toWired.congr rfl rfl with
      env := linked.callable_lt (mem_callables.mpr (.inl member))
      contents := List.forall_mem_cons.mpr ⟨linked.env, linked.contents⟩
      incomplete := fun style => ?_ }
    have same : (machine.enterMixin mixin.env block).root = machine.root := by
      simp [enterMixin, root, List.getLast?_cons]
    rw [same]
    exact linked.incomplete style
  | @content _ content outer block handed given =>
    have waiting := linked.contents
    rw [handed] at waiting
    obtain ⟨here, others⟩ := List.forall_mem_cons.mp waiting
    refine { linked.toWired.congr rfl rfl with
      env := here, contents := others, incomplete := fun style => ?_ }
    have same : (machine.enterContent content outer).root = machine.root := by
      simp [enterContent, root, handed, List.getLast?_cons]
    rw [same]
    exact linked.incomplete style
  | @module _ url sheet found unknown unopened configured complete =>
    have more : machine.environments.size <
        (machine.enterModule sheet.path configured).environments.size := by
      simp [Machine.enterModule]
    refine { linked.toWired.enterModule sheet.path configured with
      env := more
      contents := fun content member => (linked.contents content member).trans more
      incomplete := fun style loaded => ?_ }
    have known : machine.IsLoaded (machine.enterModule sheet.path configured).root := loaded
    cases contents : machine.contents with
    | nil =>
      have new : (machine.enterModule sheet.path configured).root = machine.environments.size := by
        simp [root, Machine.enterModule, contents]
      exact absurd (linked.modules (new ▸ known)) (lt_irrefl _)
    | cons content outer =>
      have same : (machine.enterModule sheet.path configured).root = machine.root := by
        simp [root, Machine.enterModule, contents, List.getLast?_cons]
      exact linked.incomplete style (same ▸ known)

end Linked

/-- Every state of a compilation is linked. -/
theorem invariant_linked (setup : Setup) : Invariant setup Linked where
  change change linked := by
    have moves : Moves setup _ _ _ := .change change
    exact linked.moves moves (linked.toWired.change change)
  enter place linked := linked.enter place
  leave := by
    intro realm machine inner start exit after next place inside left linked within
    refine linked.moves (.place place inside left) ?_
    cases place with
    | frame | selector | media | function | mixin | file =>
      subst left
      exact within.toWired.congr rfl rfl
    | content =>
      obtain ⟨-, rfl⟩ := left
      exact within.toWired.congr rfl rfl
    | @module _ url sheet found unknown unopened configured complete =>
      subst left
      cases complete with
      | false => exact within.toWired.congr rfl rfl
      | true =>
        have real : machine.environments.size < after.environments.size := by
          have more : machine.environments.size <
              (machine.enterModule sheet.path configured).environments.size := by
            simp [enterModule]
          exact more.trans_le inside.size_le
        have behind := inside.learns.complete (List.mem_cons_self ..)
          (Bindings.get?_eq_none_iff.mp unknown) machine.environments.size
        have wired : Wired (machine.leaveModule after) := within.toWired.congr rfl rfl
        exact wired.learn real behind

theorem linked_start (file : String) : Linked .style (Machine.start file) := by
  have empty (id : EnvId) : (Machine.start file).environment id = .empty := by
    cases id <;> rfl
  have unknown (id : EnvId) : ¬ (Machine.start file).IsLoaded id := nofun
  refine ⟨⟨fun known => absurd known (unknown _), fun {id other} member => ?_,
    fun {id callable} member => ?_⟩, Nat.zero_lt_one, nofun, fun _ => unknown _⟩
  · rw [empty] at member
    cases member
  · rw [empty] at member
    cases member

end Wiring

section Sealing

/-- Nothing that runs leads to an importer, and the importer is as it was. -/
structure Sealed (importer : EnvId) (kept : Environment) (machine : Machine) : Prop where
  real : importer < machine.environments.size
  kept : machine.environment importer = kept
  env : machine.env ≠ importer
  contents : ∀ content ∈ machine.contents, content.env ≠ importer
  unknown : ¬ machine.IsLoaded importer
  links : ∀ {id}, id ≠ importer → .user importer ∉ (machine.environment id).links
  callables : ∀ {id callable}, id ≠ importer → callable ∈ (machine.environment id).callables →
    callable.env ≠ importer

variable {importer : EnvId} {kept : Environment}

/-- A new module has no way to an importer that no other module has a way to. -/
theorem sealed_enterModule (real : importer < machine.environments.size)
    (contents : ∀ content ∈ machine.contents, content.env ≠ importer)
    (unknown : ¬ machine.IsLoaded importer)
    (links : ∀ {id}, id ≠ importer → .user importer ∉ (machine.environment id).links)
    (callables : ∀ {id callable}, id ≠ importer → callable ∈ (machine.environment id).callables →
      callable.env ≠ importer)
    (path : String) (configured : Bindings Value) :
    Sealed importer (machine.environment importer) (machine.enterModule path configured) := by
  refine ⟨?_, environment_enterModule_of_ne real.ne, real.ne', contents, unknown,
    fun {id} apart member => ?_, fun {id callable} apart member => ?_⟩
  · simp only [enterModule, Array.size_push]
    exact real.trans (Nat.lt_succ_self _)
  · by_cases new : id = machine.environments.size
    · rw [new, environment_enterModule_self] at member
      cases member
    · rw [environment_enterModule_of_ne new] at member
      exact links apart member
  · by_cases new : id = machine.environments.size
    · rw [new, environment_enterModule_self] at member
      cases member
    · rw [environment_enterModule_of_ne new] at member
      exact callables apart member

/-- While a module is loaded outside of all mixins, there is no way to the importer. -/
theorem Linked.seal (linked : Linked .style machine) (outside : machine.contents = []) (path : String)
    (configured : Bindings Value) :
    Sealed machine.env (machine.environment machine.env) (machine.enterModule path configured) := by
  have incomplete : ¬ machine.IsLoaded machine.env := by
    have running : machine.root = machine.env := by
      rw [root, outside]
      rfl
    exact running ▸ linked.incomplete rfl
  refine sealed_enterModule linked.env ?_ incomplete ?_ ?_ path configured
  · rw [outside]
    exact fun _ member => nomatch member
  · exact fun _ member => incomplete (linked.links member)
  · exact fun apart member => linked.callables member ▸ apart

namespace Sealed

theorem congr (sealed : Sealed importer kept machine)
    (environments : next.environments = machine.environments)
    (modules : next.modules = machine.modules) (env : next.env ≠ importer)
    (contents : ∀ content ∈ next.contents, content.env ≠ importer) : Sealed importer kept next := by
  have inside := environment_congr environments
  refine ⟨?_, ?_, env, contents, ?_, fun {id} apart => ?_, fun {id callable} apart => ?_⟩
  · rw [environments]
    exact sealed.real
  · rw [inside]
    exact sealed.kept
  · rw [IsLoaded, modules]
    exact sealed.unknown
  · rw [inside]
    exact sealed.links apart
  · rw [inside]
    exact sealed.callables apart

theorem closed (sealed : Sealed importer kept machine) {id other : EnvId} (apart : id ≠ importer)
    (linked : .user other ∈ (machine.environment id).links) : other ≠ importer := by
  rintro rfl
  exact sealed.links apart linked

theorem change (sealed : Sealed importer kept machine) (change : Change realm machine next) :
    Sealed importer kept next := by
  obtain ⟨id, f, writes⟩ := change.writes
  have apart : id ≠ importer := by
    rcases writes.target with rfl | linked
    · exact sealed.env
    · exact sealed.closed sealed.env linked
  refine ⟨?_, ?_, ?_, ?_, ?_, fun {other} different member => ?_,
    fun {other callable} different member => ?_⟩
  · rw [change.size_eq]
    exact sealed.real
  · rw [writes.environment_of_ne apart.symm]
    exact sealed.kept
  · rw [change.env_eq]
    exact sealed.env
  · rw [change.contents_eq]
    exact sealed.contents
  · rw [IsLoaded, change.modules_eq]
    exact sealed.unknown
  · rcases writes.mem_links member with old | offered
    · exact sealed.links different old
    · exact sealed.unknown offered
  · rcases writes.mem_callables member with old | ⟨-, own⟩
    · exact sealed.callables different old
    · exact own ▸ different

theorem enter (sealed : Sealed importer kept machine) {exit : Machine → Machine → Prop}
    (place : Place setup realm machine inner start exit) : Sealed importer kept start := by
  cases place with
  | frame | selector | media | file => exact sealed.congr rfl rfl sealed.env sealed.contents
  | function realm found =>
    obtain ⟨id, apart, member⟩ := function?_reach sealed.closed sealed.env found
    have own := sealed.callables apart (mem_callables.mpr (.inr member))
    exact sealed.congr rfl rfl own sealed.contents
  | mixin found block =>
    obtain ⟨id, apart, member⟩ := mixin?_reach sealed.closed sealed.env found
    have own := sealed.callables apart (mem_callables.mpr (.inl member))
    refine sealed.congr rfl rfl own ?_
    exact List.forall_mem_cons.mpr ⟨sealed.env, sealed.contents⟩
  | @content _ content outer block handed given =>
    have waiting := sealed.contents
    rw [handed] at waiting
    obtain ⟨here, others⟩ := List.forall_mem_cons.mp waiting
    exact sealed.congr rfl rfl here others
  | @module _ url sheet found unknown unopened configured complete =>
    have inside := sealed_enterModule sealed.real sealed.contents sealed.unknown sealed.links
      sealed.callables sheet.path configured
    rwa [sealed.kept] at inside

theorem learn {path : String} (sealed : Sealed importer kept machine) (apart : importer ≠ id) :
    Sealed importer kept (machine.learn path id) := by
  refine ⟨sealed.real, sealed.kept, sealed.env, sealed.contents, fun loaded => ?_, sealed.links,
    sealed.callables⟩
  rcases isLoaded_learn loaded with old | same
  · exact sealed.unknown old
  · exact apart same

end Sealed

/-- Whatever runs without a way to an importer keeps it as it is. -/
theorem invariant_sealed (setup : Setup) (importer : EnvId) (kept : Environment) :
    Invariant setup fun _ => Sealed importer kept where
  change change sealed := sealed.change change
  enter place sealed := sealed.enter place
  leave := by
    intro realm machine inner start exit after next place inside left sealed within
    have moves : Moves setup realm machine next := .place place inside left
    have env : next.env ≠ importer := moves.env_eq ▸ sealed.env
    have contents : ∀ content ∈ next.contents, content.env ≠ importer := by
      intro content member
      have waiting : content.env ∈ machine.contents.map ContentFrame.env :=
        moves.envs_eq ▸ List.mem_map_of_mem member
      obtain ⟨other, listed, same⟩ := List.mem_map.mp waiting
      exact same ▸ sealed.contents other listed
    cases place with
    | frame | selector | media | function | mixin | file =>
      subst left
      exact within.congr rfl rfl env contents
    | content =>
      obtain ⟨-, rfl⟩ := left
      exact within.congr rfl rfl env contents
    | @module _ url sheet found unknown unopened configured complete =>
      subst left
      cases complete with
      | false => exact within.congr rfl rfl env contents
      | true =>
        have outside : Sealed importer kept (machine.leaveModule after) :=
          within.congr rfl rfl env contents
        exact outside.learn sealed.real.ne

end Sealing

end Machine

namespace Eval

open Machine (Moves Meets Linked Sealed)

variable {setup : Setup} {depth : Nat} {before : Machine}

/-- The running module and the frames are as they were. -/
structure Spares (before after : Machine) : Prop where
  frames : after.frames = before.frames
  importer : after.environment before.env = before.environment before.env

/-- The state behind the values that a module is configured with; one of the library takes none. -/
def configuredState (setup : Setup) (depth : Nat) (url : String) (config : List (String × Expr))
    (before : Machine) : Machine :=
  match Text.dropStart? "sass:" url with
  | some _ => before
  | none => (configuration (perform setup depth) config before).2

/-- The values of a configuration set variables by the functions that they call, and nothing else.
-/
theorem configuredState_moves (url : String) (config : List (String × Expr)) :
    Moves setup .value before (configuredState setup depth url config before) := by
  unfold configuredState
  split
  · exact .refl _ before
  · exact (configuration_related (logic_always setup depth) config before trivial).2

/-- Loading a module, to its end or not, leaves the importer and its frames as they are. -/
theorem compileModule_spares (linked : Linked .style before) (outside : before.contents = [])
    (sheet : LoadedFile) (configured : Bindings Value) :
    Spares before (compileModule (perform setup depth) sheet configured before).2 := by
  by_cases opened : sheet.path ∈ before.loading
  · rw [compileModule_opened _ opened]
    exact ⟨rfl, rfl⟩
  cases parsed : statementsOf sheet with
  | error fault =>
    rw [compileModule_unreadable _ opened parsed]
    exact ⟨rfl, rfl⟩
  | ok nodes =>
    have moves := chunks_moves setup depth (before.enterModule sheet.path configured) nodes
    have start := linked.seal outside sheet.path configured
    rw [compileModule_apply _ opened parsed]
    cases outcome : chunks (perform setup depth) nodes
        (before.enterModule sheet.path configured) with
    | mk result after =>
      rw [outcome] at moves
      have sealed : Sealed before.env (before.environment before.env) after :=
        (Machine.invariant_sealed setup _ _).moves moves start
      cases result with
      | error fault => exact ⟨rfl, sealed.kept⟩
      | ok parts => exact ⟨rfl, sealed.kept⟩

/-- Behind the values of its configuration, finding a module leaves the importer as it is. -/
theorem resolveModule_spares (linked : Linked .style before) (outside : before.contents = [])
    (url : String) (config : List (String × Expr)) :
    Spares (configuredState setup depth url config before)
      (resolveModule setup (perform setup depth) url config before).2 := by
  have moves : Moves setup .value before (configuredState setup depth url config before) :=
    configuredState_moves url config
  cases plain : Text.dropStart? "sass:" url with
  | some library =>
    unfold configuredState resolveModule
    rw [plain]
    dsimp only
    split <;> exact ⟨rfl, rfl⟩
  | none =>
    unfold configuredState at moves ⊢
    rw [plain] at moves ⊢
    rw [resolveModule_apply _ plain]
    cases outcome : configuration (perform setup depth) config before with
    | mk result middle =>
      rw [outcome] at moves
      cases result with
      | error fault => exact ⟨rfl, rfl⟩
      | ok configured =>
        dsimp only
        cases found : findSheet setup.loader middle.file url with
        | error cause => exact ⟨rfl, rfl⟩
        | ok sheet =>
          dsimp only
          cases known : middle.modules.get? sheet.path with
          | some id =>
            dsimp only
            split <;> exact ⟨rfl, rfl⟩
          | none =>
            have still : Linked .style middle :=
              (Machine.invariant_linked setup).moves (moves.ofValue .style) linked
            have empty : middle.contents = [] := by
              rw [(moves.steady (by decide)).contents, outside]
            exact compileModule_spares still empty sheet configured

/-- Modules are isolated from their importer. In a state of a compilation outside of all mixins, a
`@use` of any module, under any name and with any configuration, keeps all frames. The values of the
configuration come first, and change variables by the functions that they call alone; behind them
the variables of the importing module stay, and its mixins, functions and forwards are those from
before. What it uses stays too if the `@use` fails, and otherwise gets the module that was found,
either by name or among those that need none. -/
theorem use_isolates_importer (setup : Setup) (depth : Nat) (file : String) {before : Machine}
    (reached : Meets setup .style (Machine.start file) .style before)
    (outside : before.contents = []) (url : String) (given : Option String)
    (config : List (String × Expr)) :
    let middle := configuredState setup depth url config before
    let outcome := useModule setup (perform setup depth) url given config before
    let importer := before.environment before.env
    let left := outcome.2.environment before.env
    Moves setup .value before middle ∧
    outcome.2.frames = before.frames ∧
    left.vars = (middle.environment before.env).vars ∧
    left.mixins = importer.mixins ∧ left.functions = importer.functions ∧
    left.forwards = importer.forwards ∧
    match outcome.1 with
    | .error _ => left.namespaces = importer.namespaces ∧ left.stars = importer.stars
    | .ok _ => ∃ module_,
      let name := given.getD (defaultNamespace url)
      if name = "*" then
        left.namespaces = importer.namespaces ∧ left.stars = importer.stars ++ [module_]
      else left.namespaces = importer.namespaces.set name module_ ∧ left.stars = importer.stars := by
  intro middle outcome importer left
  have linked : Linked .style before :=
    (Machine.invariant_linked setup).meets reached (Machine.linked_start file)
  have configured : Moves setup .value before middle := configuredState_moves url config
  have steady : Machine.Steady before middle := configured.steady (by decide)
  obtain ⟨mixins, functions, namespaces, stars, forwards⟩ := Environment.definitions_eq_iff.mp
    (Machine.environment_definitions_congr steady.definitions before.env)
  obtain ⟨kept, spared⟩ :
      Spares middle (resolveModule setup (perform setup depth) url config before).2 :=
    resolveModule_spares linked outside url config
  rw [configured.frames_eq] at kept
  rw [steady.env] at spared
  have moves := resolveModule_moves setup depth before url config
  have applied : outcome = _ := useModule_apply (perform setup depth) url given config before
  cases resolved : resolveModule setup (perform setup depth) url config before with
  | mk result after =>
    rw [resolved] at kept spared moves applied
    refine ⟨configured, ?_⟩
    cases result with
    | error fault =>
      have same : left = middle.environment before.env := by
        rw [show left = outcome.2.environment before.env from rfl, applied]
        exact spared
      rw [applied, same]
      exact ⟨kept, rfl, mixins, functions, forwards, namespaces, stars⟩
    | ok found =>
      have real : before.env < after.environments.size := linked.env.trans_le moves.size_le
      have running : after.env = before.env := moves.env_eq
      have same : left = if given.getD (defaultNamespace url) = "*" then
            { middle.environment before.env with
              stars := (middle.environment before.env).stars ++ [found.1] }
          else
            { middle.environment before.env with
              namespaces := (middle.environment before.env).namespaces.set
                (given.getD (defaultNamespace url)) found.1 } := by
        rw [show left = outcome.2.environment before.env from rfl, applied]
        change (after.useAs _ found.1).environment before.env = _
        unfold Machine.useAs
        rw [running, Machine.environment_modify_self _ real, spared]
      by_cases star : given.getD (defaultNamespace url) = "*"
      · rw [if_pos star] at same
        rw [applied, same]
        refine ⟨kept, rfl, mixins, functions, forwards, found.1, ?_⟩
        rw [if_pos star, stars]
        exact ⟨namespaces, rfl⟩
      · rw [if_neg star] at same
        rw [applied, same]
        refine ⟨kept, rfl, mixins, functions, forwards, found.1, ?_⟩
        rw [if_neg star, namespaces]
        exact ⟨rfl, stars⟩

/-- A module that sets a variable `$size` of its own, used where `$size` has a value. -/
theorem use_isolates_importer_size :
    let setup := (Compiler.create {} (Loader.memory
      [("theme.scss", "$size: auto !global; .x \x7b top: $size; \x7d")])).setup
    let before := (Machine.start "main.scss").assign "size" .null true
    let outcome := useModule setup (perform setup 30) "theme" none [] before
    Meets setup .style (Machine.start "main.scss") .style before ∧ before.contents = [] ∧
    outcome.1.toOption.map Body.blocks = some [".x \x7b\n  top: auto;\n\x7d\n"] ∧
    (outcome.2.environment 0).vars = [("size", .null)] := by
  intro setup before outcome
  have reached : Meets setup .style (Machine.start "main.scss") .style before :=
    .later (.change (.assign (.style 0) _ "size" .null true)) (.here .style before)
  have outside : before.contents = [] := rfl
  obtain ⟨-, -, vars, -⟩ :=
    use_isolates_importer setup 30 "main.scss" reached outside "theme" none []
  exact ⟨reached, outside, by decide +kernel, vars.trans rfl⟩

end Eval

end Scss
