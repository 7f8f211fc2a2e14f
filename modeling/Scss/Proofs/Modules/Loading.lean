import Mathlib.Data.Set.Card
import Scss.Compiler
import Scss.Proofs.Moves.Watch
import Scss.Proofs.Surroundings

/-! Modules are loaded once, and loading ends. A file is opened inside another only if it is not
being loaded; so the files that are being loaded differ, and they are no more than the loader has. A
module is compiled only if it is not known, and no one else makes it known before it is complete; so
the list of known modules only grows, by one new path for each module that is complete. -/
namespace Scss

def Loader.paths (loader : Loader) : Set String :=
  { path | ∃ address sheet, loader.load address = .ok sheet ∧ sheet.path = path }

theorem Eval.findSheet_loads {loader : Loader} {file url : String} {sheet : LoadedFile}
    (found : findSheet loader file url = .ok sheet) : ∃ address, loader.load address = .ok sheet := by
  unfold findSheet at found
  dsimp only at found
  split at found
  · rename_i other search
    obtain rfl := Except.ok.inj found
    obtain ⟨address, -, loaded⟩ := List.exists_of_findSome?_eq_some search
    refine ⟨address, ?_⟩
    cases outcome : loader.load address with
    | error cause =>
      rw [outcome] at loaded
      cases loaded
    | ok sheet =>
      rw [outcome] at loaded
      rw [Option.some.inj loaded]
  · cases found

theorem Eval.findSheet_mem_paths {loader : Loader} {file url : String} {sheet : LoadedFile}
    (found : findSheet loader file url = .ok sheet) : sheet.path ∈ loader.paths := by
  obtain ⟨address, loaded⟩ := findSheet_loads found
  exact ⟨address, sheet, loaded, rfl⟩

namespace Bindings

variable {α : Type}

theorem get?_eq_none_iff {bindings : Bindings α} {name : String} :
    bindings.get? name = none ↔ name ∉ bindings.names := by
  simp only [get?, names, List.lookup_eq_none_iff, List.mem_map, not_exists, not_and, bne_iff_ne]
  exact ⟨fun apart entry member same => apart entry member same.symm,
    fun apart entry member same => apart entry member same.symm⟩

theorem mem_of_get? {bindings : Bindings α} {name : String} {value : α}
    (found : bindings.get? name = some value) : (name, value) ∈ bindings := by
  obtain ⟨before, after, rfl, -⟩ := List.lookup_eq_some_iff.mp found
  simp

theorem get?_of_mem {bindings : Bindings α} {name : String} {value : α}
    (distinct : bindings.names.Nodup) (member : (name, value) ∈ bindings) :
    bindings.get? name = some value := by
  induction bindings with
  | nil => cases member
  | cons entry rest ih =>
    obtain ⟨key, own⟩ := entry
    obtain ⟨unlisted, others⟩ := List.nodup_cons.mp distinct
    rcases List.mem_cons.mp member with same | behind
    · cases same
      simp [get?]
    · have apart : (name == key) = false := by
        rw [beq_eq_false_iff_ne]
        rintro rfl
        exact unlisted (List.mem_map.mpr ⟨_, behind, rfl⟩)
      simpa [get?, List.lookup_cons, apart] using ih others behind

/-- A new name comes behind the others. -/
theorem set_of_not_mem {bindings : Bindings α} {name : String} (unknown : name ∉ bindings.names)
    (value : α) : bindings.set name value = bindings ++ [(name, value)] := by
  induction bindings with
  | nil => rfl
  | cons entry rest ih =>
    obtain ⟨differs, others⟩ := List.ne_and_not_mem_of_not_mem_cons unknown
    rw [set, if_neg (Ne.symm differs), ih others, List.cons_append]

theorem get?_append_of_get? {bindings : Bindings α} {name : String} {value : α}
    (found : bindings.get? name = some value) (more : Bindings α) :
    get? (bindings ++ more) name = some value := by
  unfold get? at found ⊢
  rw [List.lookup_append, found, Option.some_or]

theorem names_append (bindings more : Bindings α) :
    names (bindings ++ more) = bindings.names ++ more.names :=
  List.map_append

end Bindings

/-- What is loaded from memory is one of the files that are registered. -/
theorem Loader.memory_loads {files : List (String × String)} {address : String} {sheet : LoadedFile}
    (loaded : (Loader.memory files).load address = .ok sheet) :
    (sheet.path, sheet.contents) ∈ files := by
  unfold memory at loaded
  dsimp only at loaded
  split at loaded
  · rename_i found search
    obtain rfl := Except.ok.inj loaded
    obtain ⟨candidate, -, registered⟩ := List.exists_of_findSome?_eq_some search
    obtain ⟨contents, listed, rfl⟩ := Option.map_eq_some_iff.mp registered
    exact Bindings.mem_of_get? listed
  · cases loaded

/-- A check of the statements of all files in memory. -/
theorem Eval.check_of_memory {files : List (String × String)} {check : List Statement → Bool}
    (passed : files.all (fun file => (statementsOf ⟨file.1, file.2⟩).toOption.all check) = true)
    {address : String} {sheet : LoadedFile} {nodes : List Statement}
    (loaded : (Loader.memory files).load address = .ok sheet)
    (parsed : statementsOf sheet = .ok nodes) : check nodes = true := by
  have each := List.all_eq_true.mp passed _ (Loader.memory_loads loaded)
  rwa [parsed] at each

namespace Machine

variable {setup : Setup} {realm inner : Realm} {file path : String} {machine next after : Machine}

/-- Modules have become known that were neither known nor being loaded, each path once. -/
def Learns (machine after : Machine) : Prop :=
  ∃ new : Bindings EnvId, after.modules = machine.modules ++ new ∧ new.names.Nodup ∧
    ∀ path ∈ new.names, path ∉ machine.modules.names ∧ path ∉ machine.loading

theorem Learns.nothing (same : after.modules = machine.modules) : Learns machine after :=
  ⟨[], by rw [same, List.append_nil], List.nodup_nil, by simp [Bindings.names]⟩

theorem Learns.trans {first second third : Machine} (head : Learns first second)
    (tail : Learns second third) (loading : second.loading = first.loading) :
    Learns first third := by
  obtain ⟨new, known, distinct, fresh⟩ := head
  obtain ⟨more, knownMore, distinctMore, freshMore⟩ := tail
  refine ⟨new ++ more, by rw [knownMore, known, List.append_assoc], ?_, ?_⟩
  · rw [Bindings.names_append, List.nodup_append]
    refine ⟨distinct, distinctMore, fun one learned other added same => ?_⟩
    apply (freshMore other added).1
    rw [known, Bindings.names_append, ← same]
    exact List.mem_append_right _ learned
  · intro path learned
    rw [Bindings.names_append] at learned
    rcases List.mem_append.mp learned with early | late
    · exact fresh path early
    · obtain ⟨unknown, unopened⟩ := freshMore path late
      rw [known, Bindings.names_append] at unknown
      exact ⟨fun before => unknown (List.mem_append_left _ before), loading ▸ unopened⟩

/-- What is learned where more files are being loaded. -/
theorem Learns.outside {start : Machine} (learns : Learns start after)
    (known : start.modules = machine.modules) (opened : machine.loading ⊆ start.loading)
    (left : next.modules = after.modules) : Learns machine next := by
  obtain ⟨new, learned, distinct, fresh⟩ := learns
  refine ⟨new, by rw [left, learned, known], distinct, fun path member => ?_⟩
  obtain ⟨unknown, unopened⟩ := fresh path member
  exact ⟨known ▸ unknown, fun loaded => unopened (opened loaded)⟩

/-- A module that is complete was not known by then, so it comes behind all that are known. -/
theorem Learns.complete (learns : Learns machine after) (opened : path ∈ machine.loading)
    (unknown : path ∉ machine.modules.names) (id : EnvId) :
    (after.learn path id).modules = after.modules ++ [(path, id)] := by
  obtain ⟨new, known, -, fresh⟩ := learns
  refine Bindings.set_of_not_mem ?_ id
  rw [known, Bindings.names_append, List.mem_append]
  rintro (before | learned)
  · exact unknown before
  · exact (fresh path learned).2 opened

theorem Moves.learns (moves : Moves setup realm machine after) : Learns machine after := by
  induction moves with
  | refl => exact .nothing rfl
  | trans head _ first second => exact first.trans second head.loading_eq
  | change change => exact .nothing change.modules_eq
  | @place realm inner machine start after next exit place inside left ih =>
    cases place with
    | frame | selector | media | function | mixin =>
      subst left
      exact ih
    | content =>
      obtain ⟨-, rfl⟩ := left
      exact ih
    | file =>
      subst left
      exact ih.outside rfl (List.subset_cons_self _ _) rfl
    | @module _ url sheet found unknown unopened configured complete =>
      subst left
      cases complete with
      | false => exact ih.outside rfl (List.subset_cons_self _ _) rfl
      | true =>
        have unlisted : sheet.path ∉ machine.modules.names := Bindings.get?_eq_none_iff.mp unknown
        have last := ih.complete (List.mem_cons_self ..) unlisted machine.environments.size
        obtain ⟨new, known, distinct, fresh⟩ := ih
        rw [known] at last
        refine ⟨new ++ [(sheet.path, machine.environments.size)], ?_, ?_, ?_⟩
        · rw [← List.append_assoc]
          exact last
        · rw [Bindings.names_append, List.nodup_append]
          refine ⟨distinct, List.nodup_singleton _, fun one learned other added same => ?_⟩
          obtain rfl := List.mem_singleton.mp added
          exact (fresh one learned).2 (same ▸ List.mem_cons_self ..)
        · intro path learned
          rw [Bindings.names_append] at learned
          rcases List.mem_append.mp learned with early | late
          · obtain ⟨unheard, closed⟩ := fresh path early
            exact ⟨unheard, fun opened => closed (List.mem_cons_of_mem _ opened)⟩
          · obtain rfl := List.mem_singleton.mp late
            exact ⟨unlisted, unopened⟩

/-- What is known stays known, in later states and inside of places. -/
theorem Meets.known {id : EnvId} (met : Meets setup realm machine inner after)
    (known : machine.modules.get? path = some id) : after.modules.get? path = some id := by
  induction met with
  | here => exact known
  | later moves _ ih =>
    obtain ⟨new, learned, -, -⟩ := moves.learns
    apply ih
    rw [learned]
    exact Bindings.get?_append_of_get? known new
  | inside place _ ih =>
    apply ih
    cases place <;> exact known

/-- The files that are being loaded differ and so do the modules that are known, and no more files
are being loaded than the loader can find, and the main stylesheet. -/
structure LoadsOnce (setup : Setup) (machine : Machine) : Prop where
  loading : machine.loading.Nodup
  modules : machine.modules.names.Nodup
  nesting : (machine.loading.length : ℕ∞) ≤ setup.loader.paths.encard + 1

/-- In a compilation of a main stylesheet, all other files that are being loaded come from the
loader. -/
structure LoadsWithin (setup : Setup) (file : String) (machine : Machine) : Prop where
  opened : ∃ loads, machine.loading = loads ++ [file] ∧ ∀ path ∈ loads, path ∈ setup.loader.paths
  loading : machine.loading.Nodup
  modules : machine.modules.names.Nodup

namespace LoadsWithin

theorem start (setup : Setup) (file : String) : LoadsWithin setup file (Machine.start file) :=
  ⟨⟨[], rfl, by simp⟩, List.nodup_singleton file, List.nodup_nil⟩

theorem loadsOnce (within : LoadsWithin setup file machine) : LoadsOnce setup machine := by
  refine ⟨within.loading, within.modules, ?_⟩
  obtain ⟨loads, stack, found⟩ := within.opened
  have distinct : loads.Nodup := (List.nodup_append.mp (stack ▸ within.loading)).1
  have bounded : (loads.length : ℕ∞) ≤ setup.loader.paths.encard := by
    rw [← List.toFinset_card_of_nodup distinct, ← Set.encard_coe_eq_coe_finsetCard]
    refine Set.encard_le_encard fun path member => found path ?_
    simpa using member
  calc (machine.loading.length : ℕ∞) = loads.length + 1 := by
        rw [stack, List.length_append, List.length_singleton, Nat.cast_add, Nat.cast_one]
    _ ≤ setup.loader.paths.encard + 1 := by gcongr

theorem moves (within : LoadsWithin setup file machine) (moves : Moves setup realm machine after) :
    LoadsWithin setup file after := by
  obtain ⟨new, known, distinct, fresh⟩ := moves.learns
  refine ⟨?_, ?_, ?_⟩
  · rw [moves.loading_eq]
    exact within.opened
  · rw [moves.loading_eq]
    exact within.loading
  · rw [known, Bindings.names_append, List.nodup_append]
    refine ⟨within.modules, distinct, fun one old other learned same => ?_⟩
    exact (fresh other learned).1 (same ▸ old)

theorem push (within : LoadsWithin setup file machine) (unopened : path ∉ machine.loading)
    (found : path ∈ setup.loader.paths) (loading : next.loading = path :: machine.loading)
    (modules : next.modules = machine.modules) : LoadsWithin setup file next := by
  obtain ⟨loads, stack, inside⟩ := within.opened
  refine ⟨⟨path :: loads, ?_, ?_⟩, ?_, ?_⟩
  · rw [loading, stack, List.cons_append]
  · exact List.forall_mem_cons.mpr ⟨found, inside⟩
  · rw [loading]
    exact List.nodup_cons.mpr ⟨unopened, within.loading⟩
  · rw [modules]
    exact within.modules

end LoadsWithin

/-- A file is opened only if it is not being loaded, and what is opened is closed again. -/
theorem invariant_loadsWithin (setup : Setup) (file : String) :
    Invariant setup fun _ => LoadsWithin setup file where
  change change within := within.moves (.change change)
  enter place within := by
    cases place with
    | frame | selector | media | function | mixin | content =>
      exact ⟨within.opened, within.loading, within.modules⟩
    | file found unopened => exact within.push unopened (Eval.findSheet_mem_paths found) rfl rfl
    | module found unknown unopened =>
      exact within.push unopened (Eval.findSheet_mem_paths found) rfl rfl
  leave place inside left within _ := within.moves (.place place inside left)

end Machine

namespace Eval

open Machine (Meets LoadsOnce)

variable {setup : Setup} {depth : Nat}

/-- In every state of a compilation, files and modules are loaded once. -/
theorem loadsOnce_of_meets {file : String} {realm : Realm} {machine : Machine}
    (met : Meets setup .style (Machine.start file) realm machine) : LoadsOnce setup machine :=
  ((Machine.invariant_loadsWithin setup file).meets met (.start setup file)).loadsOnce

/-- A module that is compiled to its end becomes known in an environment of its own, behind all
modules that were loaded inside it, and it was not known by then. -/
theorem compileModule_learns {sheet : LoadedFile} {configured : Bindings Value} {before after : Machine}
    {module_ : ModuleRef} {css : Option String} (unknown : before.modules.get? sheet.path = none)
    (done : compileModule (perform setup depth) sheet configured before = (.ok (module_, css), after)) :
    module_ = .user before.environments.size ∧
    ∃ inner : Bindings EnvId, sheet.path ∉ inner.names ∧
      after.modules = before.modules ++ inner ++ [(sheet.path, before.environments.size)] := by
  by_cases opened : sheet.path ∈ before.loading
  · rw [compileModule_opened _ opened] at done
    cases done
  cases parsed : statementsOf sheet with
  | error fault =>
    rw [compileModule_unreadable _ opened parsed] at done
    cases done
  | ok nodes =>
    have moves := chunks_moves setup depth (before.enterModule sheet.path configured) nodes
    rw [compileModule_apply _ opened parsed] at done
    cases outcome : chunks (perform setup depth) nodes
        (before.enterModule sheet.path configured) with
    | mk result last =>
      rw [outcome] at done moves
      cases result with
      | error fault => cases done
      | ok parts =>
        cases done
        have learns := Machine.Moves.learns moves
        have complete := learns.complete (List.mem_cons_self ..)
          (Bindings.get?_eq_none_iff.mp unknown) before.environments.size
        obtain ⟨inner, known, -, fresh⟩ := learns
        rw [known] at complete
        exact ⟨rfl, inner, fun learned => (fresh _ learned).2 (List.mem_cons_self ..), complete⟩

/-- A module that is known is used as it is, and gives no output. -/
theorem useModule_known (self : Perform) {url : String} {config : List (String × Expr)}
    {configured : Bindings Value} {before middle : Machine} {sheet : LoadedFile} {id : EnvId}
    (plain : Text.dropStart? "sass:" url = none)
    (valued : configuration self config before = (.ok configured, middle))
    (found : findSheet setup.loader middle.file url = .ok sheet)
    (known : middle.modules.get? sheet.path = some id) (given : Option String) :
    ∃ log, useModule setup self url given config before =
      (.ok .empty,
        { middle with log := log }.useAs (given.getD (defaultNamespace url)) (.user id)) := by
  rw [useModule_apply, resolveModule_apply self plain, valued]
  dsimp only
  rw [found]
  dsimp only
  rw [known]
  cases configured with
  | nil => exact ⟨middle.log, rfl⟩
  | cons => exact ⟨_, rfl⟩

theorem forwardModule_known (self : Perform) {url : String} {before : Machine} {sheet : LoadedFile}
    {id : EnvId} (plain : Text.dropStart? "sass:" url = none)
    (found : findSheet setup.loader before.file url = .ok sheet)
    (known : before.modules.get? sheet.path = some id) (affix : Option String)
    (filter : Option ForwardFilter) :
    forwardModule setup self url affix filter before =
      (.ok .empty, before.passOn ⟨.user id, affix, filter⟩) := by
  have valued : configuration self [] before = (.ok [], before) := rfl
  rw [forwardModule_apply, resolveModule_apply self plain, valued]
  dsimp only
  rw [found]
  dsimp only
  rw [known]
  rfl

/-- Modules are loaded once, and loading ends. In every state of a compilation, those in which its
jobs start and all that its moves meet, no file is being loaded inside itself, no path is known as a
module twice, and the files that are being loaded are no more than the loader can find, and the main
stylesheet. A module that is compiled to its end becomes known behind all that were loaded inside
it, and was not known by then; it stays known, as the same environment; and where it is known, a
`@use` or `@forward` of it gives that environment, compiles nothing, and has no output. -/
theorem modules_load_once (setup : Setup) (file : String) :
    (∀ alarm depth nodes,
      sheet (watched setup (.always (LoadsOnce setup)) alarm depth) nodes (Machine.start file) =
        sheet (perform setup depth) nodes (Machine.start file)) ∧
    (∀ realm state, Meets setup .style (Machine.start file) realm state → LoadsOnce setup state) ∧
    (∀ depth sheet configured before module_ css after, before.modules.get? sheet.path = none →
      compileModule (perform setup depth) sheet configured before = (.ok (module_, css), after) →
      module_ = .user before.environments.size ∧
      ∃ inner : Bindings EnvId, sheet.path ∉ inner.names ∧
        after.modules = before.modules ++ inner ++ [(sheet.path, before.environments.size)]) ∧
    (∀ realm inner before state path id, Meets setup realm before inner state →
      before.modules.get? path = some id → state.modules.get? path = some id) ∧
    (∀ depth url config before configured middle sheet id, Text.dropStart? "sass:" url = none →
      configuration (perform setup depth) config before = (.ok configured, middle) →
      findSheet setup.loader middle.file url = .ok sheet →
      middle.modules.get? sheet.path = some id →
      ∀ given, ∃ log, useModule setup (perform setup depth) url given config before =
        (.ok .empty,
          { middle with log := log }.useAs (given.getD (defaultNamespace url)) (.user id))) ∧
    (∀ depth url before sheet id, Text.dropStart? "sass:" url = none →
      findSheet setup.loader before.file url = .ok sheet →
      before.modules.get? sheet.path = some id →
      ∀ affix filter, forwardModule setup (perform setup depth) url affix filter before =
        (.ok .empty, before.passOn ⟨.user id, affix, filter⟩)) := by
  refine ⟨sheet_watched fun realm state => loadsOnce_of_meets,
    fun realm state => loadsOnce_of_meets, ?_, ?_, ?_, ?_⟩
  · intro depth sheet configured before module_ css after unknown done
    exact compileModule_learns unknown done
  · intro realm inner before state path id met known
    exact met.known known
  · intro depth url config before configured middle sheet id plain valued found known given
    exact useModule_known _ plain valued found known given
  · intro depth url before sheet id plain found known affix filter
    exact forwardModule_known _ plain found known affix filter

example :
    let setup :=
      (Compiler.create {} (Loader.memory [("a.scss", ".x \x7b top: auto; \x7d")])).setup
    (stylesheet setup [.useModule "a" none [] 1, .useModule "a" (some "b") [] 2]
      (Machine.start "main.scss")).1.toOption = some ".x \x7b\n  top: auto;\n\x7d\n" := by
  decide +kernel

end Eval

end Scss
