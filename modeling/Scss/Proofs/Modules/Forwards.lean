import Mathlib.Logic.Relation
import Scss.Proofs.Conduct.Runs
import Scss.Proofs.Modules.Stock

/-! The graph of forwards. A module that forwards another one is not complete, and the other one is; so
a module forwards only modules that were complete before it. The order in which modules become complete
therefore ranks the graph, and a search for a member ends, within the bound that it has.

The body of a mixin is the exception: it runs in a module that may be complete for long. What is shown
here is about programs whose mixins neither forward nor import. -/
namespace Scss

open Machine (Change Moves Place Linked Stocked)

namespace Statement

/-- A statement that can add a forward to the running module: by itself, or by a file that it puts in
its place. -/
def forwards : Statement → Bool
  | forwardModule _ _ _ _ | importSheets _ _ => true
  | _ => false

end Statement

/-- Statements that, at any depth, neither forward nor import. -/
def Quiet : List Statement → Prop := Throughout fun node => node.forwards = false

/-- Statements whose mixins neither forward nor import. -/
def Orderly : List Statement → Prop := Throughout fun node => ∀ body, node.mixin? = some body → Quiet body

/-- What stands in a quiet block has quiet mixins. -/
theorem Quiet.orderly {nodes : List Statement} (quiet : Quiet nodes) : Orderly nodes := by
  intro node occurs body defined inner inside
  exact quiet inner (occurs.trans (inside.of_subset (Statement.mixin_subset_children defined)))

def Statement.hasQuietMixin (depth : Nat) (node : Statement) : Bool :=
  match node.mixin? with
  | some body => everywhere (fun inner => !inner.forwards) depth body
  | none => true

theorem Orderly.of_everywhere (depth : Nat) {nodes : List Statement}
    (passed : everywhere (Statement.hasQuietMixin depth) depth nodes = true) : Orderly nodes := by
  intro node occurs body defined inner inside
  have quiet := occurs.check passed
  rw [Statement.hasQuietMixin, defined] at quiet
  simpa using inside.check quiet

namespace Machine

def Forwards (machine : Machine) (id other : EnvId) : Prop :=
  ∃ forward ∈ (machine.environment id).forwards, forward.module_ = .user other

section Searching

variable {α : Type} (machine : Machine) (sigil : String) (library : String → String → Option α)
  (own : Environment → String → Option α)

/-- Search the modules that are forwarded, given how each of them is searched; `none` says that a
search has not ended. -/
def searchForwards (search : ModuleRef → String → Option (Option α)) (name : String) :
    List Forward → Option (Option α)
  | [] => some none
  | forward :: rest =>
    match forward.expose? name sigil with
    | none => searchForwards search name rest
    | some inner =>
      match search forward.module_ inner with
      | none => none
      | some (some found) => some (some found)
      | some none => searchForwards search name rest

/-- Search for a member along the forwards, as long as it takes; `none` says that the search has not
ended within `depth` modules in a row. -/
def search? : Nat → ModuleRef → String → Option (Option α)
  | 0, _, _ => none
  | _ + 1, .builtin module_, name => some (library module_ name)
  | depth + 1, .user id, name =>
    match own (machine.environment id) name with
    | some found => some (some found)
    | none => searchForwards sigil (search? depth) name (machine.environment id).forwards

variable {machine sigil library own} {depth : Nat} {module_ : ModuleRef} {name : String}
  {result : Option α}

theorem searchForwards_eq {search : ModuleRef → String → Option (Option α)}
    {member : ModuleRef → String → Option α} {forwards : List Forward}
    (agree : ∀ {module_ name result}, search module_ name = some result → member module_ name = result)
    (ends : searchForwards sigil search name forwards = some result) :
    (forwards.findSome? fun forward =>
      match forward.expose? name sigil with
      | some inner => member forward.module_ inner
      | none => none) = result := by
  induction forwards with
  | nil => exact Option.some.inj ends
  | cons forward rest ih =>
    unfold searchForwards at ends
    rw [List.findSome?_cons]
    cases exposed : forward.expose? name sigil with
    | none =>
      rw [exposed] at ends
      exact ih ends
    | some inner =>
      rw [exposed] at ends
      dsimp only at ends ⊢
      cases searched : search forward.module_ inner with
      | none =>
        rw [searched] at ends
        cases ends
      | some outcome =>
        rw [searched] at ends
        rw [agree searched]
        cases outcome with
        | some found => exact Option.some.inj ends
        | none => exact ih ends

/-- A search that ends finds what the bounded search finds. -/
theorem member?_of_search? (ends : machine.search? sigil library own depth module_ name = some result) :
    machine.member? sigil library own depth module_ name = result := by
  induction depth generalizing module_ name result with
  | zero => cases ends
  | succ depth ih =>
    cases module_ with
    | builtin source => exact Option.some.inj ends
    | user id =>
      unfold search? at ends
      unfold member?
      dsimp only
      cases owned : own (machine.environment id) name with
      | some found =>
        rw [owned] at ends
        exact Option.some.inj ends
      | none =>
        rw [owned] at ends
        exact searchForwards_eq ih ends

theorem searchForwards_ends {search : ModuleRef → String → Option (Option α)} {forwards : List Forward}
    (ends : ∀ forward ∈ forwards, ∀ name, search forward.module_ name ≠ none) :
    searchForwards sigil search name forwards ≠ none := by
  induction forwards with
  | nil => exact Option.some_ne_none _
  | cons forward rest ih =>
    obtain ⟨here, others⟩ := List.forall_mem_cons.mp ends
    unfold searchForwards
    split
    · exact ih others
    · rename_i inner _
      split
      · rename_i searched
        exact absurd searched (here inner)
      · exact Option.some_ne_none _
      · exact ih others

end Searching

def complete (machine : Machine) : List EnvId := machine.modules.values

/-- Every module forwards only modules that were complete before it. Modules that are not complete come
last. -/
def Ranked (machine : Machine) : Prop :=
  ∀ id other, machine.Forwards id other → machine.complete.idxOf other < machine.complete.idxOf id

theorem Ranked.acyclic {machine : Machine} (ranked : machine.Ranked) (id : EnvId) :
    ¬ Relation.TransGen machine.Forwards id id := by
  have descends {first last : EnvId} (path : Relation.TransGen machine.Forwards first last) :
      machine.complete.idxOf last < machine.complete.idxOf first := by
    induction path with
    | single forwards => exact ranked _ _ forwards
    | tail _ forwards ih => exact (ranked _ _ forwards).trans ih
  intro cycle
  exact lt_irrefl _ (descends cycle)

/-- Along ranked forwards, a search ends within one module more than are complete. -/
theorem Ranked.search_ends {α : Type} {machine : Machine} (ranked : machine.Ranked) (sigil : String)
    (library : String → String → Option α) (own : Environment → String → Option α) {depth : Nat}
    {module_ : ModuleRef} (name : String)
    (enough : ∀ {id}, module_ = .user id → machine.complete.idxOf id + 2 ≤ depth) (some : 0 < depth) :
    machine.search? sigil library own depth module_ name ≠ none := by
  induction depth generalizing module_ name with
  | zero => omega
  | succ depth ih =>
    cases module_ with
    | builtin source => exact Option.some_ne_none _
    | user id =>
      have bound := enough rfl
      unfold search?
      split
      · exact Option.some_ne_none _
      · apply searchForwards_ends
        intro forward listed inner
        apply ih
        · intro other same
          have lower := ranked id other ⟨forward, listed, same⟩
          omega
        · omega

section Ranking

variable {machine next : Machine} {id : EnvId} {path : String}

theorem mem_complete_iff (distinct : machine.modules.names.Nodup) :
    id ∈ machine.complete ↔ machine.IsLoaded id := by
  constructor
  · intro member
    obtain ⟨⟨path, _⟩, listed, rfl⟩ := List.mem_map.mp member
    exact ⟨path, Bindings.get?_of_mem distinct listed⟩
  · rintro ⟨path, found⟩
    exact Bindings.mem_values_of_get? found

theorem Ranked.congr (ranked : machine.Ranked)
    (forwards : ∀ id, (next.environment id).forwards = (machine.environment id).forwards)
    (modules : next.modules = machine.modules) : next.Ranked := by
  intro id other passed
  have same : next.complete = machine.complete := congrArg Bindings.values modules
  rw [same]
  apply ranked
  rwa [Forwards, ← forwards]

/-- A change of one environment that leaves its forwards. -/
theorem forwards_modify (machine : Machine) (id : EnvId) {f : Environment → Environment}
    (kept : ∀ environment, (f environment).forwards = environment.forwards) (other : EnvId) :
    ((machine.modifyEnvironment id f).environment other).forwards =
      (machine.environment other).forwards := by
  by_cases apart : other = id
  · subst apart
    by_cases real : other < machine.environments.size
    · rw [environment_modify_self f real, kept]
    · rw [environment_modify_beyond f real]
  · rw [environment_modify_of_ne machine f apart]

/-- A module that is not complete may forward one that is. -/
theorem Ranked.passOn (ranked : machine.Ranked) {forward : Forward}
    (offered : machine.Offers forward.module_) (incomplete : machine.env ∉ machine.complete) :
    (machine.passOn forward).Ranked := by
  intro id other passed
  change machine.complete.idxOf other < machine.complete.idxOf id
  by_cases apart : id = machine.env
  · subst apart
    obtain ⟨own, listed, target⟩ := passed
    by_cases real : machine.env < machine.environments.size
    · rw [Machine.passOn, environment_modify_self _ real] at listed
      rcases List.mem_append.mp listed with old | added
      · exact ranked _ _ ⟨own, old, target⟩
      · obtain rfl := List.mem_singleton.mp added
        rw [target] at offered
        obtain ⟨path, found⟩ := offered
        rw [List.idxOf_eq_length incomplete, List.idxOf_lt_length_iff]
        exact Bindings.mem_values_of_get? found
    · rw [Machine.passOn, environment_modify_beyond _ real] at listed
      exact ranked _ _ ⟨own, listed, target⟩
  · apply ranked
    rwa [Forwards, Machine.passOn, environment_modify_of_ne _ _ apart] at passed

/-- A module that becomes complete comes behind all that it forwards. -/
theorem Ranked.learn (ranked : machine.Ranked)
    (behind : (machine.learn path id).complete = machine.complete ++ [id]) :
    (machine.learn path id).Ranked := by
  intro first second passed
  have old : machine.complete.idxOf second < machine.complete.idxOf first := ranked first second passed
  have listed : second ∈ machine.complete := by
    rw [← List.idxOf_lt_length_iff]
    exact old.trans_le List.idxOf_le_length
  rw [behind, List.idxOf_append_of_mem listed]
  by_cases complete : first ∈ machine.complete
  · rwa [List.idxOf_append_of_mem complete]
  · rw [List.idxOf_append_of_notMem complete]
    rw [List.idxOf_eq_length complete] at old
    omega

end Ranking

/-- The forwards of a state lead nowhere back, and every search for a member ends, within the bound that
it has. -/
structure Settled (machine : Machine) : Prop where
  acyclic : ∀ id, ¬ Relation.TransGen machine.Forwards id id
  ends : ∀ {α : Type} (sigil : String) (library : String → String → Option α)
    (own : Environment → String → Option α) (module_ : ModuleRef) (name : String),
    machine.search? sigil library own (machine.forwardDepth name) module_ name =
      some (machine.member? sigil library own (machine.forwardDepth name) module_ name)

end Machine

namespace Forwarding

open Eval (Seen)

variable (setup : Setup) (file : String)

/-- A state in which the forwards are in order. Outside of the bodies of mixins, the running module is
not complete, and neither is that of a block that may forward. -/
structure Ordered (inMixin : Bool) (realm : Realm) (machine : Machine) : Prop where
  seen : Seen setup .style (Machine.start file) realm machine
  ranked : machine.Ranked
  distinct : machine.complete.Nodup
  main : ¬ machine.IsLoaded 0
  stocked : machine.Stocked Orderly Quiet
  waiting : ∀ block env, (some block, env) ∈ machine.contents.map (fun content =>
    (content.block, content.env)) → Quiet block.body ∨ Orderly block.body ∧ ¬ machine.IsLoaded env
  running : realm = .style → inMixin = false → ¬ machine.IsLoaded machine.env

def conduct : Conduct Bool where
  admits inMixin node := Orderly [node] ∧ (inMixin = true → Quiet [node])
  good := Ordered setup file
  fine _ := True
  within := by
    rintro inMixin node ⟨orderly, quiet⟩ inner member
    have child := Statement.within_subset_children member
    exact ⟨orderly.inside child, fun mixin => (quiet mixin).inside child⟩
  bare _ := trivial

variable {setup file} {inMixin inside : Bool} {realm inner : Realm}
  {machine next start after : Machine} {exit : Machine → Machine → Prop}

theorem Ordered.linked (ordered : Ordered setup file inMixin realm machine) :
    ∃ outer, Linked outer machine := by
  obtain ⟨outer, met, -⟩ := ordered.seen
  exact ⟨outer, (Machine.invariant_linked setup).meets met (Machine.linked_start file)⟩

theorem Ordered.mem_complete_iff (ordered : Ordered setup file inMixin realm machine) {id : EnvId} :
    id ∈ machine.complete ↔ machine.IsLoaded id := by
  obtain ⟨outer, met, -⟩ := ordered.seen
  exact Machine.mem_complete_iff (Eval.loadsOnce_of_meets met).modules

/-- Moves keep what is around, and what becomes known is new. -/
theorem Ordered.keep (ordered : Ordered setup file inMixin realm machine)
    (moves : Moves setup realm machine next) (ranked : next.Ranked) (distinct : next.complete.Nodup)
    (stocked : next.Stocked Orderly Quiet) : Ordered setup file inMixin realm next := by
  obtain ⟨outer, linked⟩ := ordered.linked
  have unloaded {id : EnvId} (real : id < machine.environments.size) (unknown : ¬ machine.IsLoaded id) :
      ¬ next.IsLoaded id := by
    intro loaded
    rcases moves.loaded_cases loaded with early | late
    · exact unknown early
    · exact absurd real late.not_gt
  refine ⟨Eval.guard_seen.moves moves ordered.seen, ranked, distinct, ?_, stocked, ?_, ?_⟩
  · exact unloaded (Nat.zero_lt_of_lt linked.env) ordered.main
  · intro block env member
    rw [moves.blocks_eq] at member
    refine (ordered.waiting block env member).imp_right fun ⟨orderly, unknown⟩ => ⟨orderly, ?_⟩
    obtain ⟨content, listed, same⟩ := List.mem_map.mp member
    obtain rfl : content.env = env := congrArg Prod.snd same
    exact unloaded (linked.contents content listed) unknown
  · intro style outside
    rw [moves.env_eq]
    exact unloaded linked.env (ordered.running style outside)

/-- A change that leaves the forwards. -/
theorem Ordered.change (ordered : Ordered setup file inMixin realm machine)
    (change : Change realm machine next)
    (forwards : ∀ id, (next.environment id).forwards = (machine.environment id).forwards)
    (stocked : next.Stocked Orderly Quiet) : Ordered setup file inMixin realm next := by
  have same : next.complete = machine.complete := congrArg Bindings.values change.modules_eq
  apply ordered.keep (.change change) (ordered.ranked.congr forwards change.modules_eq) _ stocked
  rw [same]
  exact ordered.distinct

/-- A module that becomes complete was not so before, and comes behind all others. -/
theorem Ordered.complete_learn (ordered : Ordered setup file inMixin .style machine) {sheet : LoadedFile}
    {configured : Bindings Value} (unknown : machine.modules.get? sheet.path = none)
    (moves : Moves setup .style (machine.enterModule sheet.path configured) after)
    (within : Ordered setup file inside .style after) :
    machine.environments.size ∉ after.complete ∧
      (after.learn sheet.path machine.environments.size).complete =
        after.complete ++ [machine.environments.size] := by
  constructor
  · rw [within.mem_complete_iff]
    intro loaded
    obtain ⟨outer, linked⟩ := ordered.linked
    rcases moves.loaded_cases loaded with early | late
    · exact lt_irrefl _ (linked.modules early)
    · simp [Machine.enterModule] at late
  · have behind := moves.learns.complete (List.mem_cons_self ..)
      (Bindings.get?_eq_none_iff.mp unknown) machine.environments.size
    rw [Machine.complete, behind]
    exact List.map_append

/-- At the exit of a place the forwards are in order. -/
theorem Ordered.leave (ordered : Ordered setup file inMixin realm machine)
    (place : Place setup realm machine inner start exit) (moves : Moves setup inner start after)
    (within : Ordered setup file inside inner after) (left : exit after next) :
    Ordered setup file inMixin realm next := by
  have stocked := within.stocked.congr (place.definitions_eq left)
  have whole : Moves setup realm machine next := .place place moves left
  cases place with
  | frame | selector | media | function | mixin | file =>
    subst left
    exact ordered.keep whole within.ranked within.distinct stocked
  | content =>
    obtain ⟨-, rfl⟩ := left
    exact ordered.keep whole within.ranked within.distinct stocked
  | @module _ url sheet found unknown unopened configured complete =>
    subst left
    cases complete with
    | false => exact ordered.keep whole within.ranked within.distinct stocked
    | true =>
      obtain ⟨fresh, behind⟩ := ordered.complete_learn unknown moves within
      have ranked : (after.learn sheet.path machine.environments.size).Ranked :=
        within.ranked.learn behind
      have distinct : (after.learn sheet.path machine.environments.size).complete.Nodup := by
        rw [behind]
        exact List.nodup_append.mpr ⟨within.distinct, List.nodup_singleton _, by
          rintro id listed _ last rfl
          exact fresh (List.mem_singleton.mp last ▸ listed)⟩
      exact ordered.keep whole ranked distinct stocked

theorem Ordered.passage (ordered : Ordered setup file inMixin realm machine)
    (place : Place setup realm machine inner start exit)
    (entered : Ordered setup file inside inner start) :
    (conduct setup file).Passage setup inMixin realm inside inner start exit where
  enter := entered
  leave moves within left := ordered.leave place moves within left

/-- A place that starts with the same modules. -/
theorem Ordered.enter (ordered : Ordered setup file inMixin realm machine)
    (place : Place setup realm machine inner start exit)
    (environments : start.environments = machine.environments)
    (modules : start.modules = machine.modules)
    (waiting : ∀ block env, (some block, env) ∈ start.contents.map (fun content =>
      (content.block, content.env)) → Quiet block.body ∨ Orderly block.body ∧ ¬ machine.IsLoaded env)
    (running : inner = .style → inside = false → ¬ machine.IsLoaded start.env) :
    (conduct setup file).Passage setup inMixin realm inside inner start exit := by
  have loaded (id : EnvId) : start.IsLoaded id ↔ machine.IsLoaded id := by
    rw [Machine.IsLoaded, Machine.IsLoaded, modules]
  have complete : start.complete = machine.complete := congrArg Bindings.values modules
  have definitions : start.definitions = machine.definitions := by
    rw [Machine.definitions, environments, Machine.definitions]
  apply ordered.passage place
  constructor
  · exact ordered.seen.enter place
  · apply ordered.ranked.congr _ modules
    intro id
    rw [Machine.environment_congr environments]
  · rw [complete]
    exact ordered.distinct
  · rw [loaded]
    exact ordered.main
  · exact ordered.stocked.congr definitions
  · intro block env member
    rw [loaded]
    exact waiting block env member
  · intro style outside
    rw [loaded]
    exact running style outside

/-- A place for the same statements. -/
theorem Ordered.stay (ordered : Ordered setup file inMixin realm machine)
    (place : Place setup realm machine realm start exit)
    (environments : start.environments = machine.environments)
    (modules : start.modules = machine.modules) (contents : start.contents = machine.contents)
    (env : start.env = machine.env) :
    (conduct setup file).Passage setup inMixin realm inMixin realm start exit := by
  apply ordered.enter place environments modules
  · rw [contents]
    exact ordered.waiting
  · rw [env]
    exact ordered.running

/-- A new module forwards nothing, and is not complete. -/
theorem Ordered.enterModule (ordered : Ordered setup file inMixin .style machine) {path : String}
    {configured : Bindings Value}
    (place : Place setup .style machine .style (machine.enterModule path configured) exit) :
    (conduct setup file).Passage setup inMixin .style false .style (machine.enterModule path configured)
      exit := by
  obtain ⟨outer, linked⟩ := ordered.linked
  apply ordered.passage place
  refine ⟨ordered.seen.enter place, ?_, ordered.distinct, ordered.main,
    ordered.stocked.enterModule path configured, ordered.waiting, ?_⟩
  · rintro id other ⟨forward, listed, target⟩
    by_cases new : id = machine.environments.size
    · rw [new, Machine.environment_enterModule_self] at listed
      cases listed
    · rw [Machine.environment_enterModule_of_ne new] at listed
      exact ordered.ranked id other ⟨forward, listed, target⟩
  · intro _ _ loaded
    exact lt_irrefl _ (linked.modules loaded)

theorem kept (files : ∀ address sheet nodes, setup.loader.load address = .ok sheet →
      Eval.statementsOf sheet = .ok nodes → Orderly nodes) (right : Perform) :
    (conduct setup file).Kept setup right where
  value ordered := { ordered with seen := Eval.guard_seen.value ordered.seen, running := nofun }
  behind moves ordered within :=
    ordered.keep (moves.ofValue _) within.ranked within.distinct within.stocked
  located _ _ _ _ _ := trivial
  raised _ _ _ _ := trivial
  unhandled _ := trivial
  change := by
    intro inMixin realm machine next change same ordered
    apply ordered.change change _ (ordered.stocked.congr same)
    intro id
    obtain ⟨-, -, -, -, forwards⟩ := Environment.definitions_eq_iff.mp
      (Machine.environment_definitions_congr same id)
    exact forwards
  defineFunction := by
    rintro inMixin name params body line machine ⟨orderly, -⟩ ordered
    apply ordered.change (.defineFunction machine name params body)
    · exact machine.forwards_modify _ fun _ => rfl
    · apply ordered.stocked.defineFunction
      exact orderly.child (List.mem_singleton_self _)
  defineMixin := by
    rintro inMixin node body machine ⟨orderly, -⟩ defined ordered name params
    apply ordered.change (.defineMixin machine name params body)
    · exact machine.forwards_modify _ fun _ => rfl
    · apply ordered.stocked.defineMixin
      exact orderly.self body defined
  use := by
    intro inMixin machine module_ offered ordered name
    apply ordered.change (.use offered name)
    · apply machine.forwards_modify
      intro environment
      split <;> rfl
    · exact ordered.stocked.useAs name module_
  forward := by
    rintro inMixin url affix filter line machine module_ ⟨-, quiet⟩ offered ordered
    have passed : Change .style machine (machine.passOn ⟨module_, affix, filter⟩) := .forward offered
    have outside : inMixin = false := by
      by_contra mixin
      have silent := (quiet (by simpa using mixin)).self
      cases silent
    have incomplete : machine.env ∉ machine.complete := by
      rw [ordered.mem_complete_iff]
      exact ordered.running rfl outside
    exact ordered.keep (.change passed) (ordered.ranked.passOn offered incomplete) ordered.distinct
      (ordered.stocked.passOn _)
  frame mode semiGlobal ordered := ordered.stay (.frame mode _ semiGlobal) rfl rfl rfl rfl
  outside ordered := ordered.stay (.selector _ none) rfl rfl rfl rfl
  function := by
    intro inMixin realm machine qualifier name function found ordered
    have orderly := ordered.stocked.function? found
    refine ⟨false, ?_, ?_⟩
    · intro node member
      exact ⟨orderly.alone member, nofun⟩
    · exact ordered.enter (.function realm found) rfl rfl ordered.waiting nofun
  module := by
    intro inMixin node url machine sheet nodes configured _ _ found unknown unopened parsed ordered
    obtain ⟨address, loaded⟩ := Eval.findSheet_loads found
    have orderly : Orderly nodes := files address sheet nodes loaded parsed
    refine ⟨false, ?_, ?_⟩
    · intro node member
      exact ⟨orderly.alone member, nofun⟩
    · intro complete
      exact ordered.enterModule (.module found unknown unopened configured complete)
  file := by
    rintro inMixin urls line url machine sheet nodes ⟨-, quiet⟩ named found unopened parsed ordered
    have outside : inMixin = false := by
      by_contra mixin
      have silent := (quiet (by simpa using mixin)).self
      cases silent
    subst outside
    obtain ⟨address, loaded⟩ := Eval.findSheet_loads found
    have orderly : Orderly nodes := files address sheet nodes loaded parsed
    refine ⟨false, ?_, ordered.stay (.file found unopened) rfl rfl rfl rfl⟩
    intro node member
    exact ⟨orderly.alone member, nofun⟩

theorem opened : (conduct setup file).Open setup where
  inside := by
    rintro inMixin node body ⟨orderly, quiet⟩ block inner member
    have child := Statement.block_subset_children block member
    exact ⟨orderly.inside child, fun mixin => (quiet mixin).inside child⟩
  selector selector ordered := ordered.stay (.selector _ selector) rfl rfl rfl rfl
  media query ordered := ordered.stay (.media _ query) rfl rfl rfl rfl

theorem lawful (files : ∀ address sheet nodes, setup.loader.load address = .ok sheet →
      Eval.statementsOf sheet = .ok nodes → Orderly nodes) : (conduct setup file).Lawful setup where
  kept _ := kept files _
  mixin := by
    rintro inMixin machine qualifier name args content line mixin ⟨orderly, quiet⟩ found ordered
    have silent : Quiet mixin.body := ordered.stocked.mixin? found
    refine ⟨true, ?_, ordered.enter (.mixin found content) rfl rfl ?_ nofun⟩
    · intro node member
      exact ⟨silent.orderly.alone member, fun _ => silent.alone member⟩
    · intro block env member
      rcases List.mem_cons.mp member with own | waiting
      · obtain ⟨rfl, rfl⟩ : content = some block ∧ machine.env = env := by
          simpa [eq_comm] using own
        have here := List.mem_singleton_self (Statement.includeMixin qualifier name args (some block) line)
        cases inMixin with
        | true => exact .inl ((quiet rfl).child here)
        | false => exact .inr ⟨orderly.child here, ordered.running rfl rfl⟩
      · exact ordered.waiting block env waiting
  content := by
    rintro inMixin args line machine content outer block - handed given ordered
    have waiting := ordered.waiting
    rw [handed, List.map_cons, given] at waiting
    have others : ∀ block env, (some block, env) ∈ outer.map (fun content =>
        (content.block, content.env)) → Quiet block.body ∨ Orderly block.body ∧ ¬ machine.IsLoaded env :=
      fun block env member => waiting block env (List.mem_cons_of_mem _ member)
    rcases waiting block content.env (List.mem_cons_self ..) with quiet | ⟨orderly, unloaded⟩
    · refine ⟨true, ?_, ordered.enter (.content handed given) rfl rfl others nofun⟩
      intro node member
      exact ⟨quiet.orderly.alone member, fun _ => quiet.alone member⟩
    · refine ⟨false, ?_, ordered.enter (.content handed given) rfl rfl others fun _ _ => unloaded⟩
      intro node member
      exact ⟨orderly.alone member, nofun⟩

theorem ordered_start (setup : Setup) (file : String) :
    Ordered setup file false .style (Machine.start file) where
  seen := ⟨.style, .here .style _, .inr rfl⟩
  ranked := by
    rintro id other ⟨forward, listed, -⟩
    cases id <;> cases listed
  distinct := List.nodup_nil
  main := nofun
  stocked := .start file
  waiting := nofun
  running _ _ := nofun

/-- Fewer modules are complete than there are: the main one never is. -/
theorem Ordered.length_complete (ordered : Ordered setup file inMixin realm machine) :
    machine.complete.length < machine.environments.size := by
  obtain ⟨outer, linked⟩ := ordered.linked
  have apart : 0 ∉ machine.complete := by
    rw [ordered.mem_complete_iff]
    exact ordered.main
  have distinct : (0 :: machine.complete).Nodup := List.nodup_cons.mpr ⟨apart, ordered.distinct⟩
  have within : 0 :: machine.complete ⊆ List.range machine.environments.size := by
    intro id member
    rw [List.mem_range]
    rcases List.mem_cons.mp member with rfl | listed
    · exact Nat.zero_lt_of_lt linked.env
    · exact linked.modules (ordered.mem_complete_iff.mp listed)
  have bound := (List.subperm_of_subset distinct within).length_le
  rwa [List.length_range, List.length_cons] at bound

theorem Ordered.settled (ordered : Ordered setup file inMixin realm machine) : machine.Settled where
  acyclic := ordered.ranked.acyclic
  ends := by
    intro α sigil library own module_ name
    have bound : machine.complete.length + 2 ≤ machine.forwardDepth name := by
      have shorter := ordered.length_complete
      have grows : machine.environments.size ≤ machine.environments.size * (name.length + 1) :=
        Nat.le_mul_of_pos_right _ (Nat.succ_pos _)
      unfold Machine.forwardDepth
      omega
    have ends : machine.search? sigil library own (machine.forwardDepth name) module_ name ≠ none := by
      apply ordered.ranked.search_ends
      · intro id _
        have place : machine.complete.idxOf id ≤ machine.complete.length := List.idxOf_le_length
        omega
      · omega
    obtain ⟨result, found⟩ := Option.ne_none_iff_exists'.mp ends
    rw [found, Machine.member?_of_search? found]

end Forwarding

namespace Eval

/-- The graph of forwards has no cycle, so searches for variables, functions and mixins end: in every
state in which a job or a statement of a compilation starts, if no mixin of its files forwards or
imports. -/
theorem forwards_settled (setup : Setup) (file : String) (nodes : List Statement)
    (orderly : Orderly nodes)
    (files : ∀ address sheet inside, setup.loader.load address = .ok sheet →
      statementsOf sheet = .ok inside → Orderly inside) (alarm : Perform) (depth : Nat) :
    sheet (observed setup Machine.Settled alarm depth) nodes (Machine.start file) =
      sheet (perform setup depth) nodes (Machine.start file) := by
  have admitted : ∀ node ∈ nodes, (Forwarding.conduct setup file).admits false node := by
    intro node member
    exact ⟨orderly.alone member, nofun⟩
  have obeys := chunks_obeys (Forwarding.lawful files) Forwarding.opened Forwarding.Ordered.settled alarm
    depth admitted (Machine.start file) (Forwarding.ordered_start setup file)
  unfold sheet
  rw [Run.bind_apply, Run.bind_apply, obeys.same]

theorem forwards_settled_library :
    let files := [("a.scss", "$y: auto; @mixin m \x7b top: $y; \x7d"), ("b.scss", "@forward \"a\" as x-*;")]
    let setup := (Compiler.create {} (Loader.memory files)).setup
    let nodes := ((Grammar.stylesheet
      "@use \"b\"; .r \x7b @include b.x-m; left: b.$x-y; \x7d").toOption).getD []
    sheet (observed setup Machine.Settled (perform setup 0) 50) nodes (Machine.start "c.scss") =
      sheet (perform setup 50) nodes (Machine.start "c.scss") ∧
    (sheet (perform setup 50) nodes (Machine.start "c.scss")).1.toOption =
      some ".r \x7b\n  top: auto;\n  left: auto;\n\x7d\n" := by
  intro files setup nodes
  have main : Orderly nodes := .of_everywhere 5 (by decide +kernel)
  have checked : files.all (fun file => (statementsOf ⟨file.1, file.2⟩).toOption.all
      (everywhere (Statement.hasQuietMixin 5) 5)) = true := by decide +kernel
  have library : ∀ address sheet inside, (Loader.memory files).load address = .ok sheet →
      statementsOf sheet = .ok inside → Orderly inside :=
    fun _ _ _ loaded parsed => .of_everywhere 5 (check_of_memory checked loaded parsed)
  have same : setup.loader = Loader.memory files := rfl
  rw [← same] at library
  have settled := forwards_settled setup "c.scss" nodes main library (perform setup 0) 50
  have written : (sheet (perform setup 50) nodes (Machine.start "c.scss")).1.toOption =
      some ".r \x7b\n  top: auto;\n  left: auto;\n\x7d\n" := by
    decide +kernel
  exact ⟨settled, written⟩

/-- A mixin that forwards its own module, run when the module is complete, closes a cycle. -/
theorem forwards_cycle :
    let setup := (Compiler.create {} (Loader.memory
      [("a.scss", "$y: auto;\n@mixin m \x7b @forward \"a\" as x-*; \x7d\n")])).setup
    let nodes := ((Grammar.stylesheet
      "@use \"a\";\n@include a.m;\n.r \x7b v: a.$x-y; \x7d\n").toOption).getD []
    let outcome := stylesheet setup nodes (Machine.start "input.scss")
    outcome.1.toOption = some ".r \x7b\n  v: auto;\n\x7d\n" ∧
    outcome.2.IsLoaded 1 ∧ Relation.TransGen outcome.2.Forwards 1 1 := by
  intro setup nodes outcome
  have written : outcome.1.toOption = some ".r \x7b\n  v: auto;\n\x7d\n" := by decide +kernel
  have loaded : outcome.2.modules.get? "a.scss" = some 1 := by decide +kernel
  have passed : ∃ forward ∈ (outcome.2.environment 1).forwards, forward.module_ = .user 1 := by
    decide +kernel
  exact ⟨written, ⟨"a.scss", loaded⟩, .single passed⟩

end Eval

end Scss
