import Scss.Proofs.Capabilities
import Scss.Proofs.Conduct.Runs

/-! Faults of configuration. Handlers are configured wrongly only where the services lack something
that the handler requires; this is told at once. The evaluator lends its services in full and every
kind of rule has a handler, so a stylesheet never fails for its configuration. -/
namespace Scss

def Conduct.configured : Conduct Unit where
  admits _ _ := True
  good _ _ _ := True
  fine fault := ∀ own, fault ≠ .configuration own
  within _ _ _ := trivial
  bare := by
    intro fault bare own same
    subst same
    exact bare

namespace Conduct

theorem fine_locate {fault : Fault} (fine : configured.fine fault) (file : String) (line : Nat) :
    configured.fine (fault.locate file line) := by
  intro own same
  cases fault with
  | configuration other => exact fine other rfl
  | lexical | grammar | evaluation | exhausted | torn => cases same

/-- Nothing is asked of states, so places lead to good ones. -/
theorem configured_passage {setup : Setup} {realm inner : Realm} {start : Machine}
    {exit : Machine → Machine → Prop} : configured.Passage setup () realm () inner start exit :=
  ⟨trivial, fun _ _ _ => trivial⟩

variable {setup : Setup}

theorem configured_kept (complete : setup.strategies = Strategy.all) (depth : Nat) :
    configured.Kept setup (fun job => Eval.perform setup depth job) where
  value _ := trivial
  behind _ _ _ := trivial
  located _ _ _ _ fine := fine_locate fine _ _
  raised _ _ _ text := by
    apply fine_locate
    exact fun _ same => nomatch same
  unhandled := by
    intro kind none
    obtain ⟨strategy, found⟩ := Strategy.exists_find?_all kind
    rw [complete, found] at none
    cases none
  change _ _ _ := trivial
  defineFunction _ _ := trivial
  defineMixin _ _ _ _ _ := trivial
  use _ _ _ := trivial
  forward _ _ _ := trivial
  frame _ _ _ := configured_passage
  outside _ := configured_passage
  function _ _ := ⟨(), fun _ _ => trivial, configured_passage⟩
  module _ _ _ _ _ _ _ := ⟨(), fun _ _ => trivial, fun _ => configured_passage⟩
  file _ _ _ _ _ _ := ⟨(), fun _ _ => trivial, configured_passage⟩

theorem configured_opened : configured.Open setup where
  inside _ _ _ _ := trivial
  selector _ _ := configured_passage
  media _ _ := configured_passage

theorem configured_lawful (complete : setup.strategies = Strategy.all) :
    configured.Lawful setup where
  kept := configured_kept complete
  mixin _ _ _ := ⟨(), fun _ _ => trivial, configured_passage⟩
  content _ _ _ _ := ⟨(), fun _ _ => trivial, configured_passage⟩

end Conduct

/-- With all the handlers, a stylesheet does not fail for its configuration. -/
theorem Eval.sheet_equipped {setup : Setup} (complete : setup.strategies = Strategy.all) (depth : Nat)
    (nodes : List Statement) : Equipped (sheet (perform setup depth) nodes) := by
  have parts : Equipped (chunks (perform setup depth) nodes) := by
    intro before fault failed
    have obeys : Run.Obeys setup Conduct.configured () .style
        (chunks (observed setup (fun _ => True) (perform setup depth) depth) nodes) _ :=
      chunks_obeys (Conduct.configured_lawful complete) Conduct.configured_opened (fun _ => trivial)
        (perform setup depth) depth fun _ _ => trivial
    exact (obeys before trivial).ends.fine _ failed fault rfl
  unfold sheet
  refine parts.bind fun parts => ?_
  intro before fault failed
  cases failed

/-- A handler fails for its configuration exactly if the services, which do not do so themselves,
lack something that it requires. It then fails at once: as a computation it is nothing but the fault,
which names what is missing. With the services of the evaluator, no stylesheet fails so. -/
theorem Strategy.missing_exactly :
    (∀ {σ : Type} (services : Services (ExceptT Fault (StateM σ))), services.Equipped →
      ∀ (node : Statement) (kind : String), node.kind? = some kind →
      ∃ strategy, find? all kind = some strategy ∧ ∀ (parent : Option String) (level : Nat),
        let compiled := dispatch all services node parent level
        (∀ before,
          (∃ handler missing,
            (compiled before).1 = .error (.configuration (.missingCapability handler missing))) ↔
          ∃ capability ∈ strategy.required, capability ∉ services.capabilities) ∧
        ∀ before fault, (compiled before).1 = .error (.configuration fault) →
          compiled = throw (.configuration fault) ∧
          ∃ capability ∈ strategy.required, capability ∉ services.capabilities ∧
            fault = .missingCapability strategy.name capability.text) ∧
    ∀ (setup : Setup) (nodes : List Statement),
      Equipped (Eval.stylesheet { setup with strategies := all } nodes) := by
  refine ⟨?_, fun setup nodes => Eval.sheet_equipped rfl _ nodes⟩
  intro σ services equipped node kind named
  obtain ⟨strategy, found⟩ := exists_find?_all kind
  refine ⟨strategy, found, fun parent level => ?_⟩
  rw [dispatch_eq named found]
  dsimp only
  cases lacks : Capability.missing? strategy.required services.capabilities with
  | none =>
    have silent := run_equipped equipped lacks node parent level
    have provided := Capability.missing?_eq_none.mp lacks
    refine ⟨fun before => ⟨?_, ?_⟩, fun before fault failed => absurd failed (silent before fault)⟩
    · rintro ⟨handler, missing, failed⟩
      exact absurd failed (silent before _)
    · rintro ⟨capability, required, absent⟩
      exact absurd (provided capability required) absent
  | some capability =>
    obtain ⟨required, absent⟩ := Capability.missing?_eq_some lacks
    rw [run_missing lacks]
    refine ⟨fun before => ⟨fun _ => ⟨capability, required, absent⟩, fun _ => ⟨_, _, rfl⟩⟩, ?_⟩
    intro before fault failed
    cases failed
    exact ⟨rfl, capability, required, absent, rfl⟩

/-- Services that count how often they are asked for something, and lack the format of values. -/
def Services.counting : Services (ExceptT Fault (StateM Nat)) where
  capabilities := [.evaluate, .declarations, .blocks, .interpolation]
  evaluate _ := modify (· + 1) *> pure .null
  formatDeclarations lines _ := Text.join "\n" lines
  compileBody _ _ _ := modify (· + 1) *> pure .empty
  hoist _ := modify (· + 1)
  interpolate _ := modify (· + 1) *> pure ""
  format _ := ""
  registerMixin _ _ _ := modify (· + 1)

theorem Services.counting_equipped : counting.Equipped where
  evaluate _ := nofun
  compileBody _ _ _ := nofun
  hoist _ := nofun
  interpolate _ := nofun
  registerMixin _ _ _ := nofun

theorem Strategy.missing_exactly_format :
    let node : Statement := .supports (.literal "(gap: 1px)" 1) [] 1
    let compiled := dispatch all Services.counting node none 0
    Services.counting.Equipped ∧ node.kind? = some "supports" ∧
      compiled 0 = (.error (.configuration (.missingCapability "conditional" "value formatter")), 0) ∧
      compiled = throw (.configuration (.missingCapability "conditional" "value formatter")) := by
  have kind : (Statement.supports (.literal "(gap: 1px)" 1) [] 1).kind? = some "supports" := rfl
  obtain ⟨strategy, found, exactly⟩ :=
    Strategy.missing_exactly.1 Services.counting Services.counting_equipped _ _ kind
  exact ⟨Services.counting_equipped, kind, rfl, ((exactly none 0).2 0 _ rfl).1⟩

end Scss
