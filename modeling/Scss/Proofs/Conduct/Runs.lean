import Scss.Proofs.Moves.Watch

/-! Runs that keep to a conduct, however deep their jobs nest. An observed run looks at the state in
which each job, and each statement of a block, starts. Where that is not as expected, anything may
happen instead; so an observed run that does what the plain run does, whatever the alarm, is one in
which everything starts as expected. -/
namespace Scss

open Machine (Moves Place)

variable {Role : Type} {conduct : Conduct Role} {setup : Setup}

/-- A conduct that is kept where mixins and the blocks that wait for them run, too. -/
structure Conduct.Lawful (conduct : Conduct Role) (setup : Setup) : Prop where
  kept : ∀ depth, conduct.Kept setup (fun job => Eval.perform setup depth job)
  mixin : ∀ {role machine qualifier name args content line mixin},
    conduct.admits role (.includeMixin qualifier name args content line) →
    machine.mixin? qualifier name = .ok (some mixin) → conduct.good role .style machine →
    ∃ inside, (∀ node ∈ mixin.body, conduct.admits inside node) ∧
      conduct.Passage setup role .style inside .style (machine.enterMixin mixin.env content)
        fun after next => next = machine.leaveMixin after
  content : ∀ {role args line machine content outer block},
    conduct.admits role (.contentSlot args line) → machine.contents = content :: outer →
    content.block = some block → conduct.good role .style machine →
    ∃ inside, (∀ node ∈ block.body, conduct.admits inside node) ∧
      conduct.Passage setup role .style inside .style (machine.enterContent content outer)
        fun after next =>
          Machine.RunsBlock setup block (machine.enterContent content outer) after ∧
          next = machine.leaveContent content after

theorem Machine.Guard.lawful (guard : Machine.Guard setup fun _ _ => True) :
    (Conduct.ofGood fun _ _ => True).Lawful setup where
  kept _ := guard.kept
  mixin _ found _ := ⟨(), fun _ _ => trivial, guard.passage (.mixin found _) trivial trivial⟩
  content _ handed given _ :=
    ⟨(), fun _ _ => trivial, guard.passage (.content handed given) trivial trivial⟩

/-- A computation that an alarm takes over if its first state is not as expected. -/
noncomputable def Run.checked {α : Type} (expected : Machine → Prop) (alarm action : Run α) : Run α :=
  open Classical in fun before => if expected before then action before else alarm before

namespace Eval

open Run (Obeys ObeysAt)

section Observing

variable (setup : Setup) (expected : Machine → Prop) (alarm : Perform)

/-- Perform a job, given how the jobs inside it are performed, and look at the first state of each
statement. -/
noncomputable def stepObserved (self : Perform) {α : Type} : Job α → Run α
  | .block mode nodes =>
    Run.untilReturn
      (fun node => Run.checked expected (alarm (.block mode [node])) (statement setup self mode node))
      nodes
  | job => step setup self job

noncomputable def observed : Nat → Perform
  | 0, _, job => Run.checked expected (alarm job) (perform setup 0 job)
  | depth + 1, _, job =>
    Run.checked expected (alarm job)
      (stepObserved setup expected alarm (fun inner => observed depth inner) job)

end Observing

variable {expected : Machine → Prop} {alarm : Perform} {role : Role} {realm : Realm}

/-- From good states, a check passes. -/
theorem checked_obeys {α : Type} {action other instead : Run α}
    (starts : ∀ {machine}, conduct.good role realm machine → expected machine)
    (obeys : Obeys setup conduct role realm action other) :
    Obeys setup conduct role realm (Run.checked expected instead action) other := by
  intro before holds
  have plain : Run.checked expected instead action before = action before := if_pos (starts holds)
  obtain ⟨same, ends⟩ := obeys before holds
  exact ⟨plain.trans same, ends⟩

variable (lawful : conduct.Lawful setup)

include lawful

theorem served_of_lawful {left : Perform} {depth : Nat}
    (inner : ∀ (role : Role) {α : Type} (job : Job α), (conduct.regime role).Fits job →
      Obeys setup conduct role job.realm (left job) (perform setup depth job)) :
    conduct.Served setup left (fun job => perform setup depth job) where
  toKept := lawful.kept depth
  mixin := lawful.mixin
  content := by
    intro role args line machine content outer block values level admitted handed given holds
    obtain ⟨inside, bodies, passage⟩ := lawful.content admitted handed given holds
    have logic := (lawful.kept depth).logic (inner inside)
    obtain ⟨same, moves, good, calm⟩ :=
      runBlock_related logic block bodies values level _ passage.enter
    have runs : Machine.RunsBlock setup block (machine.enterContent content outer)
        (runBlock (perform setup depth) block values level (machine.enterContent content outer)).2 :=
      ⟨depth, values, level, rfl⟩
    refine ⟨fun after => conduct.good inside .style after ∧
        Machine.RunsBlock setup block (machine.enterContent content outer) after,
      ⟨same, moves, ⟨good, runs⟩, calm⟩, ?_⟩
    rintro after moves ⟨good, runs⟩
    exact passage.leave moves good ⟨runs, rfl⟩

variable (opened : conduct.Open setup)

include opened

/-- An observed job keeps to the conduct and does what the plain one does, if everything is expected
in good states. -/
theorem observed_obeys
    (starts : ∀ {role realm machine}, conduct.good role realm machine → expected machine)
    (depth : Nat) (role : Role) {α : Type} (job : Job α) (fits : (conduct.regime role).Fits job) :
    Obeys setup conduct role job.realm (observed setup expected alarm depth job)
      (perform setup depth job) := by
  induction depth generalizing role α with
  | zero =>
    apply checked_obeys starts
    intro before holds
    exact .throw (conduct.bare trivial) holds
  | succ depth ih =>
    have logic : BlockLogic setup (conduct.regime role) _ (fun job => perform setup depth job)
        (Obeys setup conduct role) :=
      blockLogic_of_conduct (served_of_lawful lawful ih) ih opened
    apply checked_obeys starts
    cases job with
    | block mode nodes =>
      apply logic.untilReturn_mem
      intro node member
      exact checked_obeys starts (statement_related logic mode (fits node member) fun _ => trivial)
    | evaluate | calculate | call | declare | «repeat» => exact step_related logic fits trivial

/-- So does an observed stylesheet. -/
theorem chunks_obeys
    (starts : ∀ {role realm machine}, conduct.good role realm machine → expected machine)
    (alarm : Perform) (depth : Nat) {nodes : List Statement}
    (admitted : ∀ node ∈ nodes, conduct.admits role node) :
    Obeys setup conduct role .style (chunks (observed setup expected alarm depth) nodes)
      (chunks (perform setup depth) nodes) :=
  chunks_related
    ((lawful.kept depth).logic fun job fits =>
      observed_obeys lawful opened starts depth role job fits)
    admitted

end Eval

end Scss
