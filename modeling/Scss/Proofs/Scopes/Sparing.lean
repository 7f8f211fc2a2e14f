import Scss.Proofs.Scopes.Globals

/-! The evaluator spares a name of a module where all writes to it with `!global` are left out: what is
assigned from inside a block is named by the block or has a name before, and whatever runs for a module
that is there runs inside a block. -/
namespace Scss.Eval

open Run (Sparing)

def Regime.sparing : Regime :=
  ⟨fun _ => True, fun _ => True, False, fun _ _ _ => trivial, fun _ => trivial⟩

variable {setup : Setup} {self : Perform} {id : EnvId} {name : String}

/-- Sparing a name goes along with the evaluator's ways. -/
theorem logic_sparing
    (inner : ∀ {α : Type} (job : Job α), Sparing id name job.realm (self job) (self job)) :
    Logic setup .sparing self self (Sparing id name) where
  pure _ := .same
  throw _ := .same
  bind := .bind
  tryCatch first handled := first.tryCatch fun fault => handled fault trivial
  located _ _ _ _ inside := inside.located
  raise _ _ _ _ _ := .same
  value inside := inside
  look _ each := .look each
  change changes _ _ keeps before :=
    .of_namesOf (changes before).reaches fun _ enclosed =>
      keeps.resolve_left not_false before id enclosed
  assignQualified mode qualifier other value before := by
    change Machine.Sparing id name before
      ((Run.ofCause (before.assignQualified qualifier other value) >>= _ : Run PUnit) before).2
    cases assigned : before.assignQualified qualifier other value with
    | error cause => exact .refl id name before
    | ok after =>
      have change := Machine.Change.assignQualified mode assigned
      exact .of_namesOf change.reaches fun _ _ => Machine.namesOf_assignQualified assigned id
  withFrame _ semiGlobal _ _ _ inside := inside.enclosed (fun _ _ => .frame semiGlobal)
    (fun _ => rfl) (fun _ _ _ => List.cons_ne_nil _ _) fun _ _ => rfl
  hoist css before := .of_namesOf (.hoist before css) fun _ _ => rfl
  withoutSelector inside := inside.enclosed (fun _ _ => .selector none) (fun _ => rfl)
    (fun _ enclosed => enclosed) fun _ _ => rfl
  job job _ := inner job
  unhandled _ := trivial

section Parts

variable (logic : Logic setup .sparing self self (Sparing id name))

include logic

theorem callUser_sparing (function : Callable) (args : CallArgs) :
    Sparing id name .value (callUser self function args) (callUser self function args) := by
  have body := runFunction_related logic function (fun _ _ => trivial) args
  have called : Sparing id name .value (Run.inFunction function.env (runFunction self function args))
      (Run.inFunction function.env (runFunction self function args)) :=
    body.enclosed (fun _ _ => .function function.env) (fun _ => rfl)
      (fun _ _ _ => List.cons_ne_nil _ _) fun _ _ => rfl
  refine logic.bind called fun outcome => ?_
  split
  · exact logic.pure _
  · exact logic.fail _

theorem invoke_sparing (qualifier : Option String) (function : String) (args : CallArgs) :
    Sparing id name .value (invoke setup self qualifier function args)
      (invoke setup self qualifier function args) := by
  refine .look fun machine => logic.bind (logic.ofCause _) fun target => ?_
  split
  · exact callUser_sparing logic _ args
  · exact callModule_related logic _ function args
  · split
    · exact logic.fail _
    · exact callGlobal_related logic function args

theorem includeMixin_sparing (qualifier : Option String) (mixin : String)
    (args : List (Argument Expr)) (block : Option (ContentBlock Statement)) (level : Nat) :
    Sparing id name .style (includeMixin self qualifier mixin args block level)
      (includeMixin self qualifier mixin args block level) := by
  refine .look fun machine => logic.bind (logic.ofCause _) fun target => ?_
  split
  · exact logic.fail _
  · rename_i callable
    refine logic.bind (logic.value (arguments_related logic args)) fun values => ?_
    have body := runMixin_related logic callable (fun _ _ => trivial) values level
    have included : Sparing id name .style
        (Run.inMixin callable.env block (runMixin self callable values level))
        (Run.inMixin callable.env block (runMixin self callable values level)) :=
      body.enclosed (fun _ _ => .mixin callable.env block) (fun _ => rfl)
        (fun _ _ _ => List.cons_ne_nil _ _) fun _ _ => rfl
    exact logic.bind included fun outcome => logic.pure _

/-- A block that waits runs in the frame on the top of those that wait. -/
theorem inContent_sparing (block : ContentBlock Statement) (values : CallArgs) (level : Nat)
    {machine : Machine} {content : ContentFrame} {outer : List ContentFrame}
    (handed : machine.contents = content :: outer) :
    Machine.Sparing id name machine
      (Run.inContent content (runBlock self block values level) machine).2 := by
  have body := runBlock_related logic block (fun _ _ => trivial) values level
    (machine.enterContent content outer)
  have left : (Run.inContent content (runBlock self block values level) machine).2 =
      machine.leaveContent content
        (runBlock self block values level (machine.enterContent content outer)).2 := by
    have tail : machine.contents.tail = outer := by rw [handed, List.tail_cons]
    rw [← tail]
    rfl
  rw [left]
  exact body.place (.content handed body.reaches)
    (fun real enclosed => ⟨real, fun _ => List.cons_ne_nil _ _, rfl⟩) rfl

theorem contentSlot_sparing (args : List (Argument Expr)) (level : Nat) :
    Sparing id name .style (contentSlot self args level) (contentSlot self args level) := by
  refine .look fun machine => ?_
  split
  · exact logic.pure _
  · rename_i block _
    refine logic.bind (logic.value (arguments_related logic args)) fun values => ?_
    intro before
    rw [Run.get_bind_apply]
    cases handed : before.contents with
    | nil => exact .refl id name before
    | cons content outer =>
      exact Sparing.map_apply (inContent_sparing logic block values level handed) Yield.body

theorem compileModule_sparing (sheet : LoadedFile) (configured : Bindings Value) :
    Sparing id name .style (compileModule self sheet configured)
      (compileModule self sheet configured) := by
  intro before
  by_cases opened : sheet.path ∈ before.loading
  · rw [compileModule_opened self opened]
    exact .refl id name before
  cases parsed : statementsOf sheet with
  | error fault =>
    rw [compileModule_unreadable self opened parsed]
    exact .refl id name before
  | ok nodes =>
    have written : Sparing id name .style (chunks self nodes) (chunks self nodes) :=
      chunks_related logic fun _ _ => trivial
    have inside := written (before.enterModule sheet.path configured)
    have left : Machine.Sparing id name before
        (before.leaveModule (chunks self nodes (before.enterModule sheet.path configured)).2) := by
      have reaches : before.Reaches (before.leaveModule _) :=
        (Machine.Reaches.extend before { Environment.empty with vars := configured }).trans
          (.module before.environments.size sheet.path inside.reaches)
      refine inside.place reaches (fun real _ => ⟨?_, fun running => ?_, ?_⟩) rfl
      · exact real.trans_le ((Array.size_push ..).ge.trans' (Nat.le_succ _))
      · exact absurd running real.ne'
      · simp only [Machine.namesOf, Machine.environment, Machine.enterModule,
          Array.getElem?_push_lt real, Array.getElem?_eq_getElem real]
    rw [compileModule_apply self opened parsed]
    generalize chunks self nodes _ = outcome at left ⊢
    rcases outcome with ⟨fault | parts, after⟩
    · exact left
    · exact left.trans (.of_namesOf (.learn _ sheet.path before.environments.size) fun _ _ => rfl)

theorem resolveModule_sparing (url : String) (config : List (String × Expr)) :
    Sparing id name .style (resolveModule setup self url config)
      (resolveModule setup self url config) := by
  unfold resolveModule
  split
  · split
    · exact logic.pure _
    · exact logic.fail _
  · refine logic.bind (logic.value (configuration_related logic config)) fun configured => ?_
    refine .look fun machine => logic.bind (logic.ofCause _) fun sheet => .look fun machine => ?_
    split
    · split
      · exact logic.bind (logic.log _ _) fun _ => logic.pure _
      · exact logic.pure _
    · exact compileModule_sparing logic sheet configured

theorem importSheet_sparing (level : Nat) (url : String) :
    Sparing id name .style (importSheet setup self level url) (importSheet setup self level url) := by
  refine .look fun machine => logic.bind (logic.ofCause _) fun sheet => ?_
  refine logic.bind (.look fun machine => ?_) fun _ => ?_
  · split
    · exact logic.fail _
    · exact logic.pure _
  refine logic.bind (logic.ofExcept (Grammar.sound_stylesheet _)) fun nodes => ?_
  have loaded : Sparing id name .style (Run.inFile sheet.path (self (.block (.style level) nodes)))
      (Run.inFile sheet.path (self (.block (.style level) nodes))) :=
    (logic.job (.block (.style level) nodes) fun _ _ => trivial).enclosed
      (fun _ _ => .file sheet.path) (fun _ => rfl) (fun _ enclosed => enclosed) fun _ _ => rfl
  exact logic.bind loaded fun outcome => logic.pure _

/-- Sparing a name goes along with the whole evaluator. -/
theorem blockLogic_sparing : BlockLogic setup .sparing self self (Sparing id name) where
  toLogic := logic
  invoke := invoke_sparing logic
  includeMixin level _ := includeMixin_sparing logic _ _ _ _ level
  contentSlot level _ := contentSlot_sparing logic _ level
  defineFunction _ := .change fun _ _ => rfl
  defineMixin _ _ _ _ := .change fun _ _ => rfl
  useModule _ := by
    refine logic.bind (resolveModule_sparing logic _ _) fun resolved => ?_
    refine logic.bind (.change fun _ environment => ?_) fun _ => logic.pure _
    split <;> rfl
  forwardModule _ := by
    refine logic.bind (resolveModule_sparing logic _ []) fun resolved => ?_
    exact logic.bind (.change fun _ _ => rfl) fun _ => logic.pure _
  importSheet level _ _ := importSheet_sparing logic level _
  inside _ _ _ _ := trivial
  withSelector selector _ _ _ inside := inside.enclosed (fun _ _ => .selector selector) (fun _ => rfl)
    (fun _ enclosed => enclosed) fun _ _ => rfl
  withMedia query _ _ _ inside := inside.enclosed (fun _ _ => .media query) (fun _ => rfl)
    (fun _ enclosed => enclosed) fun _ _ => rfl

end Parts

/-- Without the writes of one name to one module, every job spares the name. -/
theorem performWriting_sparing (setup : Setup) (depth : Nat) (id : EnvId) (name : String) {α : Type}
    (job : Job α) :
    Sparing id name job.realm (performWriting setup (Machine.withhold id name) depth job)
      (performWriting setup (Machine.withhold id name) depth job) := by
  induction depth generalizing α with
  | zero => exact .same
  | succ depth ih =>
    have logic : Logic setup .sparing _ _ (Sparing id name) := logic_sparing ih
    have blocks := blockLogic_sparing logic
    cases job with
    | evaluate expr divides => exact expression_related logic expr divides
    | calculate expr => exact calculation_related logic expr
    | call qualifier function args => exact blocks.invoke qualifier function args
    | declare d outer => exact declaration_related logic (fun _ _ => trivial) outer
    | «repeat» mode condition nodes => exact whileLoop_related logic mode condition fun _ _ => trivial
    | block mode nodes =>
      refine logic.untilReturn nodes fun node => ?_
      unfold statementWriting
      split
      · rename_i other expr default line
        refine Sparing.located (logic.bind (.look fun machine => ?_) fun _ => logic.pure _)
        split
        · exact logic.pure _
        · refine logic.bind (logic.evaluate expr false) fun value before => ?_
          exact Machine.sparing_withhold id name other value before
      · rename_i plain
        refine statement_related blocks mode trivial fun sets => ?_
        unfold Statement.setsGlobal at sets
        split at sets
        · exact plain _ _ _ _ rfl
        · exact sets

end Scss.Eval
