import Scss.Compiler
import Scss.Proofs.Moves.Jobs

/-! What the value of an expression changes. Whatever is called on the way, and whether it succeeds or
fails, a value leaves the machine as it is up to the variables of modules, the log and the count of
draws. It is the functions of the stylesheet that set variables: a value that would be the same with
anything else in their place, that is, one that calls none of them, changes nothing. -/
namespace Scss

/-- What runs in the place of a function of the stylesheet. -/
abbrev StandIn := Callable → CallArgs → Run Value

namespace Eval

variable (setup : Setup) (standIn : StandIn)

/-- Call a function by name, with something else in the place of one of the stylesheet. -/
def invokeInstead (self : Perform) (qualifier : Option String) (name : String) (args : CallArgs) :
    Run Value := do
  match ← Run.ofCause ((← get).function? setup.registry qualifier name) with
  | some (.user function) => standIn function args
  | _ => invoke setup self qualifier name args

def stepInstead (self : Perform) {α : Type} : Job α → Run α
  | .call qualifier name args => invokeInstead setup standIn self qualifier name args
  | job => step setup self job

/-- Perform a job with jobs nested at most `depth` deep, and something else in the place of the
functions of the stylesheet. -/
def performInstead : Nat → Perform
  | 0, _, _ => throw .exhausted
  | depth + 1, _, job => stepInstead setup standIn (fun inner => performInstead depth inner) job

/-- A job calls no function of the stylesheet: what would run in their place does not matter. -/
def CallsNoFunction (depth : Nat) {α : Type} (job : Job α) (before : Machine) : Prop :=
  ∀ standIn, performInstead setup standIn depth job before = perform setup depth job before

/-- A call that finds a function of the stylesheet calls one. -/
theorem not_callsNoFunction_call {setup : Setup} {before : Machine} {qualifier : Option String}
    {name : String} {function : Callable}
    (found : before.function? setup.registry qualifier name = .ok (some (.user function)))
    (depth : Nat) (args : CallArgs) :
    ¬ CallsNoFunction setup (depth + 1) (.call qualifier name args) before := by
  have instead (standIn : StandIn) :
      performInstead setup standIn (depth + 1) (.call qualifier name args) before =
        standIn function args before := by
    change invokeInstead setup standIn _ qualifier name args before = _
    rw [invokeInstead, Run.get_bind_apply, found]
    rfl
  intro uncalled
  have same : ((Except.ok Value.null : Except Fault Value), before) = (.ok (.bool true), before) :=
    calc
      _ = performInstead setup (fun _ _ => pure .null) (depth + 1) (.call qualifier name args) before :=
        (instead _).symm
      _ = performInstead setup (fun _ _ => pure (.bool true)) (depth + 1) (.call qualifier name args)
          before := (uncalled _).trans (uncalled _).symm
      _ = _ := instead _
  cases same

end Eval

/-- A computation writes to the log, draws numbers and changes nothing else, if it is the value of an
expression. -/
def Run.Quiet : Run.Relation := fun realm _ action _ =>
  realm = .value → ∀ before, ∃ entries draws,
    (action before).2 = { before with log := before.log ++ entries, drawn := before.drawn + draws }

namespace Run.Quiet

variable {realm : Realm} {α β : Type} {action other : Run α}

theorem same {outcome : Machine → Except Fault α} :
    Quiet realm (fun before => (outcome before, before)) other :=
  fun _ before => ⟨[], 0, by simp⟩

/-- Nothing is asked of statements. -/
theorem ofMode (mode : Mode) : Quiet mode.realm action other := by
  intro value
  cases mode <;> cases value

theorem bind {next nextOther : α → Run β} (first : Quiet realm action other)
    (then_ : ∀ value, Quiet realm (next value) (nextOther value)) :
    Quiet realm (action >>= next) (other >>= nextOther) := by
  intro value before
  obtain ⟨entries, draws, logged⟩ := first value before
  rw [bind_apply]
  rcases outcome : action before with ⟨fault | result, after⟩
  all_goals rw [outcome] at logged
  · exact ⟨entries, draws, logged⟩
  · obtain ⟨others, further, behind⟩ := then_ result value after
    subst logged
    exact ⟨entries ++ others, draws + further, by simpa [Nat.add_assoc] using behind⟩

theorem tryCatch {handler handlerOther : Fault → Run α} (first : Quiet realm action other)
    (handled : ∀ fault, Quiet realm (handler fault) (handlerOther fault)) :
    Quiet realm (MonadExcept.tryCatch action handler) (MonadExcept.tryCatch other handlerOther) := by
  intro value before
  obtain ⟨entries, draws, logged⟩ := first value before
  rw [tryCatch_apply]
  rcases outcome : action before with ⟨fault | result, after⟩
  all_goals rw [outcome] at logged
  · obtain ⟨others, further, behind⟩ := handled fault value after
    subst logged
    exact ⟨entries ++ others, draws + further, by simpa [Nat.add_assoc] using behind⟩
  · exact ⟨entries, draws, logged⟩

theorem look {next nextOther : Machine → Run β}
    (each : ∀ machine, Quiet realm (next machine) (nextOther machine)) :
    Quiet realm (MonadState.get >>= next) (MonadState.get >>= nextOther) :=
  fun value before => each before value before

/-- The changes that are made for a value are entries of the log and draws. -/
theorem change {f : Machine → Machine} (changes : ∀ machine, Machine.Change realm machine (f machine)) :
    Quiet realm (modify f) (modify f) := by
  intro value before
  subst value
  have step : Machine.Change .value before (f before) := changes before
  change ∃ entries draws, f before = _
  generalize same : Realm.value = realm, f before = after at step
  cases step with
  | log _ _ entry => exact ⟨[entry], 0, rfl⟩
  | draw => exact ⟨[], 1, by simp [Machine.countDraw]⟩
  | define mode | assign mode | assignQualified mode => cases mode <;> cases same
  | note | hoist | defineFunction | defineMixin | use | forward => cases same

end Run.Quiet

namespace Eval

open Run (Quiet)

/-- Being quiet goes along with the evaluator's ways. -/
theorem quiet_logic {setup : Setup} {self : Perform}
    (inner : ∀ {α : Type} (job : Job α), Quiet job.realm (self job) (self job)) :
    Logic setup .free self self Quiet where
  pure _ := .same
  throw _ := .same
  bind := .bind
  tryCatch first handled := first.tryCatch fun fault => handled fault trivial
  located mode _ _ _ _ := .ofMode mode
  raise mode _ _ _ _ := .ofMode mode
  value inside _ := inside rfl
  look _ each := .look each
  change changes _ _ _ := .change changes
  assignQualified mode _ _ _ := .ofMode mode
  withFrame mode _ _ _ _ _ := .ofMode mode
  hoist _ := .ofMode (.style 0)
  withoutSelector _ := .ofMode (.style 0)
  job job _ := inner job
  unhandled _ := trivial

/-- Without the functions of the stylesheet, a call writes to the log and draws numbers. -/
theorem invokeInstead_quiet {setup : Setup} {self : Perform}
    (logic : Logic setup .free self self Quiet) (qualifier : Option String) (name : String)
    (args : CallArgs) :
    Quiet .value (invokeInstead setup (fun _ _ => throw .exhausted) self qualifier name args)
      (invokeInstead setup (fun _ _ => throw .exhausted) self qualifier name args) := by
  intro value before
  have plain (target : Option FunctionTarget)
      (found : before.function? setup.registry qualifier name = .ok target)
      (foreign : ∀ function, target ≠ some (.user function)) :
      ∃ entries draws, (invoke setup self qualifier name args before).2 =
        { before with log := before.log ++ entries, drawn := before.drawn + draws } := by
    unfold invoke
    rw [Run.get_bind_apply, found]
    match target with
    | some (.user function) => exact absurd rfl (foreign function)
    | some (.builtin library) => exact callModule_related logic library name args value before
    | none =>
      cases qualifier with
      | some qualifier => exact logic.fail _ value before
      | none => exact callGlobal_related logic name args value before
  rw [invokeInstead, Run.get_bind_apply]
  cases found : before.function? setup.registry qualifier name with
  | error cause => exact logic.fail cause value before
  | ok target =>
    match target with
    | some (.user function) => exact ⟨[], 0, by simp [Run.ofCause]; rfl⟩
    | some (.builtin library) => exact plain _ found nofun
    | none => exact plain _ found nofun

/-- Without the functions of the stylesheet, a value writes to the log and draws numbers. -/
theorem performInstead_quiet (setup : Setup) (depth : Nat) {α : Type} (job : Job α) :
    Quiet job.realm (performInstead setup (fun _ _ => throw .exhausted) depth job)
      (performInstead setup (fun _ _ => throw .exhausted) depth job) := by
  induction depth generalizing α with
  | zero => exact .same
  | succ depth ih =>
    have logic : Logic setup .free _ _ Quiet := quiet_logic ih
    cases job with
    | evaluate expr divides => exact expression_related logic expr divides
    | calculate expr => exact calculation_related logic expr
    | call qualifier name args => exact invokeInstead_quiet logic qualifier name args
    | declare => exact .ofMode (.style 0)
    | block mode | «repeat» mode => exact .ofMode mode

/-- The value of an expression, whether there is one or a fault, changes nothing but the variables of
modules, and nothing at all if no function of the stylesheet is called. What is logged and drawn on the
way is counted apart. -/
theorem evaluate_sets_variables_only (setup : Setup) (depth : Nat) (expr : Expr) (divides : Bool)
    (before : Machine) :
    let after := (perform setup depth (.evaluate expr divides) before).2
    after = { before with
      environments := after.environments, log := after.log, drawn := after.drawn } ∧
    after.environments.size = before.environments.size ∧
    (∀ id, after.environment id =
      { before.environment id with vars := (after.environment id).vars }) ∧
    (CallsNoFunction setup depth (.evaluate expr divides) before →
      ∃ entries draws,
        after = { before with log := before.log ++ entries, drawn := before.drawn + draws }) := by
  intro after
  have moves : Machine.Moves setup .value before after :=
    perform_moves setup depth (.evaluate expr divides) before
  have steady : Machine.Steady before after := moves.steady (by decide)
  refine ⟨?_, steady.size, fun id => ?_, fun uncalled => ?_⟩
  · calc
      after = { before with
          environments := after.environments
          frames := after.frames
          log := after.log
          drawn := after.drawn } :=
        steady.rest
      _ = _ := by rw [moves.frames_eq]
  · have kept : (after.environment id).definitions = (before.environment id).definitions := by
      rw [after.definitions_environment, before.definitions_environment, steady.definitions]
    obtain ⟨mixins, functions, namespaces, stars, forwards⟩ :=
      Environment.definitions_eq_iff.mp kept
    dsimp only
    rw [← mixins, ← functions, ← namespaces, ← stars, ← forwards]
  · have quiet := performInstead_quiet setup depth (.evaluate expr divides) rfl before
    rwa [uncalled] at quiet

/-- A call of a function of the stylesheet stands in the branch that is not chosen. -/
theorem evaluate_sets_variables_only_branch :
    let setup := (Compiler.create {} (Loader.memory [])).setup
    let before := (Machine.start "main.scss").defineFunction "f" .none
      [.assign none "size" (.null 1) false true 1, .returnValue (.null 1) 1]
    let expr := Expr.call none "if"
      [⟨none, .null 1, false⟩, ⟨none, .call none "f" [] 1, false⟩, ⟨none, .boolean true 1, false⟩] 1
    let outcome := perform setup 2 (.evaluate expr false) before
    CallsNoFunction setup 2 (.evaluate expr false) before ∧
    outcome.1.toOption.map Value.inspect = some "true" ∧
    ∃ entries draws,
      outcome.2 = { before with log := before.log ++ entries, drawn := before.drawn + draws } := by
  intro setup before expr outcome
  have uncalled : CallsNoFunction setup 2 (.evaluate expr false) before := fun standIn => rfl
  refine ⟨uncalled, by decide +kernel, ?_⟩
  exact (evaluate_sets_variables_only setup 2 expr false before).2.2.2 uncalled

end Eval

end Scss
