import Scss.Compiler
import Scss.Proofs.Surroundings

/-! Callables are lexically scoped. What runs in a place of its own does not see the blocks that
wait below it: over any floor of such blocks it does the same, and leaves the floor alone. Only
`@content` looks at a block that waits, and only style statements have it; so there the floor has to
offer none. Both runs draw the same numbers, which are a part of the setup and counted in the state. -/
namespace Scss

/-- The state with more blocks waiting below. -/
def Machine.over (machine : Machine) (floor : List ContentFrame) : Machine :=
  machine.withContents (machine.contents ++ floor)

def Machine.withLocals (machine : Machine) (frames : List Frame) (contents : List ContentFrame) :
    Machine :=
  { machine with frames := frames, contents := contents }

/-- A floor offers no block to the `@content` of a realm. -/
def Realm.IsClosed (realm : Realm) (floor : List ContentFrame) : Prop :=
  realm = .style → floor.head?.bind ContentFrame.block = none

theorem Realm.isClosed_of_ne {realm : Realm} (plain : realm ≠ .style) (floor : List ContentFrame) :
    realm.IsClosed floor :=
  fun style => absurd style plain

/-- Over a closed floor, a computation does what another does without it, and leaves the floor
alone. -/
def Run.Over : Run.Relation :=
  fun realm _ action other => ∀ floor, realm.IsClosed floor → ∀ machine : Machine,
    action (machine.over floor) = ((other machine).1, (other machine).2.over floor)

namespace Run.Over

variable {realm inner : Realm} {α β : Type} {action other : Run α}

theorem bind {next nextOther : α → Run β} (first : Over realm action other)
    (second : ∀ value, Over realm (next value) (nextOther value)) :
    Over realm (action >>= next) (other >>= nextOther) := by
  intro floor closed machine
  rw [bind_apply, bind_apply, first floor closed machine]
  cases other machine with
  | mk result after =>
    cases result with
    | error fault => rfl
    | ok value => exact second value floor closed after

theorem tryCatch {handler handlerOther : Fault → Run α} (first : Over realm action other)
    (second : ∀ fault, Over realm (handler fault) (handlerOther fault)) :
    Over realm (MonadExcept.tryCatch action handler) (MonadExcept.tryCatch other handlerOther) := by
  intro floor closed machine
  rw [tryCatch_apply, tryCatch_apply, first floor closed machine]
  cases other machine with
  | mk result after =>
    cases result with
    | ok value => rfl
    | error fault => exact second fault floor closed after

theorem located (line : Nat) (inside : Over realm action other) :
    Over realm (Run.located line action) (Run.located line other) := by
  intro floor closed machine
  unfold Run.located
  rw [inside floor closed machine]
  cases other machine with
  | mk result after => cases result <;> rfl

theorem look {next nextOther : Machine → Run β}
    (blind : ∀ machine margin, next (machine.withMargin margin) = next machine)
    (second : ∀ machine, Over realm (next machine) (nextOther machine)) :
    Over realm (MonadState.get >>= next) (MonadState.get >>= nextOther) := by
  intro floor closed machine
  rw [get_bind_apply, get_bind_apply, Machine.over, Machine.withContents_eq, blind]
  exact second machine floor closed machine

theorem change {f : Machine → Machine}
    (blind : ∀ machine contents, f (machine.withContents contents) =
      (f machine).withContents contents) : Over realm (modify f) (modify f) := by
  intro floor _ machine
  have contents : (f machine).contents = machine.contents := by
    have same : f machine = (f machine).withContents machine.contents :=
      blind machine machine.contents
    rw [same]
    rfl
  change (Except.ok PUnit.unit, f (machine.over floor)) = (.ok PUnit.unit, (f machine).over floor)
  rw [Machine.over, blind, Machine.over, contents]

theorem assignQualified (qualifier name : String) (value : Value) :
    Over realm
      (do MonadState.set (← Run.ofCause ((← MonadState.get).assignQualified qualifier name value)))
      (do MonadState.set (← Run.ofCause ((← MonadState.get).assignQualified qualifier name value))) := by
  intro floor _ machine
  rw [get_bind_apply, get_bind_apply]
  cases assigned : machine.assignQualified qualifier name value with
  | error cause =>
    rw [Machine.over, Machine.withContents_eq, Machine.assignQualified_withMargin, assigned]
    rfl
  | ok after =>
    obtain ⟨id, -, rfl⟩ := Machine.assignQualified_cases assigned
    rw [Machine.over, Machine.withContents_eq, Machine.assignQualified_withMargin, assigned]
    rfl

/-- A place that leaves the waiting blocks alone. -/
theorem enclosed {enter : Machine → Machine} {leave : Machine → Machine → Machine}
    (closes : ∀ floor, realm.IsClosed floor → inner.IsClosed floor)
    (entered : ∀ machine floor, enter (machine.over floor) = (enter machine).over floor)
    (left : ∀ machine after floor,
      leave (machine.over floor) (after.over floor) = (leave machine after).over floor)
    (inside : Over inner action other) :
    Over realm (Run.enclosed enter leave action) (Run.enclosed enter leave other) := by
  intro floor closed machine
  have middle := inside floor (closes floor closed) (enter machine)
  simp only [Run.enclosed, entered, middle, left]
  rfl

end Run.Over

namespace Eval

open Run (Over)

variable {setup : Setup} {depth : Nat}

theorem logic_over
    (inner : ∀ {α : Type} (job : Job α), Over job.realm (perform setup depth job)
      (perform setup depth job)) :
    Logic setup .free (fun job => perform setup depth job) (fun job => perform setup depth job)
      Over where
  pure _ _ _ _ := rfl
  throw _ _ _ _ := rfl
  bind := .bind
  tryCatch first second := .tryCatch first fun fault => second fault trivial
  located _ _ _ _ := .located _
  raise _ _ _ _ _ _ _ _ := rfl
  value inside floor _ := inside floor (Realm.isClosed_of_ne (by decide) floor)
  look := .look
  change {_ f} _ same _ _ := by
    apply Over.change
    intro machine contents
    have kept : (f machine).hoisted = machine.hoisted := by
      have own : f machine = (f machine).withMargin ⟨machine.contents, machine.hoisted⟩ :=
        same machine ⟨machine.contents, machine.hoisted⟩
      rw [own]
      rfl
    rw [Machine.withContents_eq, same, Machine.withContents_eq, kept]
  hoist _ := .change fun _ _ => rfl
  assignQualified _ := .assignQualified
  withFrame _ _ _ _ _ := .enclosed (fun _ closed => closed) (fun _ _ => rfl) fun _ _ _ => rfl
  withoutSelector := .enclosed (fun _ closed => closed) (fun _ _ => rfl) fun _ _ _ => rfl
  job job _ := inner job
  unhandled _ := trivial

section Parts

variable (inner : ∀ {α : Type} (job : Job α), Over job.realm (perform setup depth job)
  (perform setup depth job))

include inner

theorem callUser_over (function : Callable) (args : CallArgs) :
    Over .value (callUser (perform setup depth) function args)
      (callUser (perform setup depth) function args) := by
  have logic := logic_over inner
  have body := runFunction_related logic function (fun _ _ => trivial) args
  have called : Over .value (Run.inFunction function.env _) (Run.inFunction function.env _) :=
    .enclosed (fun floor _ => Realm.isClosed_of_ne (by decide) floor) (fun _ _ => rfl)
      (fun _ _ _ => rfl) body
  refine logic.bind called fun outcome => ?_
  split
  · exact logic.pure _
  · exact logic.fail _

theorem invoke_over (qualifier : Option String) (name : String) (args : CallArgs) :
    Over .value (invoke setup (perform setup depth) qualifier name args)
      (invoke setup (perform setup depth) qualifier name args) := by
  have logic := logic_over inner
  refine logic.look (fun machine margin => ?_) fun machine => ?_
  · rw [Machine.function?_withMargin]
  refine logic.bind (logic.ofCause _) fun target => ?_
  split
  · exact callUser_over inner _ args
  · exact callModule_related logic _ name args
  · split
    · exact logic.fail _
    · exact callGlobal_related logic name args

/-- Behind the body of a mixin the includer's state is on top of the waiting blocks again, and the
floor below. -/
theorem inMixin_over (mixin : Callable) (block : Option (ContentBlock Statement)) (values : CallArgs)
    (level : Nat) :
    Over .style
      (Run.inMixin mixin.env block (runMixin (perform setup depth) mixin values level))
      (Run.inMixin mixin.env block (runMixin (perform setup depth) mixin values level)) := by
  have logic := logic_over inner
  intro floor closed machine
  let start := machine.enterMixin mixin.env block
  let after := (runMixin (perform setup depth) mixin values level start).2
  have moves : Machine.Moves setup .style start after :=
    runMixin_moves setup depth start mixin values level
  have full : after.contents ≠ [] := by
    intro empty
    have length := moves.length_contents
    rw [empty] at length
    cases length
  have left : (machine.over floor).leaveMixin (after.over floor) =
      (machine.leaveMixin after).over floor := by
    obtain ⟨content, outer, stack⟩ := List.exists_cons_of_ne_nil full
    simp only [Machine.leaveMixin, Machine.over, Machine.withContents, stack]
    rfl
  have inside := runMixin_related logic mixin (fun _ _ => trivial) values level floor closed start
  change ((runMixin (perform setup depth) mixin values level (start.over floor)).1,
    (machine.over floor).leaveMixin
      (runMixin (perform setup depth) mixin values level (start.over floor)).2) = _
  rw [inside]
  exact Prod.ext rfl left

theorem includeMixin_over (qualifier : Option String) (name : String)
    (args : List (Argument Expr)) (block : Option (ContentBlock Statement)) (level : Nat) :
    Over .style (includeMixin (perform setup depth) qualifier name args block level)
      (includeMixin (perform setup depth) qualifier name args block level) := by
  have logic := logic_over inner
  refine logic.look (fun machine margin => ?_) fun machine => ?_
  · rw [Machine.mixin?_withMargin]
  refine logic.bind (logic.ofCause _) fun target => ?_
  split
  · exact logic.fail _
  · refine logic.bind (logic.value (arguments_related logic args)) fun values => ?_
    exact logic.bind (inMixin_over inner _ block values level) fun outcome => logic.pure _

/-- The floor stays below the blocks that wait outside of the one that runs. -/
theorem inContent_over (block : ContentBlock Statement) (values : CallArgs) (level : Nat)
    {machine : Machine} {content : ContentFrame} {outer floor : List ContentFrame}
    (handed : machine.contents = content :: outer) (closed : Realm.style.IsClosed floor) :
    let run := Run.inContent content (runBlock (perform setup depth) block values level)
    run (machine.over floor) = ((run machine).1, (run machine).2.over floor) := by
  have logic := logic_over inner
  intro run
  have inside := runBlock_related logic block (fun _ _ => trivial) values level floor closed
    (machine.enterContent content outer)
  have start : (machine.over floor).enterContent content (machine.over floor).contents.tail =
      (machine.enterContent content outer).over floor := by
    rw [Machine.over, handed]
    rfl
  have startToo : machine.enterContent content machine.contents.tail =
      machine.enterContent content outer := by
    rw [handed]
    rfl
  change ((runBlock (perform setup depth) block values level
      ((machine.over floor).enterContent content (machine.over floor).contents.tail)).1,
    (machine.over floor).leaveContent content (runBlock (perform setup depth) block values level
      ((machine.over floor).enterContent content (machine.over floor).contents.tail)).2) =
    ((runBlock (perform setup depth) block values level
        (machine.enterContent content machine.contents.tail)).1,
      (machine.leaveContent content (runBlock (perform setup depth) block values level
        (machine.enterContent content machine.contents.tail)).2).over floor)
  rw [start, startToo, inside]
  rfl

theorem contentSlot_over (args : List (Argument Expr)) (level : Nat) :
    Over .style (contentSlot (perform setup depth) args level)
      (contentSlot (perform setup depth) args level) := by
  have logic := logic_over inner
  intro floor closed machine
  cases waiting : machine.contents.head?.bind ContentFrame.block with
  | none =>
    have still : (machine.over floor).contents.head?.bind ContentFrame.block = none := by
      cases stack : machine.contents with
      | nil => simpa [Machine.over, Machine.withContents, stack] using closed rfl
      | cons content outer =>
        rw [stack] at waiting
        simpa [Machine.over, Machine.withContents, stack] using waiting
    rw [contentSlot_empty _ waiting, contentSlot_empty _ still]
  | some block =>
    obtain ⟨content, front, given⟩ := Option.bind_eq_some_iff.mp waiting
    obtain ⟨outer, handed⟩ := List.head?_eq_some_iff.mp front
    have handedOver (state : Machine) (stack : state.contents = content :: outer) :
        (state.over floor).contents = content :: (outer ++ floor) := by
      rw [Machine.over, stack]
      rfl
    obtain ⟨-, moves⟩ :=
      arguments_related (logic_always setup depth) args machine trivial
    have valued := arguments_related logic args floor
      (Realm.isClosed_of_ne (by decide) floor) machine
    rw [contentSlot_apply _ (handedOver machine handed) given, contentSlot_apply _ handed given]
    cases outcome : arguments (perform setup depth) args machine with
    | mk result after =>
      rw [outcome] at moves valued
      have kept : after.contents = content :: outer := by
        rw [(Machine.Moves.steady moves (by decide)).contents, handed]
      cases result with
      | error fault => rw [fillSlot_error valued, fillSlot_error outcome]
      | ok values =>
        rw [fillSlot_apply valued (handedOver after kept), fillSlot_apply outcome kept,
          Run.bind_apply, Run.bind_apply, inContent_over inner block values level kept closed]
        cases Run.inContent content (runBlock (perform setup depth) block values level) after with
        | mk result last => cases result <;> rfl

theorem compileModule_over (sheet : LoadedFile) (configured : Bindings Value) :
    Over .style (compileModule (perform setup depth) sheet configured)
      (compileModule (perform setup depth) sheet configured) := by
  intro floor closed machine
  by_cases opened : sheet.path ∈ machine.loading
  · have openedToo : sheet.path ∈ (machine.over floor).loading := opened
    rw [compileModule_opened _ opened, compileModule_opened _ openedToo]
  have openedNot : sheet.path ∉ (machine.over floor).loading := opened
  cases parsed : statementsOf sheet with
  | error fault =>
    rw [compileModule_unreadable _ opened parsed, compileModule_unreadable _ openedNot parsed]
  | ok nodes =>
    have inside : chunks (perform setup depth) nodes
        ((machine.over floor).enterModule sheet.path configured) = _ :=
      chunks_related (logic_over inner) (fun _ _ => trivial) floor closed
        (machine.enterModule sheet.path configured)
    rw [compileModule_apply _ opened parsed, compileModule_apply _ openedNot parsed, inside]
    cases chunks (perform setup depth) nodes (machine.enterModule sheet.path configured) with
    | mk result after => cases result <;> rfl

theorem resolveModule_over (url : String) (config : List (String × Expr)) :
    Over .style (resolveModule setup (perform setup depth) url config)
      (resolveModule setup (perform setup depth) url config) := by
  have logic := logic_over inner
  unfold resolveModule
  split
  · split
    · exact logic.pure _
    · exact logic.fail _
  · refine logic.bind (logic.value (configuration_related logic config)) fun configured => ?_
    refine logic.look (fun _ _ => rfl) fun machine => ?_
    refine logic.bind (logic.ofCause _) fun sheet => logic.look (fun _ _ => rfl) fun machine => ?_
    split
    · split
      · exact logic.bind (logic.log _ _) fun _ => logic.pure _
      · exact logic.pure _
    · exact compileModule_over inner sheet configured

theorem importSheet_over (level : Nat) (url : String) :
    Over .style (importSheet setup (perform setup depth) level url)
      (importSheet setup (perform setup depth) level url) := by
  have logic := logic_over inner
  refine logic.look (fun _ _ => rfl) fun machine => logic.bind (logic.ofCause _) fun sheet => ?_
  refine logic.bind (logic.look (fun _ _ => rfl) fun machine => ?_) fun _ => ?_
  · split
    · exact logic.fail _
    · exact logic.pure _
  refine logic.bind (logic.ofExcept (Grammar.sound_stylesheet _)) fun nodes => ?_
  have loaded : Over .style
      (Run.inFile sheet.path (perform setup depth (.block (.style level) nodes)))
      (Run.inFile sheet.path (perform setup depth (.block (.style level) nodes))) :=
    .enclosed (fun _ closed => closed) (fun _ _ => rfl) (fun _ _ _ => rfl)
      (inner (.block (.style level) nodes))
  exact logic.bind loaded fun outcome => logic.pure _

/-- Doing the same over a closed floor goes along with the whole evaluator. -/
theorem blockLogic_over :
    BlockLogic setup .free (fun job => perform setup depth job) (fun job => perform setup depth job)
      Over where
  toLogic := logic_over inner
  invoke := invoke_over inner
  includeMixin level _ := includeMixin_over inner _ _ _ _ level
  contentSlot level _ := contentSlot_over inner _ level
  defineFunction _ := .change fun _ _ => rfl
  defineMixin _ _ _ _ := .change fun _ _ => rfl
  useModule _ := by
    have logic := logic_over inner
    refine logic.bind (resolveModule_over inner _ _) fun resolved => ?_
    exact logic.bind (Over.change fun _ _ => rfl) fun _ => logic.pure _
  forwardModule _ := by
    have logic := logic_over inner
    refine logic.bind (resolveModule_over inner _ []) fun resolved => ?_
    exact logic.bind (Over.change fun _ _ => rfl) fun _ => logic.pure _
  importSheet level _ _ := importSheet_over inner level _
  inside _ _ _ _ := trivial
  withSelector _ _ _ _ := .enclosed (fun _ closed => closed) (fun _ _ => rfl) fun _ _ _ => rfl
  withMedia _ _ _ _ := .enclosed (fun _ closed => closed) (fun _ _ => rfl) fun _ _ _ => rfl

end Parts

/-- Over a closed floor, every job does what it does without it. -/
theorem perform_over (setup : Setup) (depth : Nat) {α : Type} (job : Job α) :
    Over job.realm (perform setup depth job) (perform setup depth job) := by
  induction depth generalizing α with
  | zero => exact fun _ _ _ => rfl
  | succ depth ih => exact step_related (blockLogic_over ih) (Regime.fits_free job) trivial

section Locals

/-- What a function comes to whose statements are done. -/
def resultOf (function : Callable) (outcome : Yield) : Except Fault Value :=
  match outcome.returned with
  | some value => .ok value
  | none => .error (.because (.missingReturn function.name))

variable (setup : Setup) (depth : Nat) (machine : Machine)

/-- A function does the same from all states that differ in frames and waiting blocks alone. -/
theorem callUser_withLocals (function : Callable) (args : CallArgs) :
    ∃ (result : Except Fault Value) (after : Machine), ∀ frames contents,
      callUser (perform setup depth) function args (machine.withLocals frames contents) =
        (result, after.withLocals frames contents) := by
  let start := { machine with env := function.env, frames := [.fresh false], contents := [] }
  let run := runFunction (perform setup depth) function args
  have moves : Machine.Moves setup .function start (run start).2 :=
    runFunction_moves setup depth start function args
  have empty : (run start).2.contents = [] := List.eq_nil_of_length_eq_zero moves.length_contents
  have inside contents : run (start.over contents) =
      ((run start).1, (run start).2.over contents) :=
    runFunction_related (logic_over (perform_over setup depth)) function (fun _ _ => trivial) args
      contents (Realm.isClosed_of_ne (by decide) contents) start
  refine ⟨(run start).1 >>= resultOf function, { (run start).2 with env := machine.env }, fun frames contents => ?_⟩
  have called : Run.inFunction function.env run (machine.withLocals frames contents) =
      ((run start).1,
        { (run start).2 with env := machine.env, frames := frames, contents := contents }) := by
    change ((run (start.over contents)).1,
      { (run (start.over contents)).2 with env := machine.env, frames := frames }) = _
    rw [inside]
    simp only [Machine.over, Machine.withContents, empty, List.nil_append]
  change (Run.inFunction function.env run >>= _) (machine.withLocals frames contents) = _
  rw [Run.bind_apply, called]
  cases (run start).1 with
  | error fault => rfl
  | ok outcome =>
    change _ = (resultOf function outcome, _)
    dsimp only [resultOf]
    cases outcome.returned <;> rfl

/-- An `@include` without arguments and without a block does the same from all states that differ in
frames and waiting blocks alone. -/
theorem includeMixin_withLocals (qualifier : Option String) (name : String) (level : Nat) :
    ∃ (result : Except Fault Body) (after : Machine), ∀ frames contents,
      includeMixin (perform setup depth) qualifier name [] none level
          (machine.withLocals frames contents) =
        (result, after.withLocals frames contents) := by
  have same frames contents :
      (machine.withLocals frames contents).mixin? qualifier name = machine.mixin? qualifier name :=
    Machine.mixin?_congr (by rfl) (by rfl) qualifier name
  by_cases defined : ∃ mixin, machine.mixin? qualifier name = .ok (some mixin)
  case neg =>
    refine ⟨.error (missingMixin machine qualifier name), machine, fun frames contents => ?_⟩
    have missing mixin (found : (machine.withLocals frames contents).mixin? qualifier name =
        .ok (some mixin)) : False := defined ⟨mixin, by rwa [same] at found⟩
    rw [includeMixin_missing _ missing, missingMixin, missingMixin, same]
  obtain ⟨mixin, found⟩ := defined
  let start := { machine with env := mixin.env, frames := [.fresh false], contents := [] }
  let run := runMixin (perform setup depth) mixin ⟨[], []⟩ level
  have moves : Machine.Moves setup .style start (run start).2 :=
    runMixin_moves setup depth start mixin ⟨[], []⟩ level
  have empty : (run start).2.contents = [] := List.eq_nil_of_length_eq_zero moves.length_contents
  have inside frames contents : run (start.over (⟨none, machine.env, frames⟩ :: contents)) =
      ((run start).1, (run start).2.over (⟨none, machine.env, frames⟩ :: contents)) :=
    runMixin_related (logic_over (perform_over setup depth)) mixin (fun _ _ => trivial) ⟨[], []⟩ level
      _ (fun _ => rfl) start
  refine ⟨(run start).1.map Yield.body, { (run start).2 with env := machine.env },
    fun frames contents => ?_⟩
  have included : Run.inMixin mixin.env none run (machine.withLocals frames contents) =
      ((run start).1,
        { (run start).2 with env := machine.env, frames := frames, contents := contents }) := by
    change ((run (start.over (⟨none, machine.env, frames⟩ :: contents))).1,
      machine.leaveMixin (run (start.over (⟨none, machine.env, frames⟩ :: contents))).2) = _
    rw [inside]
    simp only [Machine.leaveMixin, Machine.over, Machine.withContents, empty, List.nil_append]
    rfl
  rw [includeMixin_apply _ ((same frames contents).trans found)]
  change (Run.inMixin mixin.env none run >>= _) (machine.withLocals frames contents) = _
  rw [Run.bind_apply, included]
  cases (run start).1 <;> rfl

end Locals

/-- Functions and mixins of a stylesheet do not see the frames and the waiting blocks of their
caller, and leave them as they are. From two states that differ in these alone, with the same draws to
come, a call of a function and an `@include` without arguments and without a block have one result, a
value or a fault, and lead to states that differ again in these alone. -/
theorem callables_lexically_scoped (setup : Setup) (depth : Nat) (machine : Machine)
    (frames₁ frames₂ : List Frame) (contents₁ contents₂ : List ContentFrame) :
    (∀ (function : Callable) (args : CallArgs),
      ∃ (result : Except Fault Value) (after : Machine),
        callUser (perform setup depth) function args (machine.withLocals frames₁ contents₁) =
          (result, after.withLocals frames₁ contents₁) ∧
        callUser (perform setup depth) function args (machine.withLocals frames₂ contents₂) =
          (result, after.withLocals frames₂ contents₂)) ∧
    (∀ (qualifier : Option String) (name : String) (level : Nat),
      ∃ (result : Except Fault Body) (after : Machine),
        includeMixin (perform setup depth) qualifier name [] none level
            (machine.withLocals frames₁ contents₁) =
          (result, after.withLocals frames₁ contents₁) ∧
        includeMixin (perform setup depth) qualifier name [] none level
            (machine.withLocals frames₂ contents₂) =
          (result, after.withLocals frames₂ contents₂)) := by
  constructor
  · intro function args
    obtain ⟨result, after, same⟩ := callUser_withLocals setup depth machine function args
    exact ⟨result, after, same frames₁ contents₁, same frames₂ contents₂⟩
  · intro qualifier name level
    obtain ⟨result, after, same⟩ := includeMixin_withLocals setup depth machine qualifier name level
    exact ⟨result, after, same frames₁ contents₁, same frames₂ contents₂⟩

/-- A function that draws a number comes to another value once a number has been drawn, though the two
states agree on all that the stylesheet has set. -/
theorem callUser_draws_on :
    let setup := (Compiler.create {} (Loader.memory [])).setup
    let function : Callable := ⟨"f", ⟨[], none⟩, [.returnValue (.call none "random" [] 1) 1], 0⟩
    let machine := Machine.start "main.scss"
    let value (machine : Machine) : Option Float :=
      match (callUser (perform setup 4) function ⟨[], []⟩ machine).1 with
      | .ok (.number n) => some n.value
      | _ => none
    setup.chance.Ranged ∧ value machine = some 0.0 ∧ value machine.countDraw = some 0.625 :=
  ⟨Chance.turning_ranged, by decide +kernel, by decide +kernel⟩

end Eval

end Scss
