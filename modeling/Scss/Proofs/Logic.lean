import Scss.Proofs.Grammar.Faults
import Scss.Proofs.Moves.Steady
import Scss.Proofs.Nesting
import Scss.Proofs.Scopes.Names

/-! Relations between computations that the evaluator respects. A relation holds in a realm; it has to
go along with the ways in which computations are put together, with every change and place of the
machine, and with the few parts of the evaluator that look at the blocks that wait or at loaded
modules. Then it goes along with the whole evaluator: jobs whose inner jobs are related are related.

A relation may be one for certain statements only, and let certain faults out only; a regime says
which. One side may have other blocks waiting than the other, and other text put to the end, so nothing
else looks at these. -/
namespace Scss

/-- A relation between computations in a realm. -/
abbrev Run.Relation := Realm → {α : Type} → Run α → Run α → Prop

namespace Machine

/-- What most of the evaluator does not look at: the blocks that wait, and the text that was put to the
end. -/
structure Margin where
  contents : List ContentFrame
  hoisted : List String

def withMargin (machine : Machine) (margin : Margin) : Machine :=
  { machine with contents := margin.contents, hoisted := margin.hoisted }

def withContents (machine : Machine) (contents : List ContentFrame) : Machine :=
  { machine with contents := contents }

theorem withContents_eq (machine : Machine) (contents : List ContentFrame) :
    machine.withContents contents = machine.withMargin ⟨contents, machine.hoisted⟩ := rfl

section Margin

variable (machine : Machine) (margin : Margin)

@[simp]
theorem lookup?_withMargin (registry : Registry) (name : String) :
    (machine.withMargin margin).lookup? registry name = machine.lookup? registry name :=
  lookup?_congr (by rfl) (by rfl) (by rfl) registry name

@[simp]
theorem qualifiedVariable_withMargin (registry : Registry) (qualifier name : String) :
    (machine.withMargin margin).qualifiedVariable registry qualifier name =
      machine.qualifiedVariable registry qualifier name :=
  qualifiedVariable_congr (by rfl) (by rfl) registry qualifier name

@[simp]
theorem function?_withMargin (registry : Registry) (qualifier : Option String) (name : String) :
    (machine.withMargin margin).function? registry qualifier name =
      machine.function? registry qualifier name :=
  function?_congr (by rfl) (by rfl) registry qualifier name

@[simp]
theorem mixin?_withMargin (qualifier : Option String) (name : String) :
    (machine.withMargin margin).mixin? qualifier name = machine.mixin? qualifier name :=
  mixin?_congr (by rfl) (by rfl) qualifier name

theorem define_withMargin (name : String) (value : Value) :
    (machine.withMargin margin).define name value =
      (machine.define name value).withMargin margin := by
  cases machine with
  | mk environments env frames => cases frames <;> rfl

theorem assign_withMargin (name : String) (value : Value) (global : Bool) :
    (machine.withMargin margin).assign name value global =
      (machine.assign name value global).withMargin margin := by
  have frames : (machine.withMargin margin).frames = machine.frames := rfl
  have current : (machine.withMargin margin).current = machine.current := rfl
  have outside : (machine.withMargin margin).isSemiGlobal = machine.isSemiGlobal := rfl
  simp only [assign, define_withMargin, frames, current, outside]
  split
  · rfl
  · split
    · rfl
    · split <;> rfl

theorem assignQualified_withMargin (qualifier name : String) (value : Value) :
    (machine.withMargin margin).assignQualified qualifier name value =
      (machine.assignQualified qualifier name value).map fun after =>
        after.withMargin margin := by
  have named : (machine.withMargin margin).module? qualifier = machine.module? qualifier := rfl
  have inner (id : EnvId) : (machine.withMargin margin).environment id = machine.environment id :=
    rfl
  simp only [assignQualified, named, inner]
  cases machine.module? qualifier with
  | error cause => rfl
  | ok module_ =>
    cases module_ with
    | builtin library => rfl
    | user id =>
      dsimp only [bind, Except.bind]
      split <;> rfl

end Margin

end Machine

namespace Eval

variable (setup : Setup) (self : Perform) in
def execute (mode : Mode) (node : Statement) : Run Yield :=
  match mode with
  | .style level => do return .ofBody (← styleStatement setup self node level)
  | .function => functionStatement setup self node

/-- Fail with a text, in the name of a statement of the file that runs. -/
def raise (text : String) (line : Nat) : Run PUnit := do
  throw ((Fault.because (.raised text)).locate (← get).file line)

/-- What is asked of the statements that run, and of the faults that come out. What is asked of a
statement holds of those that run in its place, and a fault without a name is always let out. -/
structure Regime where
  admits : Statement → Prop
  fine : Fault → Prop
  /-- Variables of a module may be named from inside a block. -/
  globals : Prop
  within : ∀ {node}, admits node → ∀ inner ∈ node.within, admits inner
  bare : ∀ {fault : Fault}, fault.Bare → fine fault

def Regime.free : Regime :=
  ⟨fun _ => True, fun _ => True, True, fun _ _ _ => trivial, fun _ => trivial⟩

def Regime.Fits (regime : Regime) {α : Type} : Job α → Prop
  | .declare d _ => ∀ node ∈ d.nested, regime.admits node
  | .block _ nodes => ∀ node ∈ nodes, regime.admits node
  | .repeat _ _ nodes => ∀ node ∈ nodes, regime.admits node
  | _ => True

theorem Regime.fits_free {α : Type} (job : Job α) : Regime.free.Fits job := by
  cases job <;> simp [Regime.Fits, Regime.free]

/-- A relation that goes along with the ways in which the evaluator puts computations together. -/
structure Logic (setup : Setup) (regime : Regime) (left right : Perform) (related : Run.Relation) :
    Prop where
  pure : ∀ {realm α} (value : α), related realm (Pure.pure value) (Pure.pure value)
  throw : ∀ {realm α} {fault : Fault}, regime.fine fault →
    related realm (MonadExcept.throw fault : Run α) (MonadExcept.throw fault)
  bind : ∀ {realm α β} {action other : Run α} {next nextOther : α → Run β},
    related realm action other → (∀ value, related realm (next value) (nextOther value)) →
    related realm (action >>= next) (other >>= nextOther)
  tryCatch : ∀ {realm α} {action other : Run α} {handler handlerOther : Fault → Run α},
    related realm action other →
    (∀ fault, regime.fine fault → related realm (handler fault) (handlerOther fault)) →
    related realm (MonadExcept.tryCatch action handler) (MonadExcept.tryCatch other handlerOther)
  /-- A statement puts its name to a fault. -/
  located : ∀ (mode : Mode) {node : Statement} {action : Run Yield}, regime.admits node →
    related mode.realm action (execute setup right mode node) →
    related mode.realm (Run.located node.line action)
      (Run.located node.line (execute setup right mode node))
  /-- `@error` fails in its own name. -/
  raise : ∀ (mode : Mode) {expr : Expr} {line : Nat}, regime.admits (.message .error expr line) →
    ∀ text, related mode.realm (raise text line) (raise text line)
  /-- The value of an expression may be computed in any realm. -/
  value : ∀ {realm α} {action other : Run α}, related .value action other →
    related realm action other
  look : ∀ {realm β} {next nextOther : Machine → Run β},
    (∀ machine margin, next (machine.withMargin margin) = next machine) →
    (∀ machine, related realm (next machine) (nextOther machine)) →
    related realm (MonadState.get >>= next) (MonadState.get >>= nextOther)
  /-- A change that defines nothing, and names no variable of a module where that may not be. -/
  change : ∀ {realm} {f : Machine → Machine}, (∀ machine, Machine.Change realm machine (f machine)) →
    (∀ machine margin, f (machine.withMargin margin) = (f machine).withMargin margin) →
    (∀ machine, (f machine).definitions = machine.definitions) →
    (regime.globals ∨ ∀ machine : Machine, machine.KeepsNames (f machine)) →
    related realm (modify f) (modify f)
  assignQualified : ∀ (mode : Mode) (qualifier name : String) (value : Value),
    related mode.realm
      (do MonadState.set (← Run.ofCause ((← MonadState.get).assignQualified qualifier name value)))
      (do MonadState.set (← Run.ofCause ((← MonadState.get).assignQualified qualifier name value)))
  withFrame : ∀ (mode : Mode) (semiGlobal : Bool) {α} {action other : Run α},
    related mode.realm action other →
    related mode.realm (Run.withFrame semiGlobal action) (Run.withFrame semiGlobal other)
  /-- Text is put to the end. -/
  hoist : ∀ css,
    related .style (modify fun machine => { machine with hoisted := machine.hoisted ++ [css] })
      (modify fun machine => { machine with hoisted := machine.hoisted ++ [css] })
  /-- The statements of a file run outside of all rules. -/
  withoutSelector : ∀ {α} {action other : Run α}, related .style action other →
    related .style (Run.withSelector none action) (Run.withSelector none other)
  job : ∀ {α} (job : Job α), regime.Fits job → related job.realm (left job) (right job)
  /-- A kind of at-rule may have no handler. -/
  unhandled : ∀ {kind}, Strategy.find? setup.strategies kind = none →
    regime.fine (.configuration (.noStrategy kind))

/-- A relation that also goes along with calls and includes, with the blocks that wait for
`@content`, with definitions, and with loading. -/
structure StyleLogic (setup : Setup) (regime : Regime) (left right : Perform)
    (related : Run.Relation) : Prop extends Logic setup regime left right related where
  invoke : ∀ qualifier name args,
    related .value (invoke setup left qualifier name args) (invoke setup right qualifier name args)
  includeMixin : ∀ {qualifier name args content line} level,
    regime.admits (.includeMixin qualifier name args content line) →
    related .style (includeMixin left qualifier name args content level)
      (includeMixin right qualifier name args content level)
  contentSlot : ∀ {args line} level, regime.admits (.contentSlot args line) →
    related .style (contentSlot left args level) (contentSlot right args level)
  defineFunction : ∀ {name params body line}, regime.admits (.functionDef name params body line) →
    related .style (modify (·.defineFunction name params body))
      (modify (·.defineFunction name params body))
  defineMixin : ∀ {node body}, regime.admits node → node.mixin? = some body → ∀ name params,
    related .style (modify (·.defineMixin name params body))
      (modify (·.defineMixin name params body))
  useModule : ∀ {url given config line}, regime.admits (.useModule url given config line) →
    related .style (useModule setup left url given config) (useModule setup right url given config)
  forwardModule : ∀ {url affix filter line}, regime.admits (.forwardModule url affix filter line) →
    related .style (forwardModule setup left url affix filter)
      (forwardModule setup right url affix filter)
  importSheet : ∀ {urls line url} level, regime.admits (.importSheets urls line) → url ∈ urls →
    related .style (importSheet setup left level url) (importSheet setup right level url)

/-- A relation that also goes along with what rules and at-rules put around their blocks. -/
structure BlockLogic (setup : Setup) (regime : Regime) (left right : Perform)
    (related : Run.Relation) : Prop extends StyleLogic setup regime left right related where
  inside : ∀ {node body}, regime.admits node → node.block? = some body →
    ∀ inner ∈ body, regime.admits inner
  withSelector : ∀ (selector : Option String) {α} {action other : Run α},
    related .style action other →
    related .style (Run.withSelector selector action) (Run.withSelector selector other)
  withMedia : ∀ (query : String) {α} {action other : Run α}, related .style action other →
    related .style (Run.withMedia query action) (Run.withMedia query other)

namespace Logic

variable {setup : Setup} {regime : Regime} {left right : Perform} {related : Run.Relation}
  {realm : Realm} {α β : Type}

theorem abort (logic : Logic setup regime left right related) {fault : Fault} (bare : fault.Bare) :
    related realm (MonadExcept.throw fault : Run α) (MonadExcept.throw fault) :=
  logic.throw (regime.bare bare)

theorem fail (logic : Logic setup regime left right related) (cause : Cause) :
    related realm (Run.fail cause : Run α) (Run.fail cause) :=
  logic.abort rfl

theorem ofCause (logic : Logic setup regime left right related) (result : Except Cause α) :
    related realm (Run.ofCause result) (Run.ofCause result) := by
  cases result with
  | ok value => exact logic.pure value
  | error cause => exact logic.fail cause

theorem ofExcept (logic : Logic setup regime left right related) {good : α → Prop}
    {result : Except Fault α} {torn : Prop} (sound : Sound torn good result) :
    related realm (MonadExcept.ofExcept result : Run α) (MonadExcept.ofExcept result) := by
  cases result with
  | ok value => exact logic.pure value
  | error fault => exact logic.abort (Fault.Textual.bare sound)

theorem map (logic : Logic setup regime left right related) {action other : Run α} (f : α → β)
    (inside : related realm action other) : related realm (f <$> action) (f <$> other) := by
  rw [map_eq_pure_bind, map_eq_pure_bind]
  exact logic.bind inside fun value => logic.pure (f value)

theorem mapM_mem (logic : Logic setup regime left right related) {step stepOther : α → Run β}
    {items : List α} (each : ∀ item ∈ items, related realm (step item) (stepOther item)) :
    related realm (items.mapM step) (items.mapM stepOther) := by
  induction items with
  | nil => exact logic.pure []
  | cons item rest ih =>
    obtain ⟨first, others⟩ := List.forall_mem_cons.mp each
    rw [List.mapM_cons, List.mapM_cons]
    refine logic.bind first fun value => ?_
    exact logic.bind (ih others) fun values => logic.pure (value :: values)

theorem mapM (logic : Logic setup regime left right related) {step stepOther : α → Run β}
    (items : List α) (each : ∀ item, related realm (step item) (stepOther item)) :
    related realm (items.mapM step) (items.mapM stepOther) :=
  logic.mapM_mem fun item _ => each item

theorem foldlM (logic : Logic setup regime left right related) {step stepOther : β → α → Run β}
    (items : List α) (init : β)
    (each : ∀ state item, related realm (step state item) (stepOther state item)) :
    related realm (items.foldlM step init) (items.foldlM stepOther init) := by
  induction items generalizing init with
  | nil => exact logic.pure init
  | cons item rest ih =>
    rw [List.foldlM_cons, List.foldlM_cons]
    exact logic.bind (each init item) fun state => ih state

theorem untilReturn_mem (logic : Logic setup regime left right related)
    {step stepOther : α → Run Yield} {items : List α}
    (each : ∀ item ∈ items, related realm (step item) (stepOther item)) :
    related realm (Run.untilReturn step items) (Run.untilReturn stepOther items) := by
  induction items with
  | nil => exact logic.pure Yield.nothing
  | cons item rest ih =>
    obtain ⟨here, behind⟩ := List.forall_mem_cons.mp each
    refine logic.bind here fun first => ?_
    split
    · exact logic.pure first
    · exact logic.bind (ih behind) fun others => logic.pure (first.append others)

theorem untilReturn (logic : Logic setup regime left right related) {step stepOther : α → Run Yield}
    (items : List α) (each : ∀ item, related realm (step item) (stepOther item)) :
    related realm (Run.untilReturn step items) (Run.untilReturn stepOther items) :=
  logic.untilReturn_mem fun item _ => each item

theorem log (logic : Logic setup regime left right related) (level : LogLevel) (text : String) :
    related realm (Run.log level text) (Run.log level text) :=
  logic.change (fun machine => .log realm machine _) (fun _ _ => rfl) (fun _ => rfl)
    (.inr fun _ _ _ => rfl)

theorem draw (logic : Logic setup regime left right related) (chance : Chance) (limit : Option Int) :
    related realm (Run.draw chance limit) (Run.draw chance limit) :=
  logic.look (fun _ _ => rfl) fun _ =>
    logic.bind (logic.change (fun machine => .draw realm machine) (fun _ _ => rfl) (fun _ => rfl)
      (.inr fun _ _ _ => rfl)) fun _ => logic.pure _

theorem define (logic : Logic setup regime left right related) (mode : Mode) (name : String)
    (value : Value) :
    related mode.realm (modify (·.define name value)) (modify (·.define name value)) :=
  logic.change (fun machine => .define mode machine name value)
    (fun machine margin => machine.define_withMargin margin name value)
    (fun machine => (machine.steady_define name value).definitions)
    (.inr fun machine => machine.keepsNames_define name value)

theorem defineAll (logic : Logic setup regime left right related) (mode : Mode)
    (definitions : List (String × Value)) :
    related mode.realm
      (modify fun machine => definitions.foldl (fun m (name, value) => m.define name value) machine)
      (modify fun machine =>
        definitions.foldl (fun m (name, value) => m.define name value) machine) := by
  induction definitions with
  | nil => exact logic.pure PUnit.unit
  | cons definition rest ih =>
    exact logic.bind (logic.define mode definition.1 definition.2) fun _ => ih

theorem evaluate (logic : Logic setup regime left right related) (expr : Expr) (divides : Bool) :
    related realm (left (.evaluate expr divides)) (right (.evaluate expr divides)) :=
  logic.value (logic.job (.evaluate expr divides) trivial)

theorem calculate (logic : Logic setup regime left right related) (expr : Expr) :
    related .value (left (.calculate expr)) (right (.calculate expr)) :=
  logic.job (.calculate expr) trivial

theorem call (logic : Logic setup regime left right related) (qualifier : Option String) (name : String)
    (args : CallArgs) :
    related .value (left (.call qualifier name args)) (right (.call qualifier name args)) :=
  logic.job (.call qualifier name args) trivial

end Logic

end Eval

end Scss
