import Scss.Proofs.Grammar.Faults
import Scss.Proofs.Pieces
import Scss.Proofs.Run

/-! What handlers ask of the services that are lent to them. A handler asks for no more than it has
declared, so with services that provide all of this, and do not fail for their configuration
themselves, it does not either. -/
namespace Scss

variable {σ α β : Type}

/-- A computation that does not fail for a missing capability or handler. -/
def Equipped (action : ExceptT Fault (StateM σ) α) : Prop :=
  ∀ before fault, (action before).1 ≠ .error (.configuration fault)

namespace Equipped

variable {action : ExceptT Fault (StateM σ) α}

theorem pure (value : α) : Equipped (Pure.pure value : ExceptT Fault (StateM σ) α) := nofun

theorem throw {fault : Fault} (other : ∀ own, fault ≠ .configuration own) :
    Equipped (MonadExcept.throw fault : ExceptT Fault (StateM σ) α) := by
  intro before own same
  exact other own (Except.error.inj same)

theorem bind {next : α → ExceptT Fault (StateM σ) β} (first : Equipped action)
    (second : ∀ value, Equipped (next value)) : Equipped (action >>= next) := by
  intro before fault same
  have own := first before
  rw [Run.bind_apply] at same
  rcases outcome : action before with ⟨other | value, after⟩ <;> rw [outcome] at own same
  · cases same
    exact own fault rfl
  · exact second value after fault same

theorem map (f : α → β) (inside : Equipped action) : Equipped (f <$> action) := by
  rw [map_eq_pure_bind]
  exact inside.bind fun value => .pure (f value)

theorem tryCatch {handler : Fault → ExceptT Fault (StateM σ) α} (first : Equipped action)
    (second : ∀ fault, (∀ own, fault ≠ .configuration own) → Equipped (handler fault)) :
    Equipped (MonadExcept.tryCatch action handler) := by
  intro before fault same
  have own := first before
  rw [Run.tryCatch_apply] at same
  rcases outcome : action before with ⟨other | value, after⟩ <;> rw [outcome] at own same
  · refine second other (fun missing named => ?_) after fault same
    exact own missing (congrArg Except.error named)
  · cases same

theorem ofExcept {good : α → Prop} {result : Except Fault α} {torn : Prop} (sound : Sound torn good result) :
    Equipped (MonadExcept.ofExcept result : ExceptT Fault (StateM σ) α) := by
  cases result with
  | ok value => exact .pure value
  | error fault =>
    refine .throw fun own same => ?_
    subst same
    exact sound

theorem mapM {step : α → ExceptT Fault (StateM σ) β} {items : List α}
    (each : ∀ item, Equipped (step item)) : Equipped (items.mapM step) := by
  induction items with
  | nil => exact .pure []
  | cons item rest ih =>
    rw [List.mapM_cons]
    exact (each item).bind fun _ => ih.bind fun _ => .pure _

theorem foldlM {step : β → α → ExceptT Fault (StateM σ) β} {items : List α} {init : β}
    (each : ∀ state item, Equipped (step state item)) : Equipped (items.foldlM step init) := by
  induction items generalizing init with
  | nil => exact .pure init
  | cons item rest ih =>
    rw [List.foldlM_cons]
    exact (each init item).bind fun _ => ih

end Equipped

namespace Capability

/-- What is missing is the first capability that is required and not provided. -/
theorem missing?_eq_some {required provided : List Capability} {capability : Capability}
    (missing : missing? required provided = some capability) :
    capability ∈ required ∧ capability ∉ provided := by
  have found := List.find?_some missing
  simpa using found

theorem missing?_eq_none {required provided : List Capability} :
    missing? required provided = none ↔ ∀ capability ∈ required, capability ∈ provided := by
  rw [missing?, List.find?_eq_none]
  constructor
  · intro none capability member
    have listed : capability ∈ all := by cases capability <;> decide
    simpa [member] using none capability listed
  · intro provides capability _
    simpa using provides capability

/-- Nothing is missing from all of them. -/
theorem missing?_all (required : List Capability) : missing? required all = none := by
  refine missing?_eq_none.mpr fun capability _ => ?_
  cases capability <;> decide

end Capability

/-- Services whose own methods do not fail for their configuration. -/
structure Services.Equipped (services : Services (ExceptT Fault (StateM σ))) : Prop where
  evaluate : ∀ expr, Scss.Equipped (services.evaluate expr)
  compileBody : ∀ nodes selector level, Scss.Equipped (services.compileBody nodes selector level)
  hoist : ∀ css, Scss.Equipped (services.hoist css)
  interpolate : ∀ template, Scss.Equipped (services.interpolate template)
  registerMixin : ∀ name params body, Scss.Equipped (services.registerMixin name params body)

/-- A context that allows what a handler requires, over equipped services. -/
structure Context.Lends (context : Context (ExceptT Fault (StateM σ))) (required : List Capability) :
    Prop where
  allowed : context.allowed = required
  services : context.services.Equipped

section Handlers

variable {context : Context (ExceptT Fault (StateM σ))}

namespace Context.Lends

variable {required : List Capability} (lent : context.Lends required)

include lent

/-- What a handler has declared is not refused. -/
theorem check_eq {capability : Capability} (granted : required.contains capability = true) :
    context.check capability = pure ⟨⟩ := by
  rw [check, lent.allowed, if_pos granted]

theorem evaluate (granted : required.contains .evaluate = true) (expr : Expr) :
    Equipped (context.evaluate expr) := by
  rw [Context.evaluate, lent.check_eq granted, pure_bind]
  exact lent.services.evaluate expr

theorem compileBody (granted : required.contains .blocks = true) (nodes : List Statement)
    (selector : Option String) (level : Nat) : Equipped (context.compileBody nodes selector level) := by
  rw [Context.compileBody, lent.check_eq granted, pure_bind]
  exact lent.services.compileBody nodes selector level

theorem hoist (granted : required.contains .blocks = true) (css : String) :
    Equipped (context.hoist css) := by
  rw [Context.hoist, lent.check_eq granted, pure_bind]
  exact lent.services.hoist css

theorem interpolate (granted : required.contains .interpolation = true) (template : Template) :
    Equipped (context.interpolate template) := by
  rw [Context.interpolate, lent.check_eq granted, pure_bind]
  exact lent.services.interpolate template

theorem format (granted : required.contains .format = true) (value : Value) :
    Equipped (context.format value) := by
  rw [Context.format, lent.check_eq granted, pure_bind]
  exact .pure _

theorem registerMixin (granted : required.contains .mixins = true) (name : String)
    (params : Parameters) (body : List Statement) :
    Equipped (context.registerMixin name params body) := by
  rw [Context.registerMixin, lent.check_eq granted, pure_bind]
  exact lent.services.registerMixin name params body

theorem renderBody (granted : required.contains .declarations = true) (body : Body)
    (selector : Option String) (level : Nat) : Equipped (context.renderBody body selector level) := by
  have lines (level : Nat) : Equipped (context.formatDeclarations body.declarations level) := by
    rw [formatDeclarations, lent.check_eq granted, pure_bind]
    exact .pure _
  refine .bind ?_ fun lines => .pure _
  unfold renderDeclarations
  split
  · exact .pure _
  · split
    · exact lines level
    · exact (lines (level + 1)).bind fun lines => .pure _

end Context.Lends

theorem Conditional.compile_equipped (lent : context.Lends Conditional.required) (node : Statement)
    (parent : Option String) (level : Nat) :
    Equipped (Conditional.compile context node parent level) := by
  have piece (progress : Conditional.Progress) (piece : Conditional.Piece) :
      Equipped (Conditional.evaluatePiece context progress piece) := by
    unfold Conditional.evaluatePiece
    split
    · exact .pure _
    · refine .tryCatch ?_ fun fault _ => ?_
      · refine (Equipped.ofExcept (Grammar.sound_expression _)).bind fun expr => ?_
        refine (lent.evaluate rfl expr).bind fun value => ?_
        refine (lent.format rfl value).bind fun text => ?_
        exact .pure _
      · unfold Conditional.Progress.leave
        split
        · exact .throw nofun
        · exact .pure _
  have tests (condition : String) : Equipped (Conditional.evaluateTests context condition) := by
    refine (Equipped.foldlM piece).bind fun progress => ?_
    split
    · exact .throw nofun
    · exact .throw nofun
    · exact .pure _
  have finish (keyword condition : String) (body : List Statement) (change : String → String) :
      Equipped (Conditional.finish context keyword condition body parent level change) := by
    refine (lent.compileBody rfl _ _ _).bind fun compiled => ?_
    refine (lent.renderBody rfl _ _ _).bind fun rendered => ?_
    dsimp only
    split <;> exact .pure _
  unfold Conditional.compile
  split
  · exact .pure _
  · rename_i keyword query body _
    refine (lent.interpolate rfl query).bind fun written => ?_
    split
    · exact (tests written).bind fun condition => finish keyword condition body fun rendered => rendered
    · exact finish keyword written body SelectorList.split

theorem Keyframes.compile_equipped (lent : context.Lends Keyframes.required) (node : Statement)
    (level : Nat) : Equipped (Keyframes.compile context node level) := by
  have declared (level : Nat) (d : Declaration Statement) :
      Equipped (Keyframes.declaration context level d) := by
    unfold Keyframes.declaration
    split
    · exact .pure _
    · refine (lent.interpolate rfl _).bind fun property => ?_
      refine (lent.evaluate rfl _).bind fun value => ?_
      refine (lent.format rfl value).bind fun text => ?_
      split <;> exact .pure _
  unfold Keyframes.compile
  split
  · refine (lent.interpolate rfl _).bind fun name => ?_
    refine (Equipped.mapM fun frame => ?_).bind fun frames => .pure _
    exact (Equipped.mapM (declared _)).bind fun lines => .pure _
  · exact .pure _

theorem AtRoot.compile_equipped (lent : context.Lends AtRoot.required) (node : Statement)
    (around : Option String) (level : Nat) : Equipped (AtRoot.compile context node around level) := by
  have finish (query : Option AtRootQuery) (body : List Statement) (own : Option String) :
      Equipped (AtRoot.finish context around query body level own) := by
    refine (lent.compileBody rfl _ _ _).bind fun compiled => ?_
    refine (lent.renderBody rfl _ _ _).bind fun css => ?_
    split
    · exact (lent.hoist rfl css).bind fun _ => .pure _
    · exact .pure _
  unfold AtRoot.compile
  split
  · rename_i selector query body _
    dsimp only
    split
    · exact .bind (.map some (lent.interpolate rfl _)) (finish query body)
    · exact finish query body none
  · exact .pure _

theorem Generic.compile_equipped (lent : context.Lends Generic.required) (node : Statement)
    (parent : Option String) (level : Nat) :
    Equipped (Generic.compile context node parent level) := by
  have valued (written : String) : Equipped (Generic.evaluateValue context written) := by
    unfold Generic.evaluateValue
    split
    · exact .pure _
    · refine .tryCatch ?_ fun fault other => ?_
      · refine (Equipped.ofExcept (Grammar.sound_expression _)).bind fun expr => ?_
        refine (lent.evaluate rfl expr).bind fun value => ?_
        exact lent.format rfl value
      · split
        · exact absurd rfl (other _)
        · exact .throw nofun
        · exact .throw nofun
        · exact .pure _
  unfold Generic.compile
  split
  · exact (lent.registerMixin rfl _ _ _).bind fun _ => .pure _
  · rename_i body _
    refine (lent.interpolate rfl _).bind fun written => ?_
    split
    · refine (Equipped.ofExcept (Grammar.sound_signature written)).bind fun signature => ?_
      exact (lent.registerMixin rfl _ _ _).bind fun _ => .pure _
    · refine (valued written).bind fun value => ?_
      split
      · exact .pure _
      · refine (lent.compileBody rfl _ _ _).bind fun compiled => ?_
        refine (lent.renderBody rfl _ _ _).bind fun contents => ?_
        exact .pure _
  · exact .pure _

end Handlers

namespace Strategy

/-- Every kind has a handler. -/
theorem exists_find?_all (kind : String) : ∃ strategy, find? all kind = some strategy := by
  refine Option.isSome_iff_exists.mp (List.find?_isSome.mpr ⟨generic, ?_, rfl⟩)
  decide

variable {services : Services (ExceptT Fault (StateM σ))} {strategy : Strategy}

/-- What is missing is told before a service is asked for anything. -/
theorem run_missing {capability : Capability}
    (missing : Capability.missing? strategy.required services.capabilities = some capability)
    (node : Statement) (parent : Option String) (level : Nat) :
    strategy.run services node parent level =
      throw (.configuration (.missingCapability strategy.name capability.text)) := by
  rw [run, Context.create, missing]

/-- With all that it requires, a handler is equipped. -/
theorem run_equipped (equipped : services.Equipped)
    (provided : Capability.missing? strategy.required services.capabilities = none)
    (node : Statement) (parent : Option String) (level : Nat) :
    Equipped (strategy.run services node parent level) := by
  rw [run, Context.create, provided]
  have lent : Context.Lends ⟨strategy.name, strategy.required, services⟩ strategy.required :=
    ⟨rfl, equipped⟩
  cases strategy with
  | conditional => exact Conditional.compile_equipped lent node parent level
  | keyframes => exact Keyframes.compile_equipped lent node level
  | atRoot => exact AtRoot.compile_equipped lent node parent level
  | generic => exact Generic.compile_equipped lent node parent level

theorem dispatch_eq {strategies : List Strategy} {node : Statement} {kind : String}
    (named : node.kind? = some kind) (found : find? strategies kind = some strategy)
    (parent : Option String) (level : Nat) :
    dispatch strategies services node parent level = strategy.run services node parent level := by
  rw [dispatch, named]
  dsimp only
  rw [found]

end Strategy

end Scss
