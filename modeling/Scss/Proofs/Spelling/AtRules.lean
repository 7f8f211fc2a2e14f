import Scss.AtRule.Strategy
import Scss.Proofs.Spelling.Values

/-! Handlers of at-rules write the same for two spellings of a rule. What a handler reads out of text
is the same on both sides, because names in text are text. -/
namespace Scss

open Run (InStep Same)

structure Services.InStep (services twin : Services Run) : Prop where
  capabilities : twin.capabilities = services.capabilities
  evaluate : ∀ {expr other : Expr}, expr.Respelled other →
    Same (services.evaluate expr) (twin.evaluate other)
  formatDeclarations : twin.formatDeclarations = services.formatDeclarations
  compileBody : ∀ {nodes others : List Statement}, Statements.Respelled nodes others →
    ∀ selector level,
    Same (services.compileBody nodes selector level) (twin.compileBody others selector level)
  hoist : ∀ css, Same (services.hoist css) (twin.hoist css)
  interpolate : ∀ {template other : Template}, Template.Respelled template other →
    Same (services.interpolate template) (twin.interpolate other)
  format : twin.format = services.format
  registerMixin : ∀ {name label : String} {params others : Parameters} {body also : List Statement},
    SameName name label → params.Respelled others → Statements.Respelled body also →
    Same (services.registerMixin name params body) (twin.registerMixin label others also)

structure Context.InStep (context twin : Context Run) : Prop where
  strategy : twin.strategy = context.strategy
  allowed : twin.allowed = context.allowed
  services : context.services.InStep twin.services

variable {context twin : Context Run}

namespace Context

theorem check_same (lent : context.InStep twin) (capability : Capability) :
    Same (context.check capability) (twin.check capability) := by
  unfold Context.check
  rw [lent.allowed, lent.strategy]
  split
  · exact .pure rfl
  · exact .throw (.same _)

theorem evaluate_same (lent : context.InStep twin) {expr other : Expr} (spelled : expr.Respelled other) :
    Same (context.evaluate expr) (twin.evaluate other) :=
  (check_same lent _).andThen fun _ => lent.services.evaluate spelled

theorem compileBody_same (lent : context.InStep twin) {nodes others : List Statement}
    (bodies : Statements.Respelled nodes others) (selector : Option String) (level : Nat) :
    Same (context.compileBody nodes selector level) (twin.compileBody others selector level) :=
  (check_same lent _).andThen fun _ => lent.services.compileBody bodies selector level

theorem hoist_same (lent : context.InStep twin) (css : String) :
    Same (context.hoist css) (twin.hoist css) :=
  (check_same lent _).andThen fun _ => lent.services.hoist css

theorem interpolate_same (lent : context.InStep twin) {template other : Template}
    (spelled : Template.Respelled template other) :
    Same (context.interpolate template) (twin.interpolate other) :=
  (check_same lent _).andThen fun _ => lent.services.interpolate spelled

theorem format_same (lent : context.InStep twin) (value : Value) :
    Same (context.format value) (twin.format value) := by
  refine (check_same lent _).andThen fun _ => ?_
  rw [lent.services.format]
  exact .pure rfl

theorem registerMixin_same (lent : context.InStep twin) {name label : String}
    {params others : Parameters} {body also : List Statement} (names : SameName name label)
    (parameters : params.Respelled others) (bodies : Statements.Respelled body also) :
    Same (context.registerMixin name params body) (twin.registerMixin label others also) :=
  (check_same lent _).andThen fun _ => lent.services.registerMixin names parameters bodies

theorem formatDeclarations_same (lent : context.InStep twin) (lines : List String) (level : Nat) :
    Same (context.formatDeclarations lines level) (twin.formatDeclarations lines level) := by
  refine (check_same lent _).andThen fun _ => ?_
  rw [lent.services.formatDeclarations]
  exact .pure rfl

theorem renderBody_same (lent : context.InStep twin) (body : Body) (selector : Option String)
    (level : Nat) : Same (context.renderBody body selector level) (twin.renderBody body selector level) := by
  have lines : Same (context.renderDeclarations body.declarations (selector.getD "") level)
      (twin.renderDeclarations body.declarations (selector.getD "") level) := by
    unfold Context.renderDeclarations
    split
    · exact .pure rfl
    · split
      · exact formatDeclarations_same lent _ level
      · exact .andThen (formatDeclarations_same lent _ _) fun _ => .pure rfl
  exact .andThen lines fun _ => .pure rfl

end Context

/-- An expression in text is read the same way on both sides. -/
theorem Grammar.agree_expression (written : String) :
    Concur Fault.Respelled Expr.Respelled (expression written) (expression written) := by
  cases expression written with
  | ok expr => exact .ok (.refl expr)
  | error fault => exact .error (.same fault)

/-- So is the head of a mixin. -/
theorem Grammar.agree_signature (written : String) :
    Concur Fault.Respelled (fun mixin other => SameName mixin.1 other.1 ∧ mixin.2.Respelled other.2)
      (signature written) (signature written) := by
  cases signature written with
  | ok mixin => exact .ok ⟨.refl mixin.1, .refl mixin.2⟩
  | error fault => exact .error (.same fault)

namespace Conditional

/-- The same text, and first faults of one kind in one place. -/
inductive Progress.Respelled : Progress → Progress → Prop where
  | mk (text : List Char) {fault other : Option Fault} (faults : Option.Rel Fault.Respelled fault other) :
      Respelled ⟨text, fault⟩ ⟨text, other⟩

theorem evaluatePiece_inStep (lent : context.InStep twin) {progress other : Progress}
    (before : progress.Respelled other) (piece : Piece) :
    InStep Progress.Respelled (evaluatePiece context progress piece)
      (evaluatePiece twin other piece) := by
  cases before with
  | @mk text first second faults =>
    cases piece with
    | text c => exact .pure (.mk _ faults)
    | test property value =>
      refine .tryCatch ?_ fun fault other later => ?_
      · refine InStep.bind (.ofExcept (Grammar.agree_expression _)) fun expr other spelled => ?_
        refine .andThen (Context.evaluate_same lent spelled) fun result => ?_
        exact .andThen (Context.format_same lent result) fun text => .pure (.mk _ faults)
      · have kept : Option.Rel Fault.Respelled (first.or (some fault)) (second.or (some other)) := by
          cases faults with
          | none => exact .some later
          | some first => exact .some first
        unfold Progress.leave
        cases later with
        | evaluation kinds site => exact .pure (.mk _ kept)
        | same =>
          split
          · exact .throw (.same _)
          · exact .pure (.mk _ kept)

theorem evaluateTests_same (lent : context.InStep twin) (condition : String) :
    Same (evaluateTests context condition) (evaluateTests twin condition) := by
  have each : List.Forall₂ Eq (piecesFrom 0 condition.toList) (piecesFrom 0 condition.toList) :=
    List.forall₂_same.mpr fun _ _ => rfl
  refine InStep.bind (InStep.foldlM each (Progress.Respelled.mk [] .none) fun before same => ?_) ?_
  · subst same
    exact evaluatePiece_inStep lent before _
  · rintro progress other after
    cases after with
    | mk text faults =>
      cases faults with
      | none => exact .pure rfl
      | some first =>
        cases first with
        | evaluation kinds site => exact .throw (.evaluation kinds site)
        | same fault =>
          dsimp only
          split
          · exact .throw (.same _)
          · exact .throw (.same _)
          · exact .pure rfl

theorem finish_same (lent : context.InStep twin) (keyword condition : String)
    {body also : List Statement} (bodies : Statements.Respelled body also) (parent : Option String)
    (level : Nat) (change : String → String) :
    Same (finish context keyword condition body parent level change)
      (finish twin keyword condition also parent level change) := by
  have empty : also.isEmpty = body.isEmpty := by
    cases bodies <;> rfl
  refine .andThen (Context.compileBody_same lent bodies parent _) fun compiled => ?_
  refine .andThen (Context.renderBody_same lent compiled parent _) fun rendered => ?_
  rw [empty]
  dsimp only
  split <;> exact .pure rfl

/-- The same keyword, and two spellings of the condition and the body. -/
inductive Parts.Respelled : String × Template × List Statement → String × Template × List Statement →
    Prop where
  | mk (keyword : String) {query other : Template} {body also : List Statement}
      (queries : Template.Respelled query other) (bodies : Statements.Respelled body also) :
      Respelled (keyword, query, body) (keyword, other, also)

theorem rel_parts? {node other : Statement} (spelled : node.Respelled other) :
    Option.Rel Parts.Respelled (parts? node) (parts? other) := by
  cases spelled with
  | media queries bodies line => exact .some (.mk _ queries bodies)
  | supports conditions bodies line => exact .some (.mk _ conditions bodies)
  | container queries bodies line => exact .some (.mk _ queries bodies)
  | _ => exact .none

theorem compile_same (lent : context.InStep twin) {node other : Statement}
    (spelled : node.Respelled other) (parent : Option String) (level : Nat) :
    Same (compile context node parent level) (compile twin other parent level) := by
  have parts := rel_parts? spelled
  unfold compile
  generalize parts? node = own at parts
  generalize parts? other = twins at parts
  cases parts with
  | none => exact .pure rfl
  | some both =>
    cases both with
    | @mk keyword query queryOther body also queries bodies =>
      refine .andThen (Context.interpolate_same lent queries) fun written => ?_
      dsimp only
      split
      · exact .andThen (evaluateTests_same lent written) fun condition =>
          finish_same lent keyword condition bodies parent level fun rendered => rendered
      · exact finish_same lent keyword written bodies parent level SelectorList.split

end Conditional

namespace Keyframes

theorem declaration_same (lent : context.InStep twin) (level : Nat) {d other : Declaration Statement}
    (spelled : d.Rel Statement.Respelled other) :
    Same (declaration context level d) (declaration twin level other) := by
  cases spelled with
  | mk properties values important each line =>
    cases values with
    | none => exact .pure rfl
    | some value =>
      refine .andThen (Context.interpolate_same lent properties) fun property => ?_
      refine .andThen (Context.evaluate_same lent value) fun result => ?_
      refine .andThen (Context.format_same lent result) fun text => ?_
      split <;> exact .pure rfl

theorem keyframe_same (lent : context.InStep twin) (level : Nat)
    {frame other : KeyframeBlock Statement} (spelled : frame.Rel Statement.Respelled other) :
    Same (keyframe context level frame) (keyframe twin level other) := by
  cases spelled with
  | mk selectors each line =>
    exact .andThen (.mapM each fun d => declaration_same lent _ d) fun lines => .pure rfl

theorem compile_same (lent : context.InStep twin) {node other : Statement}
    (spelled : node.Respelled other) (level : Nat) :
    Same (compile context node level) (compile twin other level) := by
  cases spelled with
  | keyframes keyword names each line =>
    refine .andThen (Context.interpolate_same lent names) fun name => ?_
    exact .andThen (.mapM each fun frame => keyframe_same lent _ frame) fun frames => .pure rfl
  | _ => exact .pure rfl

end Keyframes

namespace AtRoot

theorem finish_same (lent : context.InStep twin) (around : Option String)
    (query : Option AtRootQuery) {body also : List Statement}
    (bodies : Statements.Respelled body also) (level : Nat) (own : Option String) :
    Same (finish context around query body level own) (finish twin around query also level own) := by
  refine .andThen (Context.compileBody_same lent bodies _ _) fun compiled => ?_
  refine .andThen (Context.renderBody_same lent compiled _ _) fun css => ?_
  split
  · exact .andThen (Context.hoist_same lent css) fun _ => .pure rfl
  · exact .pure rfl

theorem compile_same (lent : context.InStep twin) {node other : Statement}
    (spelled : node.Respelled other) (around : Option String) (level : Nat) :
    Same (compile context node around level) (compile twin other around level) := by
  cases spelled with
  | @atRoot selector selectorOther query body also selectors bodies line =>
    cases selectors with
    | none => exact finish_same lent around query bodies level none
    | some selectors =>
      cases selectors with
      | mk texts line =>
        have own := (Context.interpolate_same lent texts).map (f := some)
        exact .andThen own (finish_same lent around query bodies level)
  | _ => exact .pure rfl

end AtRoot

namespace Generic

theorem evaluateValue_same (lent : context.InStep twin) (written : String) :
    Same (evaluateValue context written) (evaluateValue twin written) := by
  unfold evaluateValue
  split
  · exact .pure rfl
  · refine .tryCatch ?_ fun fault other faults => ?_
    · refine InStep.bind (.ofExcept (Grammar.agree_expression written)) fun expr other spelled => ?_
      exact .andThen (Context.evaluate_same lent spelled) fun value => Context.format_same lent value
    · cases faults with
      | evaluation kinds site => exact .pure rfl
      | same =>
        split
        · exact .throw (.same _)
        · exact .throw (.same _)
        · exact .throw (.same _)
        · exact .pure rfl

theorem compile_same (lent : context.InStep twin) {node other : Statement}
    (spelled : node.Respelled other) (parent : Option String) (level : Nat) :
    Same (compile context node parent level) (compile twin other parent level) := by
  cases spelled with
  | mixinDef names parameters bodies line =>
    exact .andThen (Context.registerMixin_same lent names parameters bodies) fun _ => .pure rfl
  | atRule name values bodies line =>
    refine .andThen (Context.interpolate_same lent values) fun written => ?_
    split
    · refine InStep.bind (.ofExcept (Grammar.agree_signature written)) ?_
      rintro ⟨mixin, params⟩ ⟨label, others⟩ ⟨names, parameters⟩
      refine .andThen (Context.registerMixin_same lent names parameters ?_) fun _ => .pure rfl
      cases bodies with
      | none => exact .nil
      | some bodies => exact bodies
    · refine .andThen (evaluateValue_same lent written) fun value => ?_
      cases bodies with
      | none => exact .pure rfl
      | some bodies =>
        refine .andThen (Context.compileBody_same lent bodies parent _) fun compiled => ?_
        exact .andThen (Context.renderBody_same lent compiled parent _) fun contents => .pure rfl
  | _ => exact .pure rfl

end Generic

/-- Both rules have the same handler: it goes by the kind of a rule, which has no name in it. -/
theorem Strategy.dispatch_same {services twin : Services Run} (lent : services.InStep twin)
    (strategies : List Strategy) {node other : Statement} (spelled : node.Respelled other)
    (parent : Option String) (level : Nat) :
    Same (dispatch strategies services node parent level)
      (dispatch strategies twin other parent level) := by
  have kind : other.kind? = node.kind? := by
    cases spelled <;> rfl
  unfold dispatch
  rw [kind]
  split
  · exact .throw (.same _)
  · split
    · exact .throw (.same _)
    · rename_i strategy _
      unfold Strategy.run Context.create
      rw [lent.capabilities]
      cases Capability.missing? strategy.required services.capabilities with
      | some capability => exact .throw (.same _)
      | none =>
        have rights : Context.InStep ⟨strategy.name, strategy.required, services⟩
            ⟨strategy.name, strategy.required, twin⟩ := ⟨rfl, rfl, lent⟩
        cases strategy with
        | conditional => exact Conditional.compile_same rights spelled parent level
        | keyframes => exact Keyframes.compile_same rights spelled level
        | atRoot => exact AtRoot.compile_same rights spelled parent level
        | generic => exact Generic.compile_same rights spelled parent level

end Scss
