import Scss.Proofs.Capabilities
import Scss.Proofs.Logic.Values

/-! A relation that goes along with the evaluator's ways relates the handlers of at-rules, style
statements, and so all jobs whose inner jobs it relates. -/
namespace Scss

namespace Eval

variable {setup : Setup} {regime : Regime} {left right : Perform} {related : Run.Relation}

theorem runFunction_related (logic : Logic setup regime left right related) (function : Callable)
    (admitted : ∀ node ∈ function.body, regime.admits node) (args : CallArgs) :
    related .function (runFunction left function args) (runFunction right function args) :=
  logic.bind (bind_related logic .function _ _ _) fun _ =>
    logic.job (.block .function function.body) admitted

theorem runMixin_related (logic : Logic setup regime left right related) (mixin : Callable)
    (admitted : ∀ node ∈ mixin.body, regime.admits node) (values : CallArgs) (level : Nat) :
    related .style (runMixin left mixin values level) (runMixin right mixin values level) :=
  logic.bind (bind_related logic (.style level) _ _ _) fun _ =>
    logic.job (.block (.style level) mixin.body) admitted

theorem runBlock_related (logic : Logic setup regime left right related)
    (block : ContentBlock Statement) (admitted : ∀ node ∈ block.body, regime.admits node)
    (values : CallArgs) (level : Nat) :
    related .style (runBlock left block values level) (runBlock right block values level) :=
  logic.bind (bind_related logic (.style level) _ _ _) fun _ =>
    logic.job (.block (.style level) block.body) admitted

theorem configuration_related (logic : Logic setup regime left right related)
    (config : List (String × Expr)) :
    related .value (configuration left config) (configuration right config) := by
  refine logic.foldlM config [] fun done entry => ?_
  exact logic.bind (logic.evaluate entry.2 false) fun _ => logic.pure _

theorem blockUnder_related (logic : BlockLogic setup regime left right related)
    (selector : Option String) (level : Nat) {nodes : List Statement}
    (admitted : ∀ node ∈ nodes, regime.admits node) :
    related .style (blockUnder left selector level nodes) (blockUnder right selector level nodes) :=
  logic.bind (logic.withSelector selector (logic.job (.block (.style level) nodes) admitted))
    fun _ => logic.pure _

theorem chunks_related (logic : Logic setup regime left right related) {nodes : List Statement}
    (admitted : ∀ node ∈ nodes, regime.admits node) :
    related .style (chunks left nodes) (chunks right nodes) := by
  refine logic.bind (logic.mapM_mem fun node member => ?_) fun _ => logic.pure _
  have alone : ∀ other ∈ [node], regime.admits other :=
    List.forall_mem_singleton.mpr (admitted node member)
  refine logic.bind (logic.bind ?_ fun _ => logic.pure _) fun _ => logic.pure _
  exact logic.withoutSelector (logic.job (.block (.style 0) [node]) alone)

end Eval

/-- A template without expressions comes to its own text. -/
theorem Eval.interpolate_plain (setup : Setup) (self : Perform) {template : Template} {text : String}
    (plain : template.plain? = some text) : interpolate setup self template = pure text := by
  obtain ⟨parts, line⟩ := template
  have behind (before : String) (parts : List (Fragment Expr))
      (plain : (⟨.literal before :: parts, line⟩ : Template).plain? = some text) :
      interpolate setup self ⟨.literal before :: parts, line⟩ = pure text := by
    induction parts generalizing before with
    | nil =>
      obtain rfl : before = text := by simpa [Interpolation.plain?] using plain
      simp [interpolate, String.join]
    | cons part rest ih =>
      cases part with
      | expr => simp [Interpolation.plain?] at plain
      | literal own =>
        rw [← ih (before ++ own) (by simpa [Interpolation.plain?, String.append_assoc] using plain)]
        simp [interpolate, String.append_assoc]
  have whole := behind "" parts (by simpa [Interpolation.plain?] using plain)
  rw [← whole]
  simp [interpolate]

/-- A text that a template may come to: a template without expressions comes to its own text. -/
def Interpolation.Yields (template : Template) (text : String) : Prop :=
  ∀ own ∈ template.plain?, text = own

namespace Services

variable (services : Services Run)

def written (body : Body) (selector : String) (level : Nat) : String :=
  let lines :=
    if body.declarations.isEmpty then ""
    else if selector = "" then services.formatDeclarations body.declarations level
    else block selector (services.formatDeclarations body.declarations (level + 1)) level
  lines ++ String.join body.blocks

def contents (nodes : List Statement) (selector : Option String) (level : Nat) : Run String := do
  let body ← services.compileBody nodes selector level
  return services.written body (selector.getD "") level

end Services

/-- The selector of the body of `@at-root`, by the text of the rule's own. -/
def AtRoot.selector? (around : Option String) (query : Option AtRootQuery) (own : Option String) :
    Option String :=
  let selector := effective (filter around query).1 own
  if selector = "" then none else some selector

/-- A body without a selector is written as one whose selector is empty. -/
theorem AtRoot.getD_selector (selector : String) :
    (some selector).getD "" = (if selector = "" then none else some selector).getD "" := by
  split <;> simp_all

/-- What the selector that `@at-root` has for itself may come to. -/
inductive AtRoot.Owns : Option SelectorText → Option String → Prop where
  | none : Owns none none
  | some {selector : SelectorText} {text : String} (yields : selector.text.Yields text) :
      Owns (some selector) (some text)

/-- The block of an at-rule may be compiled under every selector that it may get. -/
def Statement.Compiles (inside : List Statement → Option String → Prop) (around : Option String) :
    Statement → Prop
  | .atRoot own query body _ =>
    ∀ text, AtRoot.Owns own text → inside body (AtRoot.selector? around query text)
  | node => ∀ body, node.block? = some body → inside body around

/-- Services that provide everything and are related one by one. They compile the bodies of at-rules
that `inside` admits under a selector, and define the mixins that `defined` does. How they write is
their own affair, as long as they come to related contents. -/
structure Services.Related (related : Run.Relation)
    (inside : List Statement → Option String → Prop) (defined : List Statement → Prop)
    (services other : Services Run) : Prop where
  capabilities : services.capabilities = other.capabilities
  provided : other.capabilities = Capability.all
  evaluate : ∀ expr, related .value (services.evaluate expr) (other.evaluate expr)
  contents : ∀ {nodes selector}, inside nodes selector → ∀ level,
    related .style (services.contents nodes selector level) (other.contents nodes selector level)
  hoist : ∀ css, related .style (services.hoist css) (other.hoist css)
  interpolate : ∀ template, related .value (services.interpolate template) (other.interpolate template)
  plain : ∀ {template : Template} {text}, template.plain? = some text →
    services.interpolate template = pure text ∧ other.interpolate template = pure text
  format : services.format = other.format
  registerMixin : ∀ {body}, defined body → ∀ name params,
    related .style (services.registerMixin name params body) (other.registerMixin name params body)

/-- Contexts of one handler over related services, which allow what it requires. -/
structure Context.Related (related : Run.Relation)
    (inside : List Statement → Option String → Prop) (defined : List Statement → Prop)
    (required : List Capability) (context other : Context Run) : Prop where
  allowed : context.allowed = required
  allowed_other : other.allowed = required
  services : context.services.Related related inside defined other.services

namespace Context

variable {context : Context Run} (declares : context.allowed.contains .declarations = true)

include declares

theorem formatDeclarations_eq (lines : List String) (level : Nat) :
    context.formatDeclarations lines level =
      pure (context.services.formatDeclarations lines level) := by
  simp only [formatDeclarations, check, declares, if_true, pure_bind]

theorem renderBody_eq (body : Body) (selector : Option String) (level : Nat) :
    context.renderBody body selector level =
      pure (context.services.written body (selector.getD "") level) := by
  simp only [renderBody, renderDeclarations, formatDeclarations_eq declares, Services.written]
  split
  · rw [pure_bind]
  · split
    · rw [pure_bind]
    · rw [pure_bind, pure_bind]

/-- Compiling a body and writing it is one step. -/
theorem contents_bind {β : Type} (nodes : List Statement) {selector shown : Option String}
    (same : shown.getD "" = selector.getD "") (level : Nat) (next : String → Run β) :
    (context.compileBody nodes selector level >>= fun body =>
      context.renderBody body shown level >>= next) =
      (context.check .blocks >>= fun _ => context.services.contents nodes selector level >>= next) := by
  simp only [compileBody, Services.contents, renderBody_eq declares, same, bind_assoc, pure_bind]

end Context

namespace Conditional

variable {context : Context Run}

/-- The statements of such a rule are its block. -/
theorem compiles_of_parts {inside : List Statement → Option String → Prop} {parent : Option String}
    {node : Statement} {keyword : String} {query : Template} {body : List Statement}
    (parts : parts? node = some (keyword, query, body)) (compiles : node.Compiles inside parent) :
    inside body parent := by
  cases node <;> simp_all [parts?, Statement.Compiles, Statement.block?]

variable (context) in
def renderedTest (property value : List Char) : Run (List Char) := do
  let expr ← MonadExcept.ofExcept (Grammar.expression (String.ofList (Chars.trim value)))
  let text ← context.format (← context.evaluate expr)
  return if text.isEmpty then (Piece.test property value).written
    else '(' :: property ++ ": ".toList ++ text.toList ++ [')']

variable (context) in
/-- The condition from some piece on, behind a text and with the first fault so far. A fault that a
test catches is at hand in the handler only, so what is caught goes along to the end there. -/
def evaluateFrom (fault : Option Fault) : List Piece → List Char → Run String
  | [], text =>
    match fault with
    | some (.evaluation fault) => throw (.evaluation fault)
    | some .exhausted => throw .exhausted
    | _ => return String.ofList text
  | .text c :: rest, text => evaluateFrom fault rest (text ++ [c])
  | .test property value :: rest, text => do
    let outcome ← tryCatch (Sum.inr <$> renderedTest context property value) fun caught =>
      match caught with
      | .torn => throw .torn
      | _ => Sum.inl <$> evaluateFrom (fault.or (some caught)) rest
          (text ++ (Piece.test property value).written)
    match outcome with
    | .inl result => return result
    | .inr rendered => evaluateFrom fault rest (text ++ rendered)

theorem evaluateFrom_eq (pieces : List Piece) (text : List Char) (fault : Option Fault) :
    (do
      let progress ← pieces.foldlM (evaluatePiece context) ⟨text, fault⟩
      match progress.fault with
      | some (.evaluation fault) => throw (.evaluation fault)
      | some .exhausted => throw .exhausted
      | _ => return String.ofList progress.text) = evaluateFrom context fault pieces text := by
  induction pieces generalizing text fault with
  | nil => rw [List.foldlM_nil, pure_bind]; rfl
  | cons piece rest ih =>
    rw [List.foldlM_cons, bind_assoc]
    cases piece with
    | text c => exact (pure_bind _ _).trans (ih _ _)
    | test property value =>
      have piece : evaluatePiece context ⟨text, fault⟩ (.test property value) =
          tryCatch ((fun rendered => ⟨text ++ rendered, fault⟩) <$> renderedTest context property value)
            (Progress.leave ⟨text, fault⟩ (.test property value)) := by
        simp only [evaluatePiece, renderedTest, map_bind, map_pure]
      rw [piece, Run.tryCatch_bind]
      unfold evaluateFrom
      congr
      · funext caught
        cases caught with
        | torn => rfl
        | _ =>
          unfold Progress.leave
          rw [pure_bind, ih]
      · funext outcome
        cases outcome with
        | inl result => rfl
        | inr rendered => exact ih _ _

theorem evaluateTests_eq (condition : String) :
    evaluateTests context condition = evaluateFrom context none (piecesFrom 0 condition.toList) [] :=
  evaluateFrom_eq _ _ _

end Conditional

section Handlers

variable {setup : Setup} {regime : Eval.Regime} {left right : Perform} {related : Run.Relation}
  {inside : List Statement → Option String → Prop} {defined : List Statement → Prop}
  {context other : Context Run} {realm : Realm} (logic : Eval.Logic setup regime left right related)

include logic

namespace Context

variable {required : List Capability} (lent : context.Related related inside defined required other)

include lent

theorem check_related {capability : Capability} (granted : required.contains capability = true) :
    related realm (context.check capability) (other.check capability) := by
  unfold Context.check
  rw [lent.allowed, lent.allowed_other, if_pos granted, if_pos granted]
  exact logic.pure _

theorem evaluate_related (granted : required.contains .evaluate = true) (expr : Expr) :
    related realm (context.evaluate expr) (other.evaluate expr) :=
  logic.bind (check_related logic lent granted) fun _ => logic.value (lent.services.evaluate expr)

theorem contents_related {β : Type} (declares : required.contains .declarations = true)
    (granted : required.contains .blocks = true) {nodes : List Statement}
    {selector shown : Option String} (admitted : inside nodes selector)
    (same : shown.getD "" = selector.getD "") (level : Nat) {next nextOther : String → Run β}
    (rest : ∀ text, related .style (next text) (nextOther text)) :
    related .style
      (context.compileBody nodes selector level >>= fun body =>
        context.renderBody body shown level >>= next)
      (other.compileBody nodes selector level >>= fun body =>
        other.renderBody body shown level >>= nextOther) := by
  rw [contents_bind (lent.allowed ▸ declares) nodes same,
    contents_bind (lent.allowed_other ▸ declares) nodes same]
  refine logic.bind (check_related logic lent granted) fun _ => ?_
  exact logic.bind (lent.services.contents admitted level) rest

theorem hoist_related (granted : required.contains .blocks = true) (css : String) :
    related .style (context.hoist css) (other.hoist css) :=
  logic.bind (check_related logic lent granted) fun _ => lent.services.hoist css

theorem interpolate_related (granted : required.contains .interpolation = true) (template : Template) :
    related realm (context.interpolate template) (other.interpolate template) :=
  logic.bind (check_related logic lent granted) fun _ => logic.value (lent.services.interpolate template)

/-- A template without expressions comes to its own text on both sides. -/
theorem interpolate_bind_related {β : Type} (granted : required.contains .interpolation = true)
    (template : Template) {next nextOther : String → Run β}
    (rest : ∀ text, template.Yields text → related .style (next text) (nextOther text)) :
    related .style (context.interpolate template >>= next)
      (other.interpolate template >>= nextOther) := by
  cases plain : template.plain? with
  | none =>
    refine logic.bind (interpolate_related logic lent granted template) fun text => rest text ?_
    simp [Interpolation.Yields, plain]
  | some text =>
    obtain ⟨first, second⟩ := lent.services.plain plain
    unfold Context.interpolate
    rw [first, second, bind_assoc, bind_assoc]
    refine logic.bind (check_related logic lent granted) fun _ => ?_
    rw [pure_bind, pure_bind]
    exact rest text (by simp [Interpolation.Yields, plain])

theorem format_related (granted : required.contains .format = true) (value : Value) :
    related realm (context.format value) (other.format value) := by
  refine logic.bind (check_related logic lent granted) fun _ => ?_
  rw [lent.services.format]
  exact logic.pure _

theorem registerMixin_related (granted : required.contains .mixins = true) {body : List Statement}
    (admitted : defined body) (name : String) (params : Parameters) :
    related .style (context.registerMixin name params body) (other.registerMixin name params body) :=
  logic.bind (check_related logic lent granted) fun _ => lent.services.registerMixin admitted name params

end Context

section Conditional

variable (lent : context.Related related inside defined Conditional.required other)

include lent

theorem Conditional.renderedTest_related (property value : List Char) :
    related realm (Conditional.renderedTest context property value)
      (Conditional.renderedTest other property value) := by
  refine logic.bind (logic.ofExcept (Grammar.sound_expression _)) fun expr => ?_
  refine logic.bind (Context.evaluate_related logic lent rfl expr) fun value => ?_
  exact logic.bind (Context.format_related logic lent rfl value) fun text => logic.pure _

theorem Conditional.evaluateFrom_related {fault : Option Fault} (fine : ∀ own ∈ fault, regime.fine own)
    (pieces : List Conditional.Piece) (text : List Char) :
    related realm (Conditional.evaluateFrom context fault pieces text)
      (Conditional.evaluateFrom other fault pieces text) := by
  induction pieces generalizing fault text with
  | nil =>
    unfold Conditional.evaluateFrom
    split
    · exact logic.throw (fine _ rfl)
    · exact logic.throw (fine _ rfl)
    · exact logic.pure _
  | cons piece rest ih =>
    cases piece with
    | text c => exact ih fine _
    | test property value =>
      refine logic.bind (logic.tryCatch ?_ fun caught own => ?_) fun outcome => ?_
      · exact logic.map _ (renderedTest_related logic lent property value)
      · have both : ∀ first ∈ fault.or (some caught), regime.fine first := by
          cases fault with
          | none => simpa using own
          | some first => simpa using fine first rfl
        split
        · exact logic.throw own
        · exact logic.map _ (ih both _)
      · cases outcome with
        | inl result => exact logic.pure _
        | inr rendered => exact ih fine _

theorem Conditional.evaluateTests_related (condition : String) :
    related realm (Conditional.evaluateTests context condition)
      (Conditional.evaluateTests other condition) := by
  rw [Conditional.evaluateTests_eq, Conditional.evaluateTests_eq]
  exact evaluateFrom_related logic lent (fun _ none => by cases none) _ _

theorem Conditional.finish_related (keyword condition : String) {body : List Statement}
    {parent : Option String} (admitted : inside body parent) (level : Nat)
    (change : String → String) :
    related .style (Conditional.finish context keyword condition body parent level change)
      (Conditional.finish other keyword condition body parent level change) := by
  apply Context.contents_related logic lent rfl rfl admitted rfl
  intro rendered
  dsimp only
  split <;> exact logic.pure _

theorem Conditional.compile_related {node : Statement} {parent : Option String}
    (compiles : node.Compiles inside parent) (level : Nat) :
    related .style (Conditional.compile context node parent level)
      (Conditional.compile other node parent level) := by
  unfold Conditional.compile
  split
  · exact logic.pure _
  · rename_i keyword query own parts
    have admitted : inside own parent := compiles_of_parts parts compiles
    refine logic.bind (Context.interpolate_related logic lent rfl query) fun written => ?_
    split
    · exact logic.bind (evaluateTests_related logic lent written) fun condition =>
        finish_related logic lent keyword condition admitted level fun rendered => rendered
    · exact finish_related logic lent keyword written admitted level SelectorList.split

end Conditional

section Keyframes

variable (lent : context.Related related inside defined Keyframes.required other)

include lent

theorem Keyframes.keyframe_related (level : Nat) (frame : KeyframeBlock Statement) :
    related realm (Keyframes.keyframe context level frame) (Keyframes.keyframe other level frame) := by
  have declared (d : Declaration Statement) :
      related realm (Keyframes.declaration context (level + 1) d)
        (Keyframes.declaration other (level + 1) d) := by
    unfold Keyframes.declaration
    split
    · exact logic.pure _
    · refine logic.bind (Context.interpolate_related logic lent rfl _) fun property => ?_
      refine logic.bind (Context.evaluate_related logic lent rfl _) fun value => ?_
      refine logic.bind (Context.format_related logic lent rfl value) fun text => ?_
      split <;> exact logic.pure _
  exact logic.bind (logic.mapM _ declared) fun lines => logic.pure _

theorem Keyframes.compile_related (node : Statement) (level : Nat) :
    related realm (Keyframes.compile context node level) (Keyframes.compile other node level) := by
  unfold Keyframes.compile
  split
  · refine logic.bind (Context.interpolate_related logic lent rfl _) fun name => ?_
    exact logic.bind (logic.mapM _ (keyframe_related logic lent _)) fun frames => logic.pure _
  · exact logic.pure _

end Keyframes

section AtRoot

variable (lent : context.Related related inside defined AtRoot.required other)

include lent

theorem AtRoot.finish_related {around : Option String} {query : Option AtRootQuery}
    {body : List Statement} {own : Option String} (admitted : inside body (AtRoot.selector? around query own))
    (level : Nat) :
    related .style (AtRoot.finish context around query body level own)
      (AtRoot.finish other around query body level own) := by
  apply Context.contents_related logic lent rfl rfl admitted (AtRoot.getD_selector _)
  intro css
  split
  · exact logic.bind (Context.hoist_related logic lent rfl css) fun _ => logic.pure _
  · exact logic.pure _

theorem AtRoot.compile_related {node : Statement} {around : Option String}
    (compiles : node.Compiles inside around) (level : Nat) :
    related .style (AtRoot.compile context node around level)
      (AtRoot.compile other node around level) := by
  unfold AtRoot.compile
  split
  · dsimp only
    split
    · rw [map_eq_pure_bind, map_eq_pure_bind, bind_assoc, bind_assoc]
      apply Context.interpolate_bind_related logic lent rfl
      intro text yields
      rw [pure_bind, pure_bind]
      exact finish_related logic lent (compiles (some text) (.some yields)) level
    · exact finish_related logic lent (compiles none .none) level
  · exact logic.pure _

end AtRoot

section Generic

variable (lent : context.Related related inside defined Generic.required other)

include lent

theorem Generic.evaluateValue_related (written : String) :
    related realm (Generic.evaluateValue context written)
      (Generic.evaluateValue other written) := by
  unfold Generic.evaluateValue
  split
  · exact logic.pure _
  · have read : related realm (MonadExcept.ofExcept (Grammar.expression written))
        (MonadExcept.ofExcept (Grammar.expression written)) :=
      logic.ofExcept (Grammar.sound_expression written)
    refine logic.tryCatch (logic.bind read fun expr => ?_) fun fault fine => ?_
    · refine logic.bind (Context.evaluate_related logic lent rfl expr) fun value => ?_
      exact Context.format_related logic lent rfl value
    · split
      · exact logic.throw fine
      · exact logic.throw fine
      · exact logic.throw fine
      · exact logic.pure _

theorem Generic.compile_related {node : Statement} {parent : Option String}
    (compiles : node.Compiles inside parent) (mixin : ∀ body, node.mixin? = some body → defined body)
    (level : Nat) :
    related .style (Generic.compile context node parent level)
      (Generic.compile other node parent level) := by
  unfold Generic.compile
  split
  · rename_i body _
    have admitted : defined body := mixin body rfl
    exact logic.bind (Context.registerMixin_related logic lent rfl admitted _ _) fun _ => logic.pure _
  · rename_i name _ body _
    refine logic.bind (Context.interpolate_related logic lent rfl _) fun written => ?_
    split
    · rename_i named
      have admitted : defined (body.getD []) := mixin _ (if_pos named)
      refine logic.bind (logic.ofExcept (Grammar.sound_signature written)) fun signature => ?_
      exact logic.bind (Context.registerMixin_related logic lent rfl admitted _ _) fun _ => logic.pure _
    · refine logic.bind (evaluateValue_related logic lent written) fun value => ?_
      cases body with
      | none => exact logic.pure _
      | some nodes =>
        have admitted : inside nodes parent := compiles nodes rfl
        apply Context.contents_related logic lent rfl rfl admitted rfl
        intro contents
        exact logic.pure _
  · exact logic.pure _

end Generic

theorem Strategy.dispatch_related {services otherServices : Services Run}
    (lent : services.Related related inside defined otherServices) {node : Statement}
    (handled : node.kind? ≠ none) {parent : Option String} (compiles : node.Compiles inside parent)
    (mixin : ∀ body, node.mixin? = some body → defined body) (level : Nat) :
    related .style (Strategy.dispatch setup.strategies services node parent level)
      (Strategy.dispatch setup.strategies otherServices node parent level) := by
  obtain ⟨kind, named⟩ := Option.ne_none_iff_exists'.mp handled
  unfold Strategy.dispatch
  rw [named]
  dsimp only
  cases found : Strategy.find? setup.strategies kind with
  | none => exact logic.throw (logic.unhandled found)
  | some strategy =>
    have provided : Capability.missing? strategy.required otherServices.capabilities = none := by
      rw [lent.provided]
      exact Capability.missing?_all _
    dsimp only
    unfold Strategy.run Context.create
    rw [lent.capabilities, provided]
    have both : Context.Related related inside defined strategy.required
        ⟨strategy.name, strategy.required, services⟩
        ⟨strategy.name, strategy.required, otherServices⟩ := ⟨rfl, rfl, lent⟩
    cases strategy with
    | conditional => exact Conditional.compile_related logic both compiles level
    | keyframes => exact Keyframes.compile_related logic both node level
    | atRoot => exact AtRoot.compile_related logic both compiles level
    | generic => exact Generic.compile_related logic both compiles mixin level

end Handlers

def Job.Unstyled {α : Type} : Job α → Prop
  | .block (.style _) _ => False
  | _ => True

namespace Eval

variable {setup : Setup} {regime : Regime} {left right : Perform} {related : Run.Relation}

section Parts

variable (logic : Logic setup regime left right related)

include logic

theorem nestedLines_related (property : String) {node : Statement} (admitted : regime.admits node) :
    related .style (nestedLines left property node) (nestedLines right property node) := by
  unfold nestedLines
  split
  · rename_i inner
    exact logic.job (.declare inner (some property)) (regime.within admitted)
  · exact logic.pure _
  · have alone : ∀ other ∈ [node], regime.admits other := List.forall_mem_singleton.mpr admitted
    exact logic.bind (logic.job (.block (.style 0) [node]) alone) fun outcome => logic.pure _

theorem declaration_related {d : Declaration Statement}
    (admitted : ∀ node ∈ d.nested, regime.admits node) (outer : Option String) :
    related .style (declaration setup left d outer) (declaration setup right d outer) := by
  have nested (property : String) (own : List String) : related .style
      (do return own ++ (← d.nested.mapM (nestedLines left property)).flatten)
      (do return own ++ (← d.nested.mapM (nestedLines right property)).flatten) :=
    logic.bind (logic.mapM_mem fun node member =>
      nestedLines_related logic property (admitted node member)) fun lines => logic.pure _
  refine logic.bind (logic.value (interpolate_related logic _)) fun name => ?_
  dsimp only
  split
  · exact logic.bind (logic.evaluate _ false) fun value => nested _ _
  · exact nested _ []

end Parts

section Statements

variable (logic : StyleLogic setup regime left right related)

include logic

/-- Services whose contents are related are related. -/
theorem services_related {inside : List Statement → Option String → Prop}
    (contents : ∀ {nodes selector}, inside nodes selector → ∀ level,
      related .style ((services setup left).contents nodes selector level)
        ((services setup right).contents nodes selector level)) :
    (services setup left).Related related inside
      (fun body => ∃ node, regime.admits node ∧ node.mixin? = some body) (services setup right) where
  capabilities := rfl
  provided := rfl
  evaluate expr := logic.evaluate expr false
  contents := contents
  hoist := logic.hoist
  interpolate template := interpolate_related logic.toLogic template
  plain own := ⟨interpolate_plain setup left own, interpolate_plain setup right own⟩
  format := rfl
  registerMixin := fun ⟨_, admitted, defined⟩ name params => logic.defineMixin admitted defined name params

/-- At-rules without a block. -/
theorem blocklessRule_related {node : Statement} (admitted : regime.admits node)
    (blockless : node.block? = none) (handled : node.kind? ≠ none) (around : Option String) (level : Nat) :
    related .style (atRule setup left node around level) (atRule setup right node around level) := by
  have lent : (services setup left).Related related (fun _ _ => False) _ (services setup right) :=
    services_related logic nofun
  apply Strategy.dispatch_related logic.toLogic lent handled
  · cases node <;> simp_all [Statement.Compiles, Statement.block?]
  · exact fun _ defined => ⟨node, admitted, defined⟩

/-- Statements without a block of their own. -/
theorem plainStatement_related {node : Statement} (admitted : regime.admits node)
    (blockless : node.block? = none) (globals : node.setsGlobal → regime.globals) (level : Nat) :
    related .style (styleStatement setup left node level)
      (styleStatement setup right node level) := by
  have ruled := blocklessRule_related logic admitted blockless
  have base := logic.toLogic
  have inside := regime.within admitted
  refine logic.look (fun _ _ => ?_) fun machine => ?_
  · rcases node with _ | _ | _ | _ | ⟨_, _, _ | _, _⟩ <;> rfl
  cases node with
  | property d => exact logic.bind (logic.job (.declare d none) inside) fun _ => logic.pure _
  | customProperty name value =>
    refine logic.bind (logic.value (interpolate_related base name)) fun name => ?_
    exact logic.bind (logic.value (interpolate_related base value)) fun value => logic.pure _
  | assign qualifier name value default global =>
    refine logic.bind (assignment_related base (.style level) qualifier name value default ?_)
      fun _ => logic.pure _
    rintro rfl rfl
    exact globals trivial
  | comment text =>
    dsimp only
    split <;> exact logic.pure _
  | functionDef name params body =>
    exact logic.bind (logic.defineFunction admitted) fun _ => logic.pure _
  | returnValue value => exact base.fail _
  | ifElse tests => exact logic.bind (branches_related base (.style level) inside) fun _ => logic.pure _
  | eachLoop names list body =>
    exact logic.bind (eachLoop_related base (.style level) names list inside) fun _ => logic.pure _
  | forLoop name first last inclusive body =>
    exact logic.bind (forLoop_related base (.style level) name first last inclusive inside)
      fun _ => logic.pure _
  | whileLoop condition body =>
    exact logic.bind (logic.job (.repeat (.style level) condition body) inside) fun _ => logic.pure _
  | includeMixin qualifier name args content => exact logic.includeMixin level admitted
  | contentSlot args => exact logic.contentSlot level admitted
  | useModule url given config => exact logic.useModule admitted
  | forwardModule url affix filter => exact logic.forwardModule admitted
  | importSheets urls =>
    refine logic.bind (base.mapM_mem fun url member => ?_) fun _ => logic.pure _
    exact logic.importSheet level admitted member
  | message kind value line =>
    exact logic.bind (message_related base (.style level) admitted) fun _ => logic.pure _
  | extend selector =>
    refine logic.bind (logic.value (interpolate_related base selector)) fun target => ?_
    refine logic.look (fun _ _ => rfl) fun machine => ?_
    exact logic.bind (base.log _ _) fun _ => logic.pure _
  | atRule name value body =>
    cases body with
    | some body => cases blockless
    | none =>
      dsimp only
      split
      · exact logic.bind (ruled nofun _ 0) fun _ => logic.pure _
      · exact logic.bind (ruled nofun _ level) fun _ => logic.pure _
  | keyframes | mixinDef => exact logic.bind (ruled nofun _ level) fun _ => logic.pure _
  | rule | media | atRoot | supports | container => cases blockless

/-- Jobs other than style blocks are related if the jobs inside them are. -/
theorem unstyledStep_related {α : Type} {job : Job α} (fits : regime.Fits job)
    (unstyled : job.Unstyled) (globals : regime.globals) :
    related job.realm (step setup left job) (step setup right job) := by
  have base := logic.toLogic
  cases job with
  | evaluate expr divides => exact expression_related base expr divides
  | calculate expr => exact calculation_related base expr
  | call qualifier name args => exact logic.invoke qualifier name args
  | declare d outer => exact declaration_related base fits outer
  | block mode nodes =>
    cases mode with
    | style level => exact absurd unstyled id
    | function =>
      refine logic.untilReturn_mem fun node member => logic.located .function (fits node member) ?_
      exact functionStatement_related base (fits node member) fun _ => globals
  | «repeat» mode condition nodes => exact whileLoop_related base mode condition fits

end Statements

section Blocks

variable (logic : BlockLogic setup regime left right related)

include logic

theorem rule_related (selector : SelectorText) {body : List Statement}
    (admitted : ∀ node ∈ body, regime.admits node) (level : Nat) :
    related .style (rule setup left selector body level) (rule setup right selector body level) := by
  refine logic.bind (logic.value (interpolate_related logic.toLogic _)) fun own => ?_
  refine logic.look (fun _ _ => rfl) fun machine => ?_
  refine logic.bind ?_ fun compiled => ?_
  · exact logic.withFrame (.style level) false (blockUnder_related logic _ level admitted)
  · dsimp only
    split
    · exact logic.pure _
    · refine logic.bind ?_ fun _ => logic.pure _
      exact logic.change (fun machine => .note machine _) (fun _ _ => rfl) (fun _ => rfl)
        (.inr fun _ _ _ => rfl)

theorem atRule_related {node : Statement} (admitted : regime.admits node)
    (handled : node.kind? ≠ none) (around : Option String) (level : Nat) :
    related .style (atRule setup left node around level) (atRule setup right node around level) := by
  have lent : (services setup left).Related related
      (fun nodes _ => ∀ node ∈ nodes, regime.admits node) _ (services setup right) :=
    services_related logic.toStyleLogic fun admitted level =>
      logic.bind (blockUnder_related logic _ level admitted) fun _ => logic.pure _
  apply Strategy.dispatch_related logic.toLogic lent handled
  · cases node with
    | atRoot own query body => exact fun _ _ => logic.inside admitted rfl
    | _ => exact fun _ block => logic.inside admitted block
  · exact fun _ defined => ⟨node, admitted, defined⟩

theorem styleStatement_related {node : Statement} (admitted : regime.admits node)
    (globals : node.setsGlobal → regime.globals) (level : Nat) :
    related .style (styleStatement setup left node level)
      (styleStatement setup right node level) := by
  have base := logic.toLogic
  have ruled (handled : node.kind? ≠ none) (around : Option String) (level : Nat) :=
    atRule_related logic admitted handled around level
  cases node with
  | rule selector body =>
    refine logic.look (fun _ _ => rfl) fun machine => ?_
    have inside := logic.inside admitted rfl
    exact logic.bind (rule_related logic selector inside level) fun _ => logic.pure _
  | media query body =>
    refine logic.look (fun _ _ => rfl) fun machine => ?_
    refine logic.bind (logic.value (interpolate_related base query)) fun query => ?_
    exact logic.bind (logic.withMedia query (ruled nofun _ level)) fun _ => logic.pure _
  | atRoot selector query body =>
    refine logic.look (fun _ _ => rfl) fun machine => logic.look (fun _ _ => rfl) fun machine => ?_
    exact logic.bind (ruled nofun _ level) fun _ => logic.pure _
  | atRule name value body =>
    cases body with
    | none => exact plainStatement_related logic.toStyleLogic admitted rfl globals level
    | some body =>
      refine logic.look (fun _ _ => rfl) fun machine => ?_
      exact logic.bind (ruled nofun _ level) fun _ => logic.pure _
  | supports | container =>
    refine logic.look (fun _ _ => rfl) fun machine => ?_
    exact logic.bind (ruled nofun _ level) fun _ => logic.pure _
  | property | customProperty | assign | comment | functionDef | returnValue | ifElse | eachLoop
  | forLoop | whileLoop | includeMixin | contentSlot | useModule | forwardModule | importSheets
  | message | extend | keyframes | mixinDef =>
    exact plainStatement_related logic.toStyleLogic admitted rfl globals level

theorem statement_related (mode : Mode) {node : Statement} (admitted : regime.admits node)
    (globals : node.setsGlobal → regime.globals) :
    related mode.realm (statement setup left mode node) (statement setup right mode node) := by
  refine logic.located mode admitted ?_
  cases mode with
  | style level =>
    exact logic.bind (styleStatement_related logic admitted globals level) fun _ => logic.pure _
  | function => exact functionStatement_related logic.toLogic admitted globals

/-- Jobs are related if the jobs inside them are. -/
theorem step_related {α : Type} {job : Job α} (fits : regime.Fits job) (globals : regime.globals) :
    related job.realm (step setup left job) (step setup right job) := by
  cases job with
  | block mode nodes =>
    exact logic.untilReturn_mem fun node member =>
      statement_related logic mode (fits node member) fun _ => globals
  | evaluate | calculate | call | declare | «repeat» =>
    exact unstyledStep_related logic.toStyleLogic fits trivial globals

end Blocks

end Eval

end Scss
