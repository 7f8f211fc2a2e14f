import Scss.Proofs.Dressing
import Scss.Proofs.SourceMaps.Handlers

/-! The evaluator beside its twin that writes tags before the heads of style rules: statement by
statement, and then by induction on how deep jobs nest. So the output of a stylesheet has its heads where
the twin writes its tags, and all these heads are noted. -/
namespace Scss

open Run (Tagged TaggedSame Level)

variable {tag : PendingMapping → String}

/-- Two yields with the same lines and the same value, and blocks with tags in the second. -/
structure Yield.Laid (tag : PendingMapping → String) (outcome twin : Yield)
    (heads : Multiset PendingMapping) : Prop where
  body : outcome.body.Laid tag twin.body heads
  returned : twin.returned = outcome.returned

theorem Yield.Laid.append {first twin second also : Yield} {heads more : Multiset PendingMapping}
    (laid : first.Laid tag twin heads) (others : second.Laid tag also more) :
    (first.append second).Laid tag (twin.append also) (heads + more) :=
  ⟨laid.body.append others.body, others.returned⟩

theorem Yield.laid_nothing : Yield.nothing.Laid tag .nothing 0 := ⟨.empty, rfl⟩

instance : Std.Associative Body.append := ⟨Body.append_assoc⟩

/-- All bodies of a list as one. -/
theorem Body.foldl_append_cons (body : Body) (rest : List Body) :
    (body :: rest).foldl Body.append .empty = body.append (rest.foldl Body.append .empty) := by
  rw [List.foldl_cons, empty_append]
  nth_rewrite 1 [← append_empty body]
  exact List.foldl_assoc

namespace Run.Tagged

variable {α β : Type}

/-- Results one by one, collected with all their heads. -/
theorem mapM {step stepTwin : α → Run β} {agree : β → β → Multiset PendingMapping → Prop}
    {all : List β → List β → Multiset PendingMapping → Prop} (nil : all [] [] 0)
    (cons : ∀ {value other heads values others more}, agree value other heads →
      all values others more → all (value :: values) (other :: others) (heads + more))
    (each : ∀ item, Tagged tag 0 agree (step item) (stepTwin item)) (items : List α) :
    Tagged tag 0 all (items.mapM step) (items.mapM stepTwin) := by
  induction items with
  | nil => exact .pure nil
  | cons item rest ih =>
    rw [List.mapM_cons, List.mapM_cons]
    refine .bind (each item) fun {value other heads} first => ?_
    refine .bind (ih.frame heads) ?_
    rintro values others _ ⟨more, behind, rfl⟩
    exact .pure (cons first behind)

/-- Results that are the same, one by one. -/
theorem mapM_same {step stepTwin : α → Run β} (each : ∀ item, TaggedSame tag (step item) (stepTwin item))
    (items : List α) : TaggedSame tag (items.mapM step) (items.mapM stepTwin) :=
  mapM .same (fun | .same, .same => .same) each items

/-- Steps until one returns: both stop at the same one. -/
theorem untilReturn {step stepTwin : α → Run Yield}
    (each : ∀ item, Tagged tag 0 (Yield.Laid tag) (step item) (stepTwin item)) (items : List α) :
    Tagged tag 0 (Yield.Laid tag) (Run.untilReturn step items) (Run.untilReturn stepTwin items) := by
  induction items with
  | nil => exact .pure Yield.laid_nothing
  | cons item rest ih =>
    refine .bind (each item) fun {value other heads} first => ?_
    rw [first.returned]
    split
    · exact .pure first
    · refine .bind (ih.frame heads) ?_
      rintro outcome twin _ ⟨more, behind, rfl⟩
      exact .pure (first.append behind)

end Run.Tagged

structure Perform.Tagged (tag : PendingMapping → String) (plain twin : Perform) : Prop where
  level : ∀ {α : Type} (job : Job α), Level tag job.realm (twin job) (plain job)
  declare : ∀ d outer, TaggedSame tag (plain (.declare d outer)) (twin (.declare d outer))
  block : ∀ level nodes, Run.Tagged tag 0 (Yield.Laid tag) (plain (.block (.style level) nodes))
    (twin (.block (.style level) nodes))
  again : ∀ level condition nodes, Run.Tagged tag 0 (Yield.Laid tag)
    (plain (.repeat (.style level) condition nodes)) (twin (.repeat (.style level) condition nodes))

/-- Two outputs of one module, with tags in the second. -/
structure Eval.ModuleLaid (tag : PendingMapping → String) (result twin : ModuleRef × Option String)
    (heads : Multiset PendingMapping) : Prop where
  module_ : twin.1 = result.1
  css : Text.AllLaid tag result.2.toList twin.2.toList heads

def Dress.tagging (tag : PendingMapping → String) : Dress := ⟨PendingMapping.tagged tag, id⟩

namespace Eval

variable {setup : Setup} {self twin : Perform} (inner : self.Tagged tag twin)

include inner

section Values

/-- What does not run in style blocks is related. -/
theorem logic_of_tagged (setup : Setup) : Logic setup .free twin self (Level tag) :=
  logic_level inner.level

theorem interpolate_tagged (setup : Setup) (template : Template) :
    TaggedSame tag (interpolate setup self template) (interpolate setup twin template) :=
  Level.same (interpolate_related (logic_of_tagged inner setup) template)

theorem arguments_tagged (setup : Setup) (args : List (Argument Expr)) :
    TaggedSame tag (arguments self args) (arguments twin args) :=
  Level.same (arguments_related (logic_of_tagged inner setup) args)

theorem bind_tagged (setup : Setup) (params : Parameters) (args : CallArgs) (callee : String) :
    TaggedSame tag (bind self params args callee) (bind twin params args callee) :=
  bind_related (logic_of_tagged inner setup) .function params args callee nofun

theorem evaluate_tagged (expr : Expr) (divides : Bool) :
    TaggedSame tag (self (.evaluate expr divides)) (twin (.evaluate expr divides)) :=
  Level.same (inner.level (.evaluate expr divides))

theorem callUser_level (setup : Setup) (function : Callable) (args : CallArgs) :
    Level tag .value (callUser twin function args) (callUser self function args) := by
  intro _
  have body := runFunction_related (logic_of_tagged inner setup) function (fun _ _ => trivial) args nofun
  refine .andThen (.inFunction function.env body) fun outcome => ?_
  split
  · exact .pure .same
  · exact .fail _

theorem invoke_level (qualifier : Option String) (name : String) (args : CallArgs) :
    Level tag .value (invoke setup twin qualifier name args) (invoke setup self qualifier name args) := by
  have logic := logic_of_tagged inner setup
  refine logic.look (fun machine margin => ?_) fun machine => ?_
  · rw [Machine.function?_withMargin]
  refine logic.bind (logic.ofCause _) fun target => ?_
  split
  · exact callUser_level inner setup _ args
  · exact callModule_related logic _ name args
  · split
    · exact logic.fail _
    · exact callGlobal_related logic name args

end Values

section Control

variable (level : Nat)

theorem runScoped_tagged (body : List Statement) :
    Run.Tagged tag 0 (Yield.Laid tag) (runScoped self (.style level) body)
      (runScoped twin (.style level) body) :=
  .look (fun _ _ => rfl) fun _ => .withFrame _ (inner.block level body)

theorem holds_tagged (setup : Setup) (condition : Expr) :
    TaggedSame tag (holds self condition) (holds twin condition) :=
  Level.same (holds_related (logic_of_tagged inner setup) condition)

theorem branches_tagged (setup : Setup) (tests : List (Branch Statement)) :
    Run.Tagged tag 0 (Yield.Laid tag) (branches self (.style level) tests)
      (branches twin (.style level) tests) := by
  induction tests with
  | nil => exact .pure Yield.laid_nothing
  | cons branch rest ih =>
    have chosen (taken : Bool) : Run.Tagged tag 0 (Yield.Laid tag)
        (if taken then runScoped self (.style level) branch.body else branches self (.style level) rest)
        (if taken then runScoped twin (.style level) branch.body
          else branches twin (.style level) rest) := by
      split
      · exact runScoped_tagged inner level branch.body
      · exact ih
    unfold branches
    split
    · exact .andThen (holds_tagged inner setup _) chosen
    · exact chosen true

theorem whileLoop_tagged (setup : Setup) (condition : Expr) (body : List Statement) :
    Run.Tagged tag 0 (Yield.Laid tag) (whileLoop self (.style level) condition body)
      (whileLoop twin (.style level) condition body) := by
  refine .andThen (holds_tagged inner setup condition) fun again => ?_
  split
  · refine .bind (runScoped_tagged inner level body) fun {value other heads} first => ?_
    rw [first.returned]
    split
    · exact .pure first
    · refine .bind ((inner.again level condition body).frame heads) ?_
      rintro outcome twin _ ⟨more, behind, rfl⟩
      exact .pure (first.append behind)
  · exact .pure Yield.laid_nothing

theorem overDefinitions_tagged (setup : Setup) (rounds : List (List (String × Value)))
    (body : List Statement) :
    Run.Tagged tag 0 (Yield.Laid tag) (overDefinitions self (.style level) rounds body)
      (overDefinitions twin (.style level) rounds body) := by
  have logic := logic_of_tagged inner setup
  refine .look (fun _ _ => rfl) fun machine => .untilReturn (fun round => ?_) rounds
  refine .withFrame _ (.andThen (logic.defineAll .function round nofun) fun _ => ?_)
  exact inner.block level body

theorem eachLoop_tagged (setup : Setup) (names : List String) (list : Expr) (body : List Statement) :
    Run.Tagged tag 0 (Yield.Laid tag) (eachLoop self (.style level) names list body)
      (eachLoop twin (.style level) names list body) :=
  .andThen (evaluate_tagged inner list false) fun _ => overDefinitions_tagged inner level setup _ body

theorem forLoop_tagged (setup : Setup) (name : String) (first last : Expr) (inclusive : Bool)
    (body : List Statement) :
    Run.Tagged tag 0 (Yield.Laid tag) (forLoop self (.style level) name first last inclusive body)
      (forLoop twin (.style level) name first last inclusive body) := by
  have bounded (expr : Expr) : TaggedSame tag (bound self expr) (bound twin expr) :=
    Level.same (bound_related (logic_of_tagged inner setup) expr)
  have rest (start stop : Number) : Run.Tagged tag 0 (Yield.Laid tag)
      (do
        let unit := start.unit.or stop.unit
        let low ← Run.ofCause (wholeBound start)
        let high ← Run.ofCause (wholeBound stop)
        let rounds := (steps low high inclusive).map fun step =>
          [(name, Value.number ⟨Float.ofInt step, unit⟩)]
        overDefinitions self (.style level) rounds body)
      (do
        let unit := start.unit.or stop.unit
        let low ← Run.ofCause (wholeBound start)
        let high ← Run.ofCause (wholeBound stop)
        let rounds := (steps low high inclusive).map fun step =>
          [(name, Value.number ⟨Float.ofInt step, unit⟩)]
        overDefinitions twin (.style level) rounds body) := by
    refine .andThen (.ofCause _) fun low => .andThen (.ofCause _) fun high => ?_
    exact overDefinitions_tagged inner level setup _ body
  refine .andThen (bounded first) fun start => .andThen (bounded last) fun stop => ?_
  split
  · exact rest start stop
  · exact .andThen (.ofCause _) fun stop => rest start stop

theorem includeMixin_tagged (setup : Setup) (qualifier : Option String) (name : String)
    (args : List (Argument Expr)) (content : Option (ContentBlock Statement)) :
    Run.Tagged tag 0 (Body.Laid tag) (includeMixin self qualifier name args content level)
      (includeMixin twin qualifier name args content level) := by
  refine .look (fun machine texts => ?_) fun machine => .andThen (.ofCause _) fun target => ?_
  · rw [Machine.withHoisted, Machine.mixin?_withMargin]
  split
  · exact .fail _
  · rename_i mixin
    refine .andThen (arguments_tagged inner setup args) fun values => ?_
    refine .bind (.inMixin mixin.env content (.andThen (bind_tagged inner setup _ values _) fun _ =>
      inner.block level mixin.body)) fun laid => .pure laid.body

theorem contentSlot_tagged (setup : Setup) (args : List (Argument Expr)) :
    Run.Tagged tag 0 (Body.Laid tag) (contentSlot self args level) (contentSlot twin args level) := by
  refine .look (fun _ _ => rfl) fun machine => ?_
  split
  · exact .pure .empty
  · rename_i block _
    refine .andThen (arguments_tagged inner setup args) fun values => .look (fun _ _ => rfl) fun later => ?_
    split
    · exact .pure .empty
    · rename_i frame _ _
      refine .bind (.inContent frame (.andThen (bind_tagged inner setup _ values _) fun _ =>
        inner.block level block.body)) fun laid => .pure laid.body

end Control

theorem nestedLines_tagged (property : String) (node : Statement) :
    TaggedSame tag (nestedLines self property node) (nestedLines twin property node) := by
  unfold nestedLines
  split
  · exact inner.declare _ _
  · exact .pure .same
  · refine .bind (inner.block 0 [node]) fun laid => ?_
    rw [laid.body.declarations]
    -- Blocks inside a declaration get lost, and their heads with them.
    exact .weaken (.pure .same) (Multiset.zero_le _)

theorem declaration_tagged (d : Declaration Statement) (outer : Option String) :
    TaggedSame tag (declaration setup self d outer) (declaration setup twin d outer) := by
  have nested (property : String) (own : List String) : TaggedSame tag
      (do return own ++ (← d.nested.mapM (nestedLines self property)).flatten)
      (do return own ++ (← d.nested.mapM (nestedLines twin property)).flatten) :=
    .andThen (.mapM_same (nestedLines_tagged inner property) d.nested) fun lines => .pure .same
  refine .andThen (interpolate_tagged inner setup _) fun name => ?_
  dsimp only
  split
  · exact .andThen (evaluate_tagged inner _ false) fun value => nested _ _
  · exact nested _ []

theorem assignment_tagged (qualifier : Option String) (name : String) (expr : Expr)
    (default global : Bool) :
    TaggedSame tag (assignment setup self qualifier name expr default global)
      (assignment setup twin qualifier name expr default global) :=
  assignment_related (logic_of_tagged inner setup) .function qualifier name expr default
    (fun _ _ => trivial) nofun

theorem message_tagged (setup : Setup) (kind : MessageKind) (expr : Expr) (line : Nat) :
    TaggedSame tag (message self kind expr line) (message twin kind expr line) :=
  message_related (logic_of_tagged inner setup) .function trivial nofun

theorem blockUnder_tagged (selector : Option String) (level : Nat) (nodes : List Statement) :
    Run.Tagged tag 0 (Body.Laid tag) (blockUnder self selector level nodes)
      (blockUnder twin selector level nodes) :=
  .bind (.withSelector selector (inner.block level nodes)) fun laid => .pure laid.body

/-- A style rule. Its head is noted, and has a tag in the twin if it can be told from other text. -/
theorem rule_tagged (selector : SelectorText) (body : List Statement) (level : Nat) :
    Run.Tagged tag 0 (Text.Laid tag) (rule setup self selector body level)
      (dressedRule setup (.tagging tag) twin selector body level) := by
  have plain : rule setup self selector body level =
      dressedRule setup ⟨PendingMapping.selector, id⟩ self selector body level :=
    (dressedRule_eq (fun _ _ _ => rfl) self selector body level).symm
  rw [plain]
  refine .andThen (interpolate_tagged inner setup _) fun own => .look (fun _ _ => rfl) fun machine => ?_
  refine .bind (.withFrame false (blockUnder_tagged inner _ level body)) fun {compiled other heads} laid => ?_
  dsimp only
  rw [laid.declarations]
  split
  · exact .pure laid.blocks.join
  · refine .look (fun _ _ => rfl) fun later => .note _ ?_
    obtain ⟨own, noted, headed⟩ := Text.laid_rule tag
      ⟨Selector.visible (Selector.resolve machine.selector own), later.file, selector.line⟩
      (formatDeclarations compiled.declarations (level + 1)) level
    have text := headed.append laid.blocks.join
    dsimp only at text
    dsimp only [Dress.tagging]
    refine .weaken (.pure text) ?_
    rw [add_comm heads]
    exact add_le_add_left noted heads

section Services

omit inner in
/-- What is written of a body has the heads of its blocks. -/
theorem laid_written {body other : Body} {heads : Multiset PendingMapping}
    (laid : body.Laid tag other heads) (selector : String) (level : Nat) :
    Text.Laid tag ((services setup self).written body selector level)
      ((services setup twin).written other selector level) heads := by
  have lines : Text.Whole
      (if body.declarations.isEmpty then ""
      else if selector = "" then formatDeclarations body.declarations level
      else block selector (formatDeclarations body.declarations (level + 1)) level) := by
    split
    · exact .inl rfl
    · split
      · exact Text.whole_formatDeclarations _ _
      · exact Text.whole_block _ _ _
  have whole := lines.laid.append laid.blocks.join
  rw [zero_add] at whole
  unfold Services.written
  rw [laid.declarations]
  exact whole

theorem services_tagged : (services setup self).Tagged tag (services setup twin) where
  level :=
    { capabilities := rfl
      provided := rfl
      evaluate := fun expr => inner.level (.evaluate expr false)
      contents := fun _ _ style => absurd rfl style
      hoist := fun _ style => absurd rfl style
      interpolate := interpolate_related (logic_of_tagged inner setup)
      plain := fun own => ⟨interpolate_plain setup twin own, interpolate_plain setup self own⟩
      format := rfl
      registerMixin := fun _ _ _ style => absurd rfl style }
  contents nodes selector level :=
    .bind (blockUnder_tagged inner selector level nodes) fun laid => .pure (laid_written laid _ _)
  hoist laid := .hoist laid
  registerMixin _ _ _ := .change (fun _ _ => rfl) fun _ => rfl

/-- It does not matter who puts lines into their block. -/
theorem dressedServices_tagged :
    (services setup self).Tagged tag (dressedServices setup (.tagging tag) twin) := by
  have base : (services setup self).Tagged tag (services setup twin) := services_tagged inner
  have same (nodes : List Statement) (selector : Option String) (level : Nat) :
      (dressedServices setup (.tagging tag) twin).contents nodes selector level =
        (services setup twin).contents nodes selector level := contents_dressed rfl level
  have level := base.level
  exact {
    level := { level with contents := fun _ _ style => absurd rfl style }
    contents := fun nodes selector level => by
      rw [same]
      exact base.contents nodes selector level
    hoist := base.hoist
    registerMixin := base.registerMixin }

end Services

section Modules

omit inner in
theorem checkLoop_tagged (path : String) : TaggedSame tag (checkLoop path) (checkLoop path) := by
  refine .look (fun _ _ => rfl) fun machine => ?_
  split
  · exact .fail _
  · exact .pure .same

theorem configuration_tagged (setup : Setup) (config : List (String × Expr)) :
    TaggedSame tag (configuration self config) (configuration twin config) :=
  Level.same (configuration_related (logic_of_tagged inner setup) config)

theorem chunks_tagged (nodes : List Statement) :
    Run.Tagged tag 0 (Text.AllLaid tag) (chunks self nodes) (chunks twin nodes) := by
  have part (node : Statement) : Run.Tagged tag 0 (Text.AllLaid tag)
      (do return bodyChunks (← blockUnder self none 0 [node]))
      (do return bodyChunks (← blockUnder twin none 0 [node])) := by
    refine .bind (blockUnder_tagged inner none 0 [node]) fun {body other heads} laid => .pure ?_
    have whole := (Text.AllLaid.ofLines body.declarations).append laid.blocks.filter
    rw [zero_add] at whole
    unfold bodyChunks
    rw [laid.declarations]
    exact whole
  have parts : Run.Tagged tag 0
      (fun (parts twins : List (List String)) heads => Text.AllLaid tag parts.flatten twins.flatten heads)
      (nodes.mapM fun node => do return bodyChunks (← blockUnder self none 0 [node]))
      (nodes.mapM fun node => do return bodyChunks (← blockUnder twin none 0 [node])) :=
    .mapM .nil (fun first rest => first.append rest) part nodes
  exact .bind parts fun laid => .pure laid

theorem compileModule_tagged (file : LoadedFile) (configured : Bindings Value) :
    Run.Tagged tag 0 (ModuleLaid tag) (compileModule self file configured)
      (compileModule twin file configured) := by
  refine .andThen (checkLoop_tagged _) fun _ => .andThen (.ofExcept _) fun nodes => ?_
  refine .lookSet (fun _ _ => rfl) (fun _ => rfl) (fun _ _ => rfl) fun machine => ?_
  refine .bind (.inModule _ file.path (chunks_tagged inner nodes)) fun {parts twins heads} laid => ?_
  refine .andThen (.change (fun _ _ => rfl) fun _ => rfl) fun _ => .pure ⟨rfl, ?_⟩
  have css := laid.lines
  dsimp only
  rw [css.isEmpty]
  split
  · rename_i empty
    rw [css.eq_zero_of_isEmpty empty]
    exact .nil
  · exact .singleton css

theorem resolveModule_tagged (url : String) (config : List (String × Expr)) :
    Run.Tagged tag 0 (ModuleLaid tag) (resolveModule setup self url config)
      (resolveModule setup twin url config) := by
  unfold resolveModule
  split
  · split
    · exact .pure ⟨rfl, .nil⟩
    · exact .fail _
  · refine .andThen (configuration_tagged inner setup config) fun configured => ?_
    refine .look (fun _ _ => rfl) fun machine => .andThen (.ofCause _) fun file => ?_
    refine .look (fun _ _ => rfl) fun machine => ?_
    split
    · split
      · exact .andThen (.change (fun _ _ => rfl) fun _ => rfl) fun _ => .pure ⟨rfl, .nil⟩
      · exact .pure ⟨rfl, .nil⟩
    · exact compileModule_tagged inner file configured

theorem useModule_tagged (url : String) (given : Option String) (config : List (String × Expr)) :
    Run.Tagged tag 0 (Body.Laid tag) (useModule setup self url given config)
      (useModule setup twin url given config) := by
  refine .bind (resolveModule_tagged inner url config) ?_
  rintro ⟨module_, css⟩ ⟨_, twinCss⟩ heads ⟨rfl, laid⟩
  exact .andThen (.change (fun _ _ => rfl) fun _ => rfl) fun _ => .pure ⟨rfl, laid⟩

theorem forwardModule_tagged (url : String) (affix : Option String) (filter : Option ForwardFilter) :
    Run.Tagged tag 0 (Body.Laid tag) (forwardModule setup self url affix filter)
      (forwardModule setup twin url affix filter) := by
  refine .bind (resolveModule_tagged inner url []) ?_
  rintro ⟨module_, css⟩ ⟨_, twinCss⟩ heads ⟨rfl, laid⟩
  exact .andThen (.change (fun _ _ => rfl) fun _ => rfl) fun _ => .pure ⟨rfl, laid⟩

theorem importSheet_tagged (level : Nat) (url : String) :
    Run.Tagged tag 0 (Body.Laid tag) (importSheet setup self level url)
      (importSheet setup twin level url) := by
  refine .look (fun _ _ => rfl) fun machine => .andThen (.ofCause _) fun file => ?_
  refine .andThen (checkLoop_tagged _) fun _ => .andThen (.ofExcept _) fun nodes => ?_
  exact .bind (.inFile file.path (inner.block level nodes)) fun laid => .pure laid.body

end Modules

section Statements

variable (plain : ∀ note, Text.Free isSyntax (tag note))

include plain

theorem atRule_tagged (node : Statement) (around : Option String) (level : Nat) :
    Run.Tagged tag 0 (Text.Laid tag) (atRule setup self node around level)
      (atRule setup twin node around level) :=
  Strategy.dispatch_tagged (services_tagged inner) _ (logic_of_tagged inner setup) plain node around
    level

theorem dressedAtRule_tagged (node : Statement) (around : Option String) (level : Nat) :
    Run.Tagged tag 0 (Text.Laid tag) (atRule setup self node around level)
      (dressedAtRule setup (.tagging tag) twin node around level) :=
  Strategy.dispatch_tagged (dressedServices_tagged inner) _ (logic_of_tagged inner setup) plain node
    around level

omit plain in
theorem blocklessRule_tagged (name : String) (value : Template) (line : Nat) (around : Option String)
    (level : Nat) :
    TaggedSame tag (atRule setup self (.atRule name value none line) around level)
      (atRule setup twin (.atRule name value none line) around level) :=
  Strategy.dispatch_blockless (services_tagged inner) _ (logic_of_tagged inner setup) name value line
    around level

/-- Statements without a block of their own. -/
theorem plainStatement_tagged {node : Statement} (blockless : node.block? = none) (level : Nat) :
    Run.Tagged tag 0 (Body.Laid tag) (styleStatement setup self node level)
      (styleStatement setup twin node level) := by
  have ruled (around : Option String) (level : Nat) : Run.Tagged tag 0 (Text.Laid tag)
      (atRule setup self node around level) (atRule setup twin node around level) :=
    atRule_tagged inner plain node around level
  refine .look (fun _ _ => ?_) fun machine => ?_
  · rcases node with _ | _ | _ | _ | ⟨_, _, _ | _, _⟩ <;> rfl
  cases node with
  | property d => exact .andThen (inner.declare d none) fun lines => .pure (.ofDeclarations _)
  | customProperty name value =>
    refine .andThen (interpolate_tagged inner setup name) fun name => ?_
    exact .andThen (interpolate_tagged inner setup value) fun value => .pure (.ofDeclarations _)
  | assign qualifier name value default global =>
    exact .andThen (assignment_tagged inner qualifier name value default global) fun _ => .pure .empty
  | comment text =>
    dsimp only
    split
    · exact .pure (.ofDeclarations _)
    · exact .pure ⟨rfl, .singleton (Text.whole_ended _ (by decide)).laid⟩
  | functionDef name params body =>
    exact .andThen (.change (fun _ _ => rfl) fun _ => rfl) fun _ => .pure .empty
  | returnValue value => exact .fail _
  | ifElse tests => exact .bind (branches_tagged inner level setup tests) fun laid => .pure laid.body
  | eachLoop names list body =>
    exact .bind (eachLoop_tagged inner level setup names list body) fun laid => .pure laid.body
  | forLoop name first last inclusive body =>
    exact .bind (forLoop_tagged inner level setup name first last inclusive body)
      fun laid => .pure laid.body
  | whileLoop condition body =>
    exact .bind (inner.again level condition body) fun laid => .pure laid.body
  | includeMixin qualifier name args content =>
    exact includeMixin_tagged inner level setup qualifier name args content
  | contentSlot args => exact contentSlot_tagged inner level setup args
  | useModule url given config => exact useModule_tagged inner url given config
  | forwardModule url affix filter => exact forwardModule_tagged inner url affix filter
  | importSheets urls =>
    have bodies : Run.Tagged tag 0
        (fun (bodies twins : List Body) heads =>
          Body.Laid tag (bodies.foldl Body.append .empty) (twins.foldl Body.append .empty) heads)
        (urls.mapM (importSheet setup self level)) (urls.mapM (importSheet setup twin level)) := by
      refine .mapM .empty (fun first rest => ?_) (importSheet_tagged inner level) urls
      rw [Body.foldl_append_cons, Body.foldl_append_cons]
      exact first.append rest
    exact .bind bodies fun laid => .pure laid
  | message kind value line =>
    exact .andThen (message_tagged inner setup kind value line) fun _ => .pure .empty
  | extend selector =>
    refine .andThen (interpolate_tagged inner setup selector) fun target => ?_
    refine .look (fun _ _ => rfl) fun machine => ?_
    exact .andThen (.change (fun _ _ => rfl) fun _ => rfl) fun _ => .pure .empty
  | atRule name value body line =>
    cases body with
    | some body => cases blockless
    | none =>
      dsimp only
      split
      · exact .andThen (blocklessRule_tagged inner name value line _ 0) fun css =>
          .pure (.ofDeclarations _)
      · exact .bind (ruled _ level) fun laid => .pure (.ofText laid)
  | keyframes | mixinDef => exact .bind (ruled _ level) fun laid => .pure (.ofText laid)
  | rule | media | atRoot | supports | container => cases blockless

theorem dressedStatement_tagged (node : Statement) (level : Nat) :
    Run.Tagged tag 0 (Body.Laid tag) (styleStatement setup self node level)
      (dressedStatement setup (.tagging tag) twin node level) := by
  have ruled (around : Option String) (level : Nat) : Run.Tagged tag 0 (Text.Laid tag)
      (atRule setup self node around level)
      (dressedAtRule setup (.tagging tag) twin node around level) :=
    dressedAtRule_tagged inner plain node around level
  cases node with
  | rule selector body =>
    refine .look (fun _ _ => rfl) fun machine => ?_
    exact .bind (rule_tagged inner selector body level) fun laid => .pure (.ofText laid)
  | media query body =>
    refine .look (fun _ _ => rfl) fun machine => ?_
    refine .andThen (interpolate_tagged inner setup query) fun query => ?_
    exact .bind (.withMedia query (ruled _ level)) fun laid => .pure (.ofText laid)
  | atRoot selector query body =>
    refine .look (fun _ _ => rfl) fun machine => .look (fun _ _ => rfl) fun machine => ?_
    exact .bind (ruled _ level) fun laid => .pure (.ofText laid)
  | atRule name value body =>
    cases body with
    | none => exact plainStatement_tagged inner plain rfl level
    | some body =>
      refine .look (fun _ _ => rfl) fun machine => ?_
      exact .bind (ruled _ level) fun laid => .pure (.ofText laid)
  | supports | container =>
    refine .look (fun _ _ => rfl) fun machine => ?_
    exact .bind (ruled _ level) fun laid => .pure (.ofText laid)
  | property | customProperty | assign | comment | functionDef | returnValue | ifElse | eachLoop
  | forLoop | whileLoop | includeMixin | contentSlot | useModule | forwardModule | importSheets
  | message | extend | keyframes | mixinDef => exact plainStatement_tagged inner plain rfl level

theorem statements_tagged (level : Nat) (nodes : List Statement) :
    Run.Tagged tag 0 (Yield.Laid tag) (step setup self (.block (.style level) nodes))
      (dressedStep setup (.tagging tag) twin (.block (.style level) nodes)) := by
  refine .untilReturn (fun node => .located node.line ?_) nodes
  exact .bind (dressedStatement_tagged inner plain node level) fun laid => .pure ⟨laid, rfl⟩

omit plain in
theorem step_level {α : Type} (job : Job α) :
    Level tag job.realm (dressedStep setup (.tagging tag) twin job) (step setup self job) := by
  have logic := logic_of_tagged inner setup
  cases job with
  | evaluate expr divides => exact expression_related logic expr divides
  | calculate expr => exact calculation_related logic expr
  | call qualifier name args => exact invoke_level inner qualifier name args
  | declare d outer => exact fun style => absurd rfl style
  | block mode nodes =>
    cases mode with
    | style level => exact fun style => absurd rfl style
    | function =>
      refine logic.untilReturn nodes fun node => logic.located .function trivial ?_
      exact functionStatement_related logic trivial fun _ => trivial
  | «repeat» mode condition nodes =>
    cases mode with
    | style level => exact fun style => absurd rfl style
    | function => exact whileLoop_related logic .function condition fun _ _ => trivial

omit inner in
/-- However deep jobs nest, the twin of a job does the same but for its tags. -/
theorem perform_tagged (setup : Setup) (depth : Nat) :
    Perform.Tagged tag (fun job => perform setup depth job)
      (fun job => dressed setup (.tagging tag) depth job) := by
  induction depth with
  | zero =>
    exact {
      level := fun _ _ => .throw _
      declare := fun _ _ => .throw _
      block := fun _ _ => .throw _
      again := fun _ _ _ => .throw _ }
  | succ depth ih =>
    exact {
      level := step_level ih
      declare := declaration_tagged ih
      block := statements_tagged ih plain
      again := fun level => whileLoop_tagged ih level setup }

end Statements

end Eval

end Scss
