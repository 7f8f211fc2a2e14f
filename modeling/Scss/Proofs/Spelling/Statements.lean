import Scss.Proofs.Spelling.AtRules

/-! Statements in two spellings come to the same output and the same state, by one lemma for each
kind of statement, and then by induction on how deep jobs nest. Modules are found at the same paths,
and their files are two spellings of one stylesheet again. -/
namespace Scss

open Run (InStep Same)

/-- Two files at one path: they are read as two spellings of one stylesheet, or cannot be read for the
same reason. -/
structure LoadedFile.Respelled (file other : LoadedFile) : Prop where
  path : other.path = file.path
  nodes : Concur Eq Statements.Respelled (Eval.statementsOf file) (Eval.statementsOf other)

/-- Two sets of files: each address stands for a file in both, or in none. -/
def Loader.Respelled (loader other : Loader) : Prop :=
  ∀ address, Option.Rel LoadedFile.Respelled (loader.load address).toOption
    (other.load address).toOption

namespace Eval

variable {setup : Setup} {loader : Loader} {self twin : Perform}

/-- The lines of what is nested in a property do not depend on the spelling either. -/
theorem nestedLines_same (inner : self.InStep twin) (property : String) {node other : Statement}
    (spelled : node.Respelled other) :
    Same (nestedLines self property node) (nestedLines twin property other) := by
  have block : Same
      (do let outcome ← self (.block (.style 0) [node]); pure outcome.body.declarations)
      (do let outcome ← twin (.block (.style 0) [other]); pure outcome.body.declarations) :=
    .andThen (inner.block (.cons spelled .nil) (.style 0)) fun _ => .pure rfl
  cases spelled with
  | property declarations => exact inner.declare declarations (some property)
  | comment text line => exact .pure rfl
  | _ => exact block

theorem declaration_same (inner : self.InStep twin) {d other : Declaration Statement}
    (spelled : d.Rel Statement.Respelled other) (outer : Option String) :
    Same (declaration setup self d outer) (declaration (setup.withLoader loader) twin other outer) := by
  cases spelled with
  | @mk property label value valueOther nested also properties values important each line =>
    have rest (property : String) (own : List String) :
        Same (do return own ++ (← nested.mapM (nestedLines self property)).flatten)
          (do return own ++ (← also.mapM (nestedLines twin property)).flatten) :=
      .andThen (.mapM each (nestedLines_same inner property)) fun blocks => .pure rfl
    refine .andThen (interpolate_same inner properties) fun name => ?_
    cases values with
    | none => exact rest _ []
    | some value => exact .andThen (inner.evaluate value false) fun result => rest _ _

theorem isSet_eq {machine other : Machine} (states : machine.Respelled other) {name label : String}
    (names : SameName name label) (global : Bool) :
    isSet (setup.withLoader loader) other label global = isSet setup machine name global := by
  simp only [isSet, states.lookup? names, states.current.vars, ← names.normalizeName]

theorem assignment_same (inner : self.InStep twin) (qualifier : Option String) {name label : String}
    {expr other : Expr} (names : SameName name label) (values : expr.Respelled other)
    (default global : Bool) :
    Same (assignment setup self qualifier name expr default global)
      (assignment (setup.withLoader loader) twin qualifier label other default global) := by
  cases qualifier with
  | some qualifier =>
    refine .andThen (inner.evaluate values false) fun value => ?_
    refine InStep.get_bind fun machine other states => ?_
    refine InStep.bind (.ofCause (states.assignQualified qualifier names value)) ?_
    exact fun after afterTwin states => .set states
  | none =>
    refine InStep.get_bind fun machine other states => ?_
    rw [isSet_eq states names]
    split
    · exact .pure rfl
    · refine .andThen (inner.evaluate values false) fun value => ?_
      exact .modify fun states => states.assign names value global

theorem message_same (inner : self.InStep twin) (kind : MessageKind) {expr other : Expr}
    (values : expr.Respelled other) (line : Nat) :
    Same (message self kind expr line) (message twin kind other line) := by
  refine .andThen (inner.evaluate values false) fun value => ?_
  refine InStep.get_bind fun machine other states => ?_
  rw [states.file]
  cases kind with
  | debug => exact .log _ _
  | warn => exact .log _ _
  | error => exact .throw (.same _)

theorem includeMixin_same (inner : self.InStep twin) (qualifier : Option String)
    {name label : String} {args others : List (Argument Expr)}
    {content also : Option (ContentBlock Statement)} (names : SameName name label)
    (each : Arguments.Respelled args others)
    (contents : Option.Rel (ContentBlock.Rel Statement.Respelled) content also) (level : Nat) :
    Same (includeMixin self qualifier name args content level)
      (includeMixin twin qualifier label others also level) := by
  refine InStep.get_bind fun machine other states => ?_
  refine InStep.bind (.ofCause (states.mixin? qualifier names)) fun target also found => ?_
  cases found with
  | none => exact .fail rfl
  | @some mixin mixinOther mixins =>
    refine .andThen (arguments_same inner each) fun values => ?_
    dsimp only
    rw [mixins.env]
    refine .andThen (.inMixin mixin.env contents (.andThen
      (bind_same inner mixins.params values _ _) fun _ => inner.block mixins.body (.style level))) ?_
    exact fun outcome => .pure rfl

theorem contentSlot_same (inner : self.InStep twin) {args others : List (Argument Expr)}
    (each : Arguments.Respelled args others) (level : Nat) :
    Same (contentSlot self args level) (contentSlot twin others level) := by
  refine InStep.get_bind fun machine other states => ?_
  have handed := ContentFrame.rel_block states.contents
  generalize machine.contents.head?.bind ContentFrame.block = block at handed
  generalize other.contents.head?.bind ContentFrame.block = also at handed
  cases handed with
  | none => exact .pure rfl
  | some blocks =>
    cases blocks with
    | mk parameters bodies =>
      refine .andThen (arguments_same inner each) fun values => ?_
      refine InStep.get_bind fun machine other states => ?_
      have waiting := states.contents
      generalize machine.contents = contents at waiting
      generalize other.contents = others at waiting
      cases waiting with
      | nil => exact .pure rfl
      | cons frames _ =>
        refine .andThen (.inContent frames (.andThen
          (bind_same inner parameters values _ _) fun _ => inner.block bodies (.style level))) ?_
        exact fun outcome => .pure rfl

theorem blockUnder_same (inner : self.InStep twin) (selector : Option String) (level : Nat)
    {nodes others : List Statement} (bodies : Statements.Respelled nodes others) :
    Same (blockUnder self selector level nodes) (blockUnder twin selector level others) :=
  .andThen (.withSelector selector (inner.block bodies (.style level))) fun _ => .pure rfl

theorem rule_same (inner : self.InStep twin) {selector other : SelectorText}
    {body also : List Statement} (selectors : selector.Respelled other)
    (bodies : Statements.Respelled body also) (level : Nat) :
    Same (rule setup self selector body level)
      (rule (setup.withLoader loader) twin other also level) := by
  cases selectors with
  | mk texts line =>
    refine .andThen (interpolate_same inner texts) fun own => ?_
    refine InStep.get_bind fun machine other states => ?_
    rw [states.selector]
    refine .andThen (.withFrame false (blockUnder_same inner _ level bodies)) fun compiled => ?_
    dsimp only
    split
    · exact .pure rfl
    · refine .andThen (.modify fun states => ?_) fun _ => .pure rfl
      exact { states with pending := by rw [states.pending, states.file] }

theorem services_inStep (inner : self.InStep twin) :
    (services setup self).InStep (services (setup.withLoader loader) twin) where
  capabilities := rfl
  evaluate spelled := inner.evaluate spelled false
  formatDeclarations := rfl
  compileBody bodies selector level := blockUnder_same inner selector level bodies
  hoist _ := .modify fun states => { states with hoisted := by rw [states.hoisted] }
  interpolate spelled := interpolate_same inner spelled
  format := rfl
  registerMixin names parameters bodies := .modify fun states =>
    states.defineMixin names parameters bodies

theorem atRule_same (inner : self.InStep twin) {node other : Statement}
    (spelled : node.Respelled other) (around : Option String) (level : Nat) :
    Same (atRule setup self node around level)
      (atRule (setup.withLoader loader) twin other around level) :=
  Strategy.dispatch_same (services_inStep inner) _ spelled around level

section Modules

theorem findSheet_agree (files : setup.loader.Respelled loader) (file url : String) :
    Concur Cause.SameKind LoadedFile.Respelled (findSheet setup.loader file url)
      (findSheet loader file url) := by
  have each : List.Forall₂ Eq (addresses file url) (addresses file url) :=
    List.forall₂_same.mpr fun _ _ => rfl
  have found : Option.Rel LoadedFile.Respelled
      ((addresses file url).findSome? fun address => (setup.loader.load address).toOption)
      ((addresses file url).findSome? fun address => (loader.load address).toOption) :=
    rel_findSome? each fun {address other} same => same ▸ files address
  unfold findSheet
  dsimp only
  generalize (addresses file url).findSome? (fun address => (setup.loader.load address).toOption) =
    sheet at found
  generalize (addresses file url).findSome? (fun address => (loader.load address).toOption) =
    also at found
  cases found with
  | none => exact .error rfl
  | some both => exact .ok both

theorem checkLoop_same (path : String) : Same (checkLoop path) (checkLoop path) := by
  refine InStep.get_bind fun machine other states => ?_
  rw [states.loading]
  split
  · exact .fail rfl
  · exact .pure rfl

theorem configuration_same (inner : self.InStep twin) {config others : List (String × Expr)}
    (each : List.Forall₂ Setting.Respelled config others) :
    Same (configuration self config) (configuration twin others) := by
  refine InStep.foldlM each rfl fun {done _ _ _} same setting => ?_
  subst same
  cases setting with
  | mk names values =>
    dsimp only
    rw [← names.normalizeName]
    exact .andThen (inner.evaluate values false) fun value => .pure rfl

theorem chunks_same (inner : self.InStep twin) {nodes others : List Statement}
    (each : Statements.Respelled nodes others) : Same (chunks self nodes) (chunks twin others) := by
  refine .andThen (.mapM each fun spelled => ?_) fun parts => .pure rfl
  exact .andThen (blockUnder_same inner none 0 (.cons spelled .nil)) fun body => .pure rfl

theorem statementsOf_inStep {file other : LoadedFile} (files : file.Respelled other) :
    InStep Statements.Respelled (MonadExcept.ofExcept (statementsOf file))
      (MonadExcept.ofExcept (statementsOf other)) :=
  .ofExcept (files.nodes.imp fun same => same ▸ .same _)

theorem compileModule_same (inner : self.InStep twin) {file other : LoadedFile}
    (files : file.Respelled other) (configured : Bindings Value) :
    Same (compileModule self file configured) (compileModule twin other configured) := by
  unfold compileModule
  rw [files.path]
  refine .andThen (checkLoop_same file.path) fun _ => ?_
  refine InStep.bind (statementsOf_inStep files) fun nodes others each => ?_
  refine InStep.get_bind fun machine other states => ?_
  have added := states.addEnvironment _ (Environment.respelled_vars configured)
  refine .andThen (.set added) fun _ => ?_
  dsimp only [Machine.addEnvironment]
  rw [states.size]
  refine .andThen (.inModule _ file.path (chunks_same inner each)) fun parts => ?_
  refine .andThen (.modify fun states => ?_) fun _ => .pure rfl
  exact { states with modules := by rw [states.modules] }

theorem resolveModule_same (files : setup.loader.Respelled loader) (inner : self.InStep twin)
    (url : String) {config others : List (String × Expr)}
    (each : List.Forall₂ Setting.Respelled config others) :
    Same (resolveModule setup self url config)
      (resolveModule (setup.withLoader loader) twin url others) := by
  unfold resolveModule
  split
  · dsimp only
    split
    · exact .pure rfl
    · exact .fail rfl
  · refine .andThen (configuration_same inner each) fun configured => ?_
    refine InStep.get_bind fun machine other states => ?_
    rw [states.file]
    refine InStep.bind (.ofCause (findSheet_agree files machine.file url)) fun file also both => ?_
    refine InStep.get_bind fun machine other states => ?_
    rw [states.modules, both.path]
    split
    · split
      · exact .andThen (.log _ _) fun _ => .pure rfl
      · exact .pure rfl
    · exact compileModule_same inner both configured

theorem useModule_same (files : setup.loader.Respelled loader) (inner : self.InStep twin)
    (url : String) (given : Option String) {config others : List (String × Expr)}
    (each : List.Forall₂ Setting.Respelled config others) :
    Same (useModule setup self url given config)
      (useModule (setup.withLoader loader) twin url given others) := by
  refine .andThen (resolveModule_same files inner url each) fun (module_, css) => ?_
  exact .andThen (.modify fun states => states.useAs _ module_) fun _ => .pure rfl

theorem forwardModule_same (files : setup.loader.Respelled loader) (inner : self.InStep twin)
    (url : String) {affix other : Option String} {filter also : Option ForwardFilter}
    (affixes : Option.Rel SameName affix other)
    (filters : Option.Rel ForwardFilter.Respelled filter also) :
    Same (forwardModule setup self url affix filter)
      (forwardModule (setup.withLoader loader) twin url other also) := by
  refine .andThen (resolveModule_same files inner url .nil) fun (module_, css) => ?_
  refine .andThen (.modify fun states => ?_) fun _ => .pure rfl
  exact states.passOn (.mk module_ affixes filters)

theorem importSheet_same (files : setup.loader.Respelled loader) (inner : self.InStep twin)
    (level : Nat) (url : String) :
    Same (importSheet setup self level url) (importSheet (setup.withLoader loader) twin level url) := by
  refine InStep.get_bind fun machine other states => ?_
  rw [states.file]
  refine InStep.bind (.ofCause (findSheet_agree files machine.file url)) fun file also both => ?_
  rw [both.path]
  refine .andThen (checkLoop_same file.path) fun _ => ?_
  refine InStep.bind (statementsOf_inStep both) fun nodes others each => ?_
  exact .andThen (.inFile file.path (inner.block each (.style level))) fun outcome => .pure rfl

end Modules

theorem styleStatement_same (files : setup.loader.Respelled loader) (inner : self.InStep twin)
    {node other : Statement} (spelled : node.Respelled other) (level : Nat) :
    Same (styleStatement setup self node level)
      (styleStatement (setup.withLoader loader) twin other level) := by
  refine InStep.get_bind fun machine machineTwin states => ?_
  have written (around : Option String) (level : Nat) :
      Same (do return Body.ofText (← atRule setup self node around level))
        (do return Body.ofText (← atRule (setup.withLoader loader) twin other around level)) :=
    .andThen (atRule_same inner spelled around level) fun css => .pure rfl
  rw [states.selector]
  cases spelled with
  | rule selectors bodies line =>
    exact .andThen (rule_same inner selectors bodies level) fun css => .pure rfl
  | property declarations => exact .andThen (inner.declare declarations none) fun lines => .pure rfl
  | customProperty names values line =>
    refine .andThen (interpolate_same inner names) fun name => ?_
    exact .andThen (interpolate_same inner values) fun value => .pure rfl
  | assign qualifier names values default global line =>
    exact .andThen (assignment_same inner qualifier names values default global) fun _ => .pure rfl
  | comment text line =>
    dsimp only
    split <;> exact .pure rfl
  | functionDef name parameters bodies line =>
    refine .andThen (.modify fun states => ?_) fun _ => .pure rfl
    exact states.defineFunction name parameters bodies
  | returnValue values line => exact .fail rfl
  | ifElse each line => exact .andThen (branches_same inner _ each) fun _ => .pure rfl
  | eachLoop each lists bodies line =>
    exact .andThen (eachLoop_same inner _ each lists bodies) fun _ => .pure rfl
  | forLoop names firsts lasts inclusive bodies line =>
    exact .andThen (forLoop_same inner _ inclusive names firsts lasts bodies) fun _ => .pure rfl
  | whileLoop conditions bodies line =>
    exact .andThen (inner.again conditions bodies _) fun _ => .pure rfl
  | includeMixin qualifier names each contents line =>
    exact includeMixin_same inner qualifier names each contents level
  | contentSlot each line => exact contentSlot_same inner each level
  | useModule url given each line => exact useModule_same files inner url given each
  | forwardModule url affixes filters line => exact forwardModule_same files inner url affixes filters
  | importSheets urls line =>
    have each : List.Forall₂ Eq urls urls := List.forall₂_same.mpr fun _ _ => rfl
    refine .andThen (.mapM each fun {url other} same => ?_) fun bodies => .pure rfl
    subst same
    exact importSheet_same files inner level url
  | message kind values line =>
    exact .andThen (message_same inner kind values line) fun _ => .pure rfl
  | extend selectors optional line =>
    refine .andThen (interpolate_same inner selectors) fun target => ?_
    refine InStep.get_bind fun machine other states => ?_
    rw [states.file]
    exact .andThen (.log _ _) fun _ => .pure rfl
  | media queries bodies line =>
    refine .andThen (interpolate_same inner queries) fun query => ?_
    refine .andThen (.withMedia query
      (atRule_same inner (.media queries bodies line) machine.selector level)) fun css => .pure rfl
  | atRoot query selectors bodies line =>
    refine InStep.get_bind fun later laterTwin still => ?_
    rw [still.media]
    exact written _ level
  | atRule name values bodies line =>
    cases bodies with
    | some bodies => exact written _ level
    | none =>
      dsimp only
      split
      · refine .andThen (atRule_same inner (.atRule name values .none line) machine.selector 0) ?_
        exact fun css => .pure rfl
      · exact written _ level
  | supports conditions bodies line => exact written _ level
  | container queries bodies line => exact written _ level
  | keyframes keyword names each line => exact written _ level
  | mixinDef names parameters bodies line => exact written _ level

theorem functionStatement_same (inner : self.InStep twin) {node other : Statement}
    (spelled : node.Respelled other) :
    Same (functionStatement setup self node)
      (functionStatement (setup.withLoader loader) twin other) := by
  cases spelled with
  | returnValue values line => exact .andThen (inner.evaluate values false) fun _ => .pure rfl
  | assign qualifier names values default global line =>
    exact .andThen (assignment_same inner qualifier names values default global) fun _ => .pure rfl
  | ifElse each line => exact branches_same inner _ each
  | eachLoop each lists bodies line => exact eachLoop_same inner _ each lists bodies
  | forLoop names firsts lasts inclusive bodies line =>
    exact forLoop_same inner _ inclusive names firsts lasts bodies
  | whileLoop conditions bodies line => exact inner.again conditions bodies _
  | message kind values line =>
    exact .andThen (message_same inner kind values line) fun _ => .pure rfl
  | comment text line => exact .pure rfl
  | _ => exact .fail rfl

theorem statement_same (files : setup.loader.Respelled loader) (inner : self.InStep twin) (mode : Mode)
    {node other : Statement} (spelled : node.Respelled other) :
    Same (statement setup self mode node) (statement (setup.withLoader loader) twin mode other) := by
  unfold statement
  rw [spelled.line]
  refine .located node.line ?_
  cases mode with
  | style level =>
    exact .andThen (styleStatement_same files inner spelled level) fun body => .pure rfl
  | function => exact functionStatement_same inner spelled

/-- However deep jobs nest, both spellings of a job are in step. -/
theorem perform_inStep (files : setup.loader.Respelled loader) (depth : Nat) :
    Perform.InStep (perform setup depth) (perform (setup.withLoader loader) depth) := by
  induction depth with
  | zero => constructor <;> intros <;> exact .throw (.same _)
  | succ depth ih =>
    exact {
      evaluate := fun spelled divides => expression_same ih spelled divides
      calculate := fun spelled => calculation_same ih spelled
      call := fun qualifier name args => invoke_same ih qualifier name args
      declare := fun spelled outer => declaration_same ih spelled outer
      block := fun each mode => .untilReturn each fun spelled => statement_same files ih mode spelled
      again := fun conditions bodies mode => whileLoop_same ih mode conditions bodies }

theorem stylesheet_same (files : setup.loader.Respelled loader) {nodes others : List Statement}
    (each : Statements.Respelled nodes others) :
    Same (stylesheet setup nodes) (stylesheet (setup.withLoader loader) others) := by
  refine .andThen (chunks_same (perform_inStep files depthBound) each) fun parts => ?_
  refine InStep.get_bind fun machine other states => ?_
  rw [states.hoisted]
  exact .andThen (.set { states with hoisted := rfl }) fun _ => .pure rfl

end Eval

end Scss
