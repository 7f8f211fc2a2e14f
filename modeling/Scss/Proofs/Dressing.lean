import Scss.Proofs.Conduct.Runs

/-! The evaluator with other texts at the heads of its blocks. A dress says what is written in place of
a selector: at the head of a style rule, and around the lines of an at-rule. All else is done as it is
without a dress. So a run that comes out the same in two dresses shows nothing in which these differ:
no head that one of them writes and the other one does not.

A conduct suits a dress if every head that is written while it is kept is written as it is. -/
namespace Scss

/-- What is written in place of a selector. -/
structure Dress where
  /-- At the head of a style rule, by what is noted of it. -/
  rule : PendingMapping → String
  /-- Around the lines of an at-rule. -/
  around : String → String

/-- A body whose lines have their block already, if there is a selector for it. -/
def Body.under (body : Body) (dress : String → String) (selector : String) (level : Nat) : Body :=
  if body.declarations.isEmpty || selector = "" then body
  else
    ⟨[], block (dress selector) (formatDeclarations body.declarations (level + 1)) level :: body.blocks⟩

namespace Eval

section Dressed

variable (setup : Setup) (dress : Dress) (self : Perform)

def dressedRule (selector : SelectorText) (body : List Statement) (level : Nat) : Run String := do
  let own ← interpolate setup self selector.text
  let resolved := Selector.resolve (← get).selector own
  let visible := Selector.visible resolved
  let compiled ← Run.withFrame false (blockUnder self (some resolved) level body)
  let nested := String.join compiled.blocks
  if compiled.declarations.isEmpty || visible.isEmpty then return nested
  else
    let head : PendingMapping := ⟨visible, (← get).file, selector.line⟩
    modify fun machine => { machine with pending := machine.pending ++ [head] }
    return block (dress.rule head) (formatDeclarations compiled.declarations (level + 1)) level ++ nested

def dressedServices : Services Run :=
  { services setup self with
    compileBody := fun nodes selector level => do
      let body ← blockUnder self selector level nodes
      return body.under dress.around (selector.getD "") level }

def dressedAtRule (node : Statement) (around : Option String) (level : Nat) : Run String :=
  Strategy.dispatch setup.strategies (dressedServices setup dress self) node around level

/-- A statement in a style block. Only rules and at-rules with a block of their own show the dress. -/
def dressedStatement (node : Statement) (level : Nat) : Run Body := do
  let parent := (← get).selector
  match node with
  | .rule selector body _ => return .ofText (← dressedRule setup dress self selector body level)
  | .media query _ _ =>
    let query ← interpolate setup self query
    return .ofText (← Run.withMedia query (dressedAtRule setup dress self node parent level))
  | .atRoot _ _ _ _ =>
    let around := atRootContext (← get).media parent
    return .ofText (← dressedAtRule setup dress self node around level)
  | .atRule _ _ (some _) _ | .supports _ _ _ | .container _ _ _ =>
    return .ofText (← dressedAtRule setup dress self node parent level)
  | node => styleStatement setup self node level

def dressedStep {α : Type} : Job α → Run α
  | .block (.style level) nodes =>
    Run.untilReturn
      (fun node => Run.located node.line do
        return .ofBody (← dressedStatement setup dress self node level))
      nodes
  | job => step setup self job

/-- Perform a job in a dress, with jobs nested at most `depth` deep. -/
def dressed : Nat → Perform
  | 0, _, job => perform setup 0 job
  | depth + 1, _, job => dressedStep setup dress (fun inner => dressed depth inner) job

end Dressed

def around (machine : Machine) : Statement → Option String
  | .atRoot _ _ _ _ => atRootContext machine.media machine.selector
  | _ => machine.selector

end Eval

namespace Conduct

variable {Role : Type} (conduct : Conduct Role)

/-- Statements have a role under a selector. -/
def Hosts (setup : Setup) (role : Role) (nodes : List Statement) (selector : Option String) : Prop :=
  ∃ inside, (∀ node ∈ nodes, conduct.admits inside node) ∧
    ∀ {machine}, conduct.good role .style machine →
      conduct.Passage setup role .style inside .style { machine with selector := selector }
        fun after next => next = { after with selector := machine.selector }

/-- Every head that is written while the conduct is kept is written as it is, and every block has a
role. -/
structure Suits (setup : Setup) (dress : Dress) : Prop where
  head : ∀ selector file line,
    dress.rule ⟨Selector.visible selector, file, line⟩ = Selector.visible selector
  rule : ∀ {role selector body line own machine}, conduct.admits role (.rule selector body line) →
    selector.text.Yields own → conduct.good role .style machine →
    conduct.Hosts setup role body (some (Selector.resolve machine.selector own))
  atRule : ∀ {role node machine}, conduct.admits role node → node.kind? ≠ none →
    conduct.good role .style machine →
    node.Compiles
      (fun nodes selector => dress.around (selector.getD "") = selector.getD "" ∧
        conduct.Hosts setup role nodes selector)
      (Eval.around machine node)
  media : ∀ {role machine} (query : String), conduct.good role .style machine →
    conduct.Passage setup role .style role .style { machine with media := some query }
      fun after next => next = { after with media := machine.media }

end Conduct

namespace Eval

open Run (Obeys ObeysAt)

variable {Role : Type} {conduct : Conduct Role} {setup : Setup} {dress : Dress} {left right : Perform}
  {role : Role}

/-- What is written of a body does not depend on who puts its lines into a block, if the selector is
written as it is. -/
theorem written_under {dress : String → String} {selector : String} (same : dress selector = selector)
    (body : Body) (level : Nat) :
    (services setup left).written (body.under dress selector level) selector level =
      (services setup right).written body selector level := by
  unfold Body.under
  split
  · rfl
  · rename_i lined
    simp only [Bool.or_eq_true, decide_eq_true_eq, not_or] at lined
    simp [Services.written, lined, same, services, String.join_cons]

/-- So the contents of an at-rule are what they are without a dress. -/
theorem contents_dressed {nodes : List Statement} {selector : Option String}
    (same : dress.around (selector.getD "") = selector.getD "") (level : Nat) :
    (dressedServices setup dress left).contents nodes selector level =
      blockUnder left selector level nodes >>= fun body =>
        pure ((services setup right).written body (selector.getD "") level) := by
  have written (body : Body) : (services setup left).written _ _ _ = (services setup right).written _ _ _ :=
    written_under same body level
  simp only [← written]
  simp [Services.contents, dressedServices, services, Services.written]

/-- A rule whose head is written as it is. -/
theorem dressedRule_eq
    (head : ∀ selector file line,
      dress.rule ⟨Selector.visible selector, file, line⟩ = Selector.visible selector)
    (self : Perform) (selector : SelectorText) (body : List Statement) (level : Nat) :
    dressedRule setup dress self selector body level = rule setup self selector body level := by
  unfold dressedRule
  simp only [head]
  rfl

section Parts

variable (logic : StyleLogic setup (conduct.regime role) left right (Obeys setup conduct role))
  (inner : ∀ (role : Role) {α : Type} (job : Job α), (conduct.regime role).Fits job →
    Obeys setup conduct role job.realm (left job) (right job))

include inner

theorem blockUnder_obeys {nodes : List Statement} {selector : Option String}
    (hosted : conduct.Hosts setup role nodes selector) (level : Nat) :
    Obeys setup conduct role .style (blockUnder left selector level nodes)
      (blockUnder right selector level nodes) := by
  intro before holds
  obtain ⟨inside, admitted, passage⟩ := hosted
  have body := inner inside (.block (.style level) nodes) admitted _ (passage holds).enter
  have enclosed : ObeysAt setup conduct.fine (conduct.good role .style) .style
      (Run.withSelector selector _) (Run.withSelector selector _) before :=
    .enclosed (.selector before selector) body rfl (passage holds).leave
  exact enclosed.bind fun outcome _ _ holds => .pure outcome.body holds

include logic

theorem contents_obeys {nodes : List Statement} {selector : Option String}
    (same : dress.around (selector.getD "") = selector.getD "")
    (hosted : conduct.Hosts setup role nodes selector) (level : Nat) :
    Obeys setup conduct role .style ((dressedServices setup dress left).contents nodes selector level)
      ((services setup right).contents nodes selector level) := by
  rw [contents_dressed same]
  exact logic.bind (blockUnder_obeys inner hosted level) fun body => logic.pure _

variable (suits : conduct.Suits setup dress)

include suits

theorem dressedRule_obeys {selector : SelectorText} {body : List Statement} {line : Nat}
    (admitted : conduct.admits role (.rule selector body line)) (level : Nat) :
    Obeys setup conduct role .style (dressedRule setup dress left selector body level)
      (rule setup right selector body level) := by
  rw [dressedRule_eq suits.head]
  intro before holds
  have named : Obeys setup conduct role .style _ _ :=
    logic.value (interpolate_related logic.toLogic selector.text)
  refine (named before holds).bind fun own after done holds => .look ?_
  have yields : selector.text.Yields own := by
    intro text plain
    rw [interpolate_plain setup right plain] at done
    cases done
    rfl
  have compiled := blockUnder_obeys inner (suits.rule admitted yields holds) level
  refine (logic.withFrame (.style level) false compiled after holds).bind fun body last _ holds => ?_
  dsimp only
  split
  · exact .pure _ holds
  · have noted (head : String) : Obeys setup conduct role .style (modify fun machine => _) _ :=
      logic.change (fun machine => .note machine ⟨head, machine.file, selector.line⟩) (fun _ _ => rfl)
        (fun _ => rfl) (.inr fun _ _ _ => rfl)
    exact (noted _ last holds).bind fun _ _ _ holds => .pure _ holds

theorem dressedAtRule_obeys {node : Statement} {machine : Machine}
    (admitted : conduct.admits role node) (handled : node.kind? ≠ none)
    (holds : conduct.good role .style machine) (level : Nat) :
    Obeys setup conduct role .style (dressedAtRule setup dress left node (around machine node) level)
      (atRule setup right node (around machine node) level) := by
  have plain : (services setup left).Related (Obeys setup conduct role) (fun _ _ => False) _
      (services setup right) :=
    services_related logic nofun
  have lent : (dressedServices setup dress left).Related (Obeys setup conduct role)
      (fun nodes selector => dress.around (selector.getD "") = selector.getD "" ∧
        conduct.Hosts setup role nodes selector) _ (services setup right) :=
    { plain with contents := fun hosted level => contents_obeys logic inner hosted.1 hosted.2 level }
  exact Strategy.dispatch_related logic.toLogic lent handled (suits.atRule admitted handled holds)
    (fun _ defined => ⟨node, admitted, defined⟩) level

theorem dressedStatement_obeys {node : Statement} (admitted : conduct.admits role node) (level : Nat) :
    Obeys setup conduct role .style (dressedStatement setup dress left node level)
      (styleStatement setup right node level) := by
  intro before holds
  have ruled (handled : node.kind? ≠ none) (level : Nat) :=
    dressedAtRule_obeys logic inner suits admitted handled holds level
  have plain (blockless : node.block? = none) :=
    plainStatement_related logic admitted blockless (fun _ => trivial) level before holds
  cases node with
  | rule selector body =>
    refine .look (ObeysAt.bind ?_ fun _ _ _ holds => .pure _ holds)
    exact dressedRule_obeys logic inner suits admitted level before holds
  | media query body =>
    have named : Obeys setup conduct role .style _ _ :=
      logic.value (interpolate_related logic.toLogic query)
    refine .look ((named before holds).bind fun query after _ holds => ?_)
    have passage := suits.media query holds
    have enclosed : ObeysAt setup conduct.fine (conduct.good role .style) .style
        (Run.withMedia query _) (Run.withMedia query _) after :=
      .enclosed (.media after query) (ruled nofun level _ passage.enter) rfl passage.leave
    exact enclosed.bind fun _ _ _ holds => .pure _ holds
  | atRoot selector query body =>
    refine .look (.look (ObeysAt.bind ?_ fun _ _ _ holds => .pure _ holds))
    exact ruled nofun level before holds
  | atRule name value body =>
    cases body with
    | none => exact ⟨(plain rfl).same, (plain rfl).ends⟩
    | some body =>
      refine .look (ObeysAt.bind ?_ fun _ _ _ holds => .pure _ holds)
      exact ruled nofun level before holds
  | supports | container =>
    refine .look (ObeysAt.bind ?_ fun _ _ _ holds => .pure _ holds)
    exact ruled nofun level before holds
  | property | customProperty | assign | comment | functionDef | returnValue | ifElse | eachLoop
  | forLoop | whileLoop | includeMixin | contentSlot | useModule | forwardModule | importSheets
  | message | extend | keyframes | mixinDef => exact ⟨(plain rfl).same, (plain rfl).ends⟩

end Parts

variable (lawful : conduct.Lawful setup) (suits : conduct.Suits setup dress)

include lawful suits

/-- A dressed job keeps to a conduct that suits the dress, and does what the plain one does. -/
theorem dressed_obeys (depth : Nat) (role : Role) {α : Type} (job : Job α)
    (fits : (conduct.regime role).Fits job) :
    Obeys setup conduct role job.realm (dressed setup dress depth job) (perform setup depth job) := by
  induction depth generalizing role α with
  | zero =>
    intro before holds
    exact .throw (conduct.bare trivial) holds
  | succ depth ih =>
    have logic : StyleLogic setup (conduct.regime role) _ (fun job => perform setup depth job)
        (Obeys setup conduct role) :=
      styleLogic_of_conduct (served_of_lawful lawful ih) ih
    cases job with
    | block mode nodes =>
      cases mode with
      | function => exact unstyledStep_related logic fits trivial trivial
      | style level =>
        refine logic.untilReturn_mem fun node member => logic.located (.style level) (fits node member) ?_
        exact logic.bind (dressedStatement_obeys logic ih suits (fits node member) level) fun _ =>
          logic.pure _
    | evaluate | calculate | call | declare | «repeat» =>
      exact unstyledStep_related logic fits trivial trivial

/-- So does a dressed stylesheet. -/
theorem sheet_dressed (depth : Nat) {nodes : List Statement}
    (admitted : ∀ node ∈ nodes, conduct.admits role node) {before : Machine}
    (holds : conduct.good role .style before) :
    sheet (dressed setup dress depth) nodes before = sheet (perform setup depth) nodes before := by
  have logic := (lawful.kept depth).logic fun job fits =>
    dressed_obeys lawful suits depth role job fits
  have obeys : Obeys setup conduct role .style _ _ := chunks_related logic admitted
  unfold sheet
  rw [Run.bind_apply, Run.bind_apply, (obeys before holds).same]

end Eval

end Scss
