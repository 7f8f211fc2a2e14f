import Scss.Compiler
import Scss.Proofs.Logic.Statements

/-! The names of nested properties. A property is written under the names of the declarations around it
and its own. A second evaluator hands these names down as a list, and leaves open which of them are still
known in the blocks of conditionals and loops: the evaluator knows none of them there, although it knows
all of them in declarations that stand right inside one another. -/
namespace Scss

namespace Statement

def isControl : Statement → Bool
  | ifElse _ _ | eachLoop _ _ _ _ | forLoop _ _ _ _ _ _ | whileLoop _ _ _ => true
  | _ => false

/-- The second statement runs in the place of the first one. -/
inductive RunsFor : Statement → Statement → Prop where
  | refl (node : Statement) : RunsFor node node
  | within {node middle inner : Statement} (member : middle ∈ node.within)
      (rest : RunsFor middle inner) : RunsFor node inner

/-- A declaration runs in the place of the statement. -/
def Declares (node : Statement) : Prop := ∃ d, node.RunsFor (.property d)

/-- What is no declaration declares something only in a block of its own. -/
theorem Declares.exists_within {node : Statement} (declares : node.Declares)
    (other : ∀ d, node ≠ .property d) : ∃ inner ∈ node.within, inner.Declares := by
  obtain ⟨d, runs⟩ := declares
  cases runs with
  | refl => exact absurd rfl (other d)
  | within member rest => exact ⟨_, member, d, rest⟩

theorem Declares.of_within {node inner : Statement} (member : inner ∈ node.within)
    (declares : inner.Declares) : node.Declares := by
  obtain ⟨d, runs⟩ := declares
  exact ⟨d, .within member runs⟩

theorem Declares.of_runsFor {node inner : Statement} (runs : node.RunsFor inner)
    (declares : inner.Declares) : node.Declares := by
  induction runs with
  | refl => exact declares
  | within member _ ih => exact .of_within member (ih declares)

def mayDeclare : Nat → Statement → Bool
  | 0, _ => true
  | _ + 1, property _ => true
  | depth + 1, node => node.within.any (mayDeclare depth)

theorem not_declares_of_mayDeclare {depth : Nat} {node : Statement}
    (passed : node.mayDeclare depth = false) : ¬ node.Declares := by
  induction depth generalizing node with
  | zero => cases passed
  | succ depth ih =>
    intro declares
    have other : ∀ d, node ≠ .property d := by
      rintro d rfl
      cases passed
    have inside : node.within.any (mayDeclare depth) = false := by
      rwa [mayDeclare] at passed
      exact other
    obtain ⟨inner, member, declares⟩ := declares.exists_within other
    have undeclared := List.any_eq_false.mp inside inner member
    exact ih (Bool.eq_false_iff.mpr undeclared) declares

end Statement

/-- No conditional and no loop in a declaration, or in one nested in it, holds a declaration. -/
def Declaration.Straight (d : Declaration Statement) : Prop :=
  ∀ node ∈ d.nested, ∀ inner, node.RunsFor inner → inner.isControl = true → ¬ inner.Declares

namespace Declaration.Straight

variable {d inner : Declaration Statement} {node : Statement}

theorem nested (straight : d.Straight) (member : .property inner ∈ d.nested) : inner.Straight :=
  fun _ within target runs => straight _ member target (.within within runs)

/-- What is nested and no declaration declares nothing. -/
theorem undeclared (straight : d.Straight) (member : node ∈ d.nested)
    (other : ∀ inner, node ≠ .property inner) : ¬ node.Declares := by
  intro declares
  cases control : node.isControl with
  | true => exact straight node member node (.refl node) control declares
  | false =>
    obtain ⟨inner, within, -⟩ := declares.exists_within other
    cases node <;> simp_all [Statement.within, Statement.isControl]

end Declaration.Straight

def Declaration.isStraight (d : Declaration Statement) : Nat → Bool
  | 0 => false
  | depth + 1 => d.nested.all fun node =>
    match node with
    | .property inner => inner.isStraight depth
    | node => !node.mayDeclare depth

theorem Declaration.Straight.of_check {depth : Nat} {d : Declaration Statement}
    (passed : d.isStraight depth = true) : d.Straight := by
  induction depth generalizing d with
  | zero => cases passed
  | succ depth ih =>
    intro node member inner runs control
    have checked := List.all_eq_true.mp passed node member
    by_cases declared : ∃ own, node = .property own
    · obtain ⟨own, rfl⟩ := declared
      cases runs with
      | refl => cases control
      | within within runs => exact ih checked _ within inner runs control
    · have undeclared : node.mayDeclare depth = false := by
        split at checked
        · exact absurd ⟨_, rfl⟩ declared
        · simpa using checked
      exact fun declares => Statement.not_declares_of_mayDeclare undeclared (declares.of_runsFor runs)

namespace Eval

def outerName : List String → Option String
  | [] => none
  | names => some (Text.join "-" names)

theorem join_concat (names : List String) (name : String) :
    Text.join "-" (names ++ [name]) =
      match outerName names with
      | some outer => outer ++ "-" ++ name
      | none => name := by
  cases names with
  | nil => simp [Text.join, outerName]
  | cons first rest =>
    rw [Text.join, String.intercalate_append_of_ne_nil (by simp) (by simp),
      String.intercalate_singleton]
    rfl

theorem outerName_concat (names : List String) (name : String) :
    outerName (names ++ [name]) = some (Text.join "-" (names ++ [name])) := by
  cases names <;> rfl

/-- How declarations and other jobs are performed inside declarations, by the names of these, outermost
first. -/
structure Nest where
  declare : List String → Declaration Statement → Run (List String)
  perform : List String → Perform

section Nest

variable (setup : Setup) (known : List String → List String) (plain : Perform) (inner : Nest)

/-- The lines of what is nested in declarations. Statements other than declarations may know only some of
the names. -/
def namedLines (names : List String) (node : Statement) : Run (List String) :=
  match node with
  | .property d => inner.declare names d
  | .comment text _ => pure [text]
  | other => do
    let outcome ← inner.perform (known names) (.block (.style 0) [other])
    pure outcome.body.declarations

/-- The lines of a declaration. Its own line has all the names around it and its own name. -/
def namedDeclaration (around : List String) (d : Declaration Statement) : Run (List String) := do
  let name ← interpolate setup plain d.property
  let names := around ++ [name]
  let own ←
    match d.value with
    | some expr => do
      let value ← plain (.evaluate expr false)
      pure (propertyLine (Text.join "-" names) (setup.format.value value) d.important)
    | none => pure []
  let nested ← d.nested.mapM (namedLines known inner names)
  return own ++ nested.flatten

def nestedStatement (around : List String) (node : Statement) (level : Nat) : Run Body := do
  match node with
  | .property d => return .ofDeclarations (← inner.declare around d)
  | .ifElse tests _ => return (← branches (inner.perform around) (.style level) tests).body
  | .eachLoop names list body _ =>
    return (← eachLoop (inner.perform around) (.style level) names list body).body
  | .forLoop name first last inclusive body _ =>
    return (← forLoop (inner.perform around) (.style level) name first last inclusive body).body
  | .whileLoop condition body _ =>
    return (← inner.perform around (.repeat (.style level) condition body)).body
  | node => styleStatement setup plain node level

def nestStep : Nest where
  declare := namedDeclaration setup known plain inner
  perform around := fun job =>
    match job with
    | .block (.style level) nodes =>
      Run.untilReturn
        (fun node => Run.located node.line do
          return .ofBody (← nestedStatement setup plain inner around node level))
        nodes
    | .repeat (.style level) condition nodes =>
      whileLoop (inner.perform around) (.style level) condition nodes
    | job => step setup plain job

end Nest

/-- Declarations and what is inside them, with jobs nested at most `depth` deep. -/
def nest (setup : Setup) (known : List String → List String) : Nat → Nest
  | 0 => ⟨fun _ _ => throw .exhausted, fun _ => perform setup 0⟩
  | depth + 1 => nestStep setup known (perform setup depth) (nest setup known depth)

abbrev Agrees : Run.Relation := fun _ _ action other => action = other

section Agreement

variable {setup : Setup} {regime : Regime} {left right : Perform}

/-- Jobs that come to the same inside come to the same. -/
theorem eq_logic (fine : ∀ fault, regime.fine fault)
    (same : ∀ {α : Type} (job : Job α), regime.Fits job → left job = right job) :
    Logic setup regime left right Agrees where
  pure _ := rfl
  throw _ := rfl
  bind first rest := by rw [first, funext rest]
  tryCatch first handled := by rw [first, funext fun fault => handled fault (fine fault)]
  located _ _ _ _ same := by rw [same]
  raise _ _ _ _ _ := rfl
  value same := same
  look _ each := by rw [funext each]
  change _ _ _ _ := rfl
  assignQualified _ _ _ _ := rfl
  withFrame _ _ _ _ _ same := by rw [same]
  hoist _ := rfl
  withoutSelector same := by rw [same]
  job job fits := same job fits
  unhandled _ := fine _

def Regime.undeclaring : Regime where
  admits node := ¬ node.Declares
  fine _ := True
  globals := True
  within undeclared _ member declares := undeclared (declares.of_within member)
  bare _ := trivial

variable {known : List String → List String} {inner : Nest} {around : List String}

/-- A statement inside declarations comes to what it comes to outside of them, if jobs do and what it
declares is named as if there were no names around. -/
theorem nestedStatement_eq {node : Statement} (fine : ∀ fault, regime.fine fault)
    (same : ∀ {α : Type} (job : Job α), regime.Fits job → inner.perform around job = right job)
    (admitted : regime.admits node)
    (declared : ∀ d, node = .property d → inner.declare around d = right (.declare d none)) (level : Nat) :
    nestedStatement setup right inner around node level = styleStatement setup right node level := by
  have logic : Logic setup regime (inner.perform around) right Agrees := eq_logic fine same
  cases node with
  | property d =>
    rw [nestedStatement, declared d rfl]
    rfl
  | ifElse tests =>
    rw [nestedStatement, branches_related logic (.style level) (regime.within admitted)]
    rfl
  | eachLoop names list body =>
    have inside : ∀ node ∈ body, regime.admits node := regime.within admitted
    rw [nestedStatement, eachLoop_related logic (.style level) names list inside]
    rfl
  | forLoop name first last inclusive body =>
    have inside : ∀ node ∈ body, regime.admits node := regime.within admitted
    rw [nestedStatement, forLoop_related logic (.style level) name first last inclusive inside]
    rfl
  | whileLoop condition body =>
    rw [nestedStatement, same (.repeat (.style level) condition body) (regime.within admitted)]
    rfl
  | _ => rfl

/-- Jobs inside declarations come to what they come to outside of them. -/
theorem perform_nestStep (fine : ∀ fault, regime.fine fault)
    (same : ∀ {α : Type} (job : Job α), regime.Fits job → inner.perform around job = right job)
    (declared : ∀ d, regime.admits (.property d) → inner.declare around d = right (.declare d none))
    {α : Type} {job : Job α} (fits : regime.Fits job) :
    (nestStep setup known right inner).perform around job = step setup right job := by
  have logic : Logic setup regime (inner.perform around) right Agrees := eq_logic fine same
  cases job with
  | block mode nodes =>
    cases mode with
    | function => rfl
    | style level =>
      change Agrees .style _ _
      refine logic.untilReturn_mem fun node member => ?_
      have own : ∀ d, node = .property d → inner.declare around d = right (.declare d none) := by
        rintro d rfl
        exact declared d (fits _ member)
      rw [nestedStatement_eq fine same (fits node member) own]
      rfl
  | «repeat» mode condition nodes =>
    cases mode with
    | function => rfl
    | style level => exact whileLoop_related logic (.style level) condition fits
  | evaluate | calculate | call | declare => rfl

/-- What is nested in a property comes to what it comes to under the joined names. -/
theorem namedLines_eq {names : List String} {node : Statement}
    (declared : ∀ d, node = .property d →
      inner.declare names d = right (.declare d (some (Text.join "-" names))))
    (same : (∀ d, node ≠ .property d) →
      inner.perform (known names) (.block (.style 0) [node]) = right (.block (.style 0) [node])) :
    namedLines known inner names node = nestedLines right (Text.join "-" names) node := by
  cases node with
  | property d => exact declared d rfl
  | comment => rfl
  | _ =>
    rw [namedLines, same nofun]
    · rfl
    all_goals exact nofun

/-- A declaration inside others comes to what it comes to under their joined names. -/
theorem namedDeclaration_eq {d : Declaration Statement}
    (nested : ∀ node ∈ d.nested, ∀ name,
      namedLines known inner (around ++ [name]) node =
        nestedLines right (Text.join "-" (around ++ [name])) node) :
    namedDeclaration setup known right inner around d =
      declaration setup right d (outerName around) := by
  have logic : Logic setup .free right right Agrees := eq_logic (fun _ => trivial) fun _ _ => rfl
  have lines (name : String) (own : List String) :
      (do
        let nested ← d.nested.mapM (namedLines known inner (around ++ [name]))
        return own ++ nested.flatten : Run (List String)) = do
        let nested ← d.nested.mapM (nestedLines right (Text.join "-" (around ++ [name])))
        return own ++ nested.flatten := by
    change Agrees .style _ _
    exact logic.bind (logic.mapM_mem fun node member => nested node member name) fun _ => rfl
  change Agrees .style _ _
  refine logic.bind rfl fun name => ?_
  have whole := join_concat around name
  have behind := lines name
  generalize outerName around = outer at whole ⊢
  cases outer with
  | none | some =>
    dsimp only at whole ⊢
    rw [whole] at behind ⊢
    cases d.value with
    | some expr => exact logic.bind rfl fun value => behind _
    | none => exact behind []

end Agreement

/-- Where no names are known, jobs are performed as outside of declarations. -/
theorem nest_unknown (setup : Setup) (depth : Nat) :
    (∀ around d, (nest setup (fun _ => []) depth).declare around d =
      perform setup depth (.declare d (outerName around))) ∧
    ∀ {α : Type} (job : Job α),
      (nest setup (fun _ => []) depth).perform [] job = perform setup depth job := by
  induction depth with
  | zero => exact ⟨fun _ _ => rfl, fun _ => rfl⟩
  | succ depth ih =>
    obtain ⟨declared, same⟩ := ih
    refine ⟨fun around d => ?_, fun job => ?_⟩
    · refine namedDeclaration_eq fun node member name => namedLines_eq ?_ fun _ => same _
      rintro d rfl
      rw [declared, outerName_concat]
    · have fits : Regime.free.Fits job := Regime.fits_free job
      exact perform_nestStep (fun _ => trivial) (fun job _ => same job) (fun d _ => declared [] d) fits

/-- Where nothing is declared, it does not matter which names are known. -/
theorem nest_undeclaring (setup : Setup) (known : List String → List String) (depth : Nat)
    (around : List String) {α : Type} {job : Job α} (fits : Regime.undeclaring.Fits job) :
    (nest setup known depth).perform around job = perform setup depth job := by
  induction depth generalizing α with
  | zero => rfl
  | succ depth ih =>
    refine perform_nestStep (fun _ => trivial) (fun job fits => ih fits) (fun d undeclared => ?_) fits
    exact absurd ⟨d, .refl _⟩ undeclared

/-- Nor does it matter in declarations with no others behind a conditional or a loop. -/
theorem nest_straight (setup : Setup) (known : List String → List String) (depth : Nat)
    (around : List String) {d : Declaration Statement} (straight : d.Straight) :
    (nest setup known depth).declare around d = perform setup depth (.declare d (outerName around)) := by
  induction depth generalizing around d with
  | zero => rfl
  | succ depth ih =>
    refine namedDeclaration_eq fun node member name => namedLines_eq ?_ fun other => ?_
    · rintro own rfl
      rw [ih _ (straight.nested member), outerName_concat]
    · have undeclared : ∀ own ∈ [node], ¬ own.Declares :=
        List.forall_mem_singleton.mpr (straight.undeclared member other)
      exact nest_undeclaring setup known depth _ undeclared

/-- Nested properties have their names from all declarations around them: a declaration comes to the lines
in which every property is written under the joined names of the declarations that it is nested in, and
its own. Statements other than declarations know none of these names, so a property in the block of a
conditional or a loop is written under its own name only; where there is none, it is all the same which
names are known there. -/
theorem nested_names_joined (setup : Setup) (depth : Nat) (d : Declaration Statement) :
    perform setup depth (.declare d none) = (nest setup (fun _ => []) depth).declare [] d ∧
    (d.Straight → ∀ known, perform setup depth (.declare d none) = (nest setup known depth).declare [] d) :=
  ⟨((nest_unknown setup depth).1 [] d).symm, fun straight known =>
    (nest_straight setup known depth [] straight).symm⟩

def fontDeclaration : Declaration Statement :=
  let word (name : String) : Option Expr := some (.identifier name ⟨1, 1⟩)
  let assigned : Statement := .assign none "size" (.null 1) false true 1
  let caps : Declaration Statement := ⟨.literal "caps" 1, word "small-caps", false, [], 1⟩
  let variant : Declaration Statement :=
    ⟨.literal "variant" 1, none, false,
      [.property caps, .ifElse [⟨some (.boolean true 1), [assigned], 1⟩] 1], 1⟩
  ⟨.literal "font" 1, word "inherit", true, [.comment "/* caps */" 1, .property variant], 1⟩

theorem nested_names_joined_font :
    let setup := (Compiler.create {} (Loader.memory [])).setup
    let machine := Machine.start "input.scss"
    fontDeclaration.Straight ∧
    perform setup 9 (.declare fontDeclaration none) = (nest setup id 9).declare [] fontDeclaration ∧
    (perform setup 9 (.declare fontDeclaration none) machine).1.toOption =
      some ["font: inherit !important;", "/* caps */", "font-variant-caps: small-caps;"] := by
  intro setup machine
  have straight : fontDeclaration.Straight := .of_check (by decide : fontDeclaration.isStraight 4 = true)
  exact ⟨straight, (nested_names_joined setup 9 fontDeclaration).2 straight id, by decide +kernel⟩

/-- A property in the block of a conditional loses the name of the declaration around the conditional. -/
theorem nested_name_lost :
    let compiler := Compiler.create {} (Loader.memory [])
    let machine := Machine.start "input.scss"
    let family : Declaration Statement :=
      ⟨.literal "family" 1, some (.identifier "serif" ⟨1, 1⟩), false, [], 1⟩
    let font : Declaration Statement :=
      ⟨.literal "font" 1, none, false,
        [.ifElse [⟨some (.boolean true 1), [.property family], 1⟩] 1], 1⟩
    ((nest compiler.setup id 9).declare [] font machine).1.toOption = some ["font-family: serif;"] ∧
    (perform compiler.setup 9 (.declare font none) machine).1.toOption = some ["family: serif;"] ∧
    (compiler.compile
        ⟨"input.scss", ".a \x7b\n  font: \x7b\n    @if true \x7b\n      family: serif;\n    \x7d\n" ++
          "  \x7d\n\x7d\n"⟩
        .scss).result =
      .ok ".a \x7b\n  family: serif;\n\x7d\n" := by
  decide +kernel

end Eval

end Scss
