import Scss.Proofs.Braces.Evaluation

/-! The evaluator beside its twin, which marks the blocks of style rules and is the same in all else.
What both write is flat and differs in marks alone: by one lemma for each statement, over any two ways
to perform the jobs inside it, and then by induction on how deep jobs nest. -/
namespace Scss

open Run (Cleanly Together)
open Text (Braceless Flat)

namespace Marked

open Eval (blockUnder interpolate)

variable (setup : Setup) (self : Perform)

/-- A style rule, with a mark before the lines of its block. -/
def rule (selector : SelectorText) (body : List Statement) (level : Nat) : Run String := do
  let own ← interpolate setup self selector.text
  let resolved := Selector.resolve (← get).selector own
  let visible := Selector.visible resolved
  let compiled ← Run.withFrame false (blockUnder self (some resolved) level body)
  let nested := String.join compiled.blocks
  if compiled.declarations.isEmpty || visible.isEmpty then return nested
  else
    modify fun machine =>
      { machine with
        pending := machine.pending ++ [⟨visible, machine.file, selector.line⟩] }
    let lines := String.singleton ruleMark ++ formatDeclarations compiled.declarations (level + 1)
    return block visible lines level ++ nested

def statement (mode : Mode) (node : Statement) : Run Yield :=
  match mode, node with
  | .style level, .rule selector body line =>
    Run.located line (do return .ofBody (.ofText (← rule setup self selector body level)))
  | mode, node => Eval.statement setup self mode node

def step {α : Type} : Job α → Run α
  | .block mode nodes => Run.untilReturn (statement setup self mode) nodes
  | job => Eval.step setup self job

def perform : Nat → Perform
  | 0, _, _ => throw .exhausted
  | depth + 1, _, job => step setup (fun inner => perform depth inner) job

/-- The text of a main stylesheet, with marks in the blocks of its rules. -/
def stylesheet (nodes : List Statement) : Run String :=
  Eval.sheet (perform setup Eval.depthBound) nodes

end Marked

theorem braceless_formatDeclarations {lines : List String} (clean : ∀ line ∈ lines, Braceless line)
    (level : Nat) : Braceless (formatDeclarations lines level) := by
  refine Text.braceless_join fun text member => ?_
  obtain ⟨line, inside, rfl⟩ := List.mem_map.mp member
  simpa +decide using ⟨Text.braceless_indent level, clean line inside⟩

namespace Eval

variable {setup : Setup} {self twin : Perform}

theorem braceless_propertyLine {property text : String} (label : Braceless property)
    (clean : Braceless text) (important : Bool) :
    ∀ line ∈ propertyLine property text important, Braceless line := by
  unfold propertyLine
  split
  · simp
  · have ending : Braceless (if important then " !important" else "") := by
      split <;> decide
    refine List.forall_mem_singleton.mpr ?_
    simpa +decide using ⟨⟨label, clean⟩, ending⟩

/-- The name of a property that is nested in another one. -/
theorem braceless_nestedName (outer : Option String) {own : String} (label : Braceless own) :
    (∀ text ∈ outer, Braceless text) → Braceless (match outer with
      | some outer => outer ++ "-" ++ own
      | none => own) := by
  intro around
  cases outer with
  | none => exact label
  | some outer => simpa +decide using ⟨around outer rfl, label⟩

theorem nestedLines_cleanly (inner : Perform.Alike self twin) {property : String}
    (label : Braceless property) {node : Statement} (clean : node.SelfContained) :
    Cleanly (fun lines => ∀ line ∈ lines, Braceless line) (nestedLines self property node)
      (nestedLines twin property node) := by
  unfold nestedLines
  split
  · exact inner.declare _ _ clean (by simpa using label)
  · cases clean with
    | comment line text => exact .pure (by simpa using text)
  · refine Together.bind (inner.block (.style 0) [node] (by simpa using clean)) ?_
    intro outcome other alike
    exact .pure ⟨alike.body.declarations, alike.body.clean⟩

theorem declaration_cleanly (inner : Perform.Alike self twin) {d : Declaration Statement}
    {outer : Option String} (clean : (Statement.property d).SelfContained)
    (around : ∀ text ∈ outer, Braceless text) :
    Cleanly (fun lines => ∀ line ∈ lines, Braceless line) (declaration setup self d outer)
      (declaration setup twin d outer) := by
  cases clean with
  | property name value nested =>
    have rest {property : String} {own : List String} (label : Braceless property)
        (lines : ∀ line ∈ own, Braceless line) :
        Cleanly (fun lines => ∀ line ∈ lines, Braceless line)
          (do return own ++ (← d.nested.mapM (nestedLines self property)).flatten)
          (do return own ++ (← d.nested.mapM (nestedLines twin property)).flatten) := by
      refine .bind (Cleanly.mapM fun node member =>
        nestedLines_cleanly inner label (nested node member)) fun blocks each => ?_
      refine .pure (List.forall_mem_append.mpr ⟨lines, fun line member => ?_⟩)
      obtain ⟨block, inside, found⟩ := List.mem_flatten.mp member
      exact each block inside line found
    refine .bind (interpolate_cleanly inner name) fun own label => ?_
    have property := braceless_nestedName outer label around
    dsimp only
    split
    · rename_i expr found
      refine .bind (inner.evaluate _ false (value expr found)) fun result clean => ?_
      exact rest property (braceless_propertyLine property (setup.format.braceless_value clean) _)
    · exact rest property (by simp)

theorem isSet_ending (machine : Machine) (hoisted : List String) (name : String) (global : Bool) :
    isSet setup (machine.ending hoisted) name global = isSet setup machine name global := by
  simp only [isSet, Machine.lookup?_ending]
  rfl

theorem assignment_cleanly (inner : Perform.Alike self twin) (qualifier : Option String)
    (name : String) {expr : Expr} (clean : expr.Braceless) (default global : Bool) :
    Cleanly (fun _ => True) (assignment setup self qualifier name expr default global)
      (assignment setup twin qualifier name expr default global) := by
  unfold assignment
  split
  · rename_i qualifier
    refine .bind (inner.evaluate _ false clean) fun value result => ?_
    exact Cleanly.setFrom (fun machine holds => holds.assignQualified qualifier name result)
      fun machine hoisted => machine.assignQualified_ending hoisted qualifier name value
  · refine .get_bind (fun machine hoisted => by rw [isSet_ending]) fun machine _ => ?_
    split
    · exact .pure trivial
    · refine .bind (inner.evaluate _ false clean) fun value result => ?_
      exact .modify (fun machine holds => holds.assign name result global) fun machine hoisted =>
        machine.assign_ending hoisted name value global

theorem message_cleanly (inner : Perform.Alike self twin) (kind : MessageKind) {expr : Expr}
    (line : Nat) (clean : expr.Braceless) :
    Cleanly (fun _ => True) (message self kind expr line) (message twin kind expr line) := by
  refine .bind (inner.evaluate _ false clean) fun value _ => ?_
  refine Cleanly.get_bind (fun _ _ => rfl) fun machine _ => ?_
  cases kind with
  | debug => exact .log _ _
  | warn => exact .log _ _
  | error => exact .throw _

theorem includeMixin_alike (inner : Perform.Alike self twin) (qualifier : Option String)
    (name : String) {args : List (Argument Expr)} {content : Option (ContentBlock Statement)}
    (level : Nat) (clean : ∀ arg ∈ args, arg.Braceless) (handed : ∀ block ∈ content, block.Clean) :
    Together Body.Alike (includeMixin self qualifier name args content level)
      (includeMixin twin qualifier name args content level) := by
  refine .get_bind (fun _ _ => by simp) fun machine holds => ?_
  refine Cleanly.andThen (Cleanly.ofCause (holds.mixin qualifier name)) fun target known => ?_
  split
  · exact .fail _
  · rename_i mixin
    have own := known mixin rfl
    refine Cleanly.andThen (arguments_cleanly inner clean) fun values given => ?_
    refine .bind (Together.inMixin mixin.env handed (Cleanly.andThen
      (bind_cleanly inner own.params given _) fun _ _ => inner.block _ _ own.body)) ?_
    exact fun outcome other alike => .pure alike.body

theorem contentSlot_alike (inner : Perform.Alike self twin) {args : List (Argument Expr)}
    (level : Nat) (clean : ∀ arg ∈ args, arg.Braceless) :
    Together Body.Alike (contentSlot self args level) (contentSlot twin args level) := by
  refine .get_bind (fun _ _ => rfl) fun machine holds => ?_
  split
  · exact .pure Body.alike_empty
  · rename_i block found
    obtain ⟨frame, top, handed⟩ := Option.bind_eq_some_iff.mp found
    have own := (holds.contents frame (List.mem_of_head? top)).block block handed
    refine Cleanly.andThen (arguments_cleanly inner clean) fun values given => ?_
    refine Together.get_bind (fun _ _ => rfl) fun machine holds => ?_
    split
    · exact .pure Body.alike_empty
    · rename_i frame rest contents
      have waiting := holds.contents frame (by simp [contents])
      refine .bind (Together.inContent waiting (Cleanly.andThen
        (bind_cleanly inner own.params given _) fun _ _ => inner.block _ _ own.body)) ?_
      exact fun outcome other alike => .pure alike.body

theorem blockUnder_alike (inner : Perform.Alike self twin) {selector : Option String} (level : Nat)
    {nodes : List Statement} (around : ∀ text ∈ selector, Braceless text)
    (clean : ∀ node ∈ nodes, node.SelfContained) :
    Together Body.Alike (blockUnder self selector level nodes)
      (blockUnder twin selector level nodes) :=
  .bind (Together.withSelector around (inner.block _ _ clean)) fun _ _ alike => .pure alike.body

/-- The block of a style rule has its own lines in it and nothing else, so that it can be marked. -/
theorem rule_alike (inner : Perform.Alike self twin) {selector : SelectorText}
    {body : List Statement} (level : Nat) (head : Template.Braceless selector.text)
    (clean : ∀ node ∈ body, node.SelfContained) :
    Together Text.Alike (rule setup self selector body level)
      (Marked.rule setup twin selector body level) := by
  refine Cleanly.andThen (interpolate_cleanly inner head) fun own label => ?_
  refine Together.get_bind (fun _ _ => rfl) fun machine holds => ?_
  have resolved := Selector.braceless_resolve holds.selector label
  refine .bind (Together.withFrame false
    (blockUnder_alike inner level (by simpa using resolved) clean)) fun compiled other alike => ?_
  dsimp only
  rw [alike.declarations]
  split
  · exact .pure (Text.alike_join alike.blocks)
  · refine Cleanly.andThen (Cleanly.modify (fun machine holds => { holds with }) fun _ _ => rfl) ?_
    intro _ _
    have lines := braceless_formatDeclarations alike.clean (level + 1)
    have flat := Text.flat_rule (Selector.braceless_visible resolved) lines level
    exact .pure (Text.Alike.append ⟨flat, Text.marks_rule _ lines level⟩
      (Text.alike_join alike.blocks))

theorem hoist_cleanly {css marked : String} (alike : Text.Alike css marked) :
    Cleanly (fun _ => True)
      (modify fun machine => { machine with hoisted := machine.hoisted ++ [css] } : Run PUnit)
      (modify fun machine => { machine with hoisted := machine.hoisted ++ [marked] } : Run PUnit) := by
  intro before other states
  refine ⟨⟨{ states.clean with }, ?_, List.rel_append states.hoisted (.cons alike .nil)⟩,
    .ok ⟨rfl, trivial⟩⟩
  have same := states.same
  rw [same]
  rfl

theorem services_alike (inner : Perform.Alike self twin) :
    (services setup self).Alike (services setup twin) where
  capabilities := rfl
  evaluate expr clean := inner.evaluate expr false clean
  formatDeclarations _ level clean := ⟨rfl, braceless_formatDeclarations clean level⟩
  compileBody _ _ level clean around := blockUnder_alike inner level around clean
  hoist _ _ alike := hoist_cleanly alike
  interpolate _ clean := interpolate_cleanly inner clean
  format _ clean := ⟨rfl, setup.format.braceless_value clean⟩
  registerMixin name _ _ defaults clean :=
    .modify (fun _ holds => holds.defineMixin name defaults clean) fun _ _ => rfl

theorem atRule_alike (inner : Perform.Alike self twin) {node : Statement} (clean : node.SelfContained)
    {around : Option String} (outside : ∀ text ∈ around, Braceless text) (level : Nat) :
    Together node.WrittenAs (atRule setup self node around level)
      (atRule setup twin node around level) :=
  Strategy.dispatch_alike (services_alike inner) _ clean outside level

theorem braceless_atRootContext {media selector : Option String}
    (query : ∀ text ∈ media, Braceless text) (around : ∀ text ∈ selector, Braceless text) :
    ∀ text ∈ atRootContext media selector, Braceless text := by
  cases media with
  | none => exact around
  | some media =>
    have condition := query media rfl
    cases selector with
    | none => simpa +decide [atRootContext] using condition
    | some selector =>
      rw [atRootContext]
      intro text found
      obtain rfl := Option.some.inj found
      refine Text.braceless_intercalate (by decide) fun group member => ?_
      obtain ⟨piece, inside, rfl⟩ := List.mem_map.mp member
      simpa +decide using ⟨(around selector rfl).splitTopLevel ',' piece inside, condition⟩

theorem styleStatement_alike (inner : Perform.Alike self twin) {node : Statement}
    (clean : node.SelfContained) (other : ∀ selector body line, node ≠ .rule selector body line)
    (level : Nat) :
    Together Body.Alike (styleStatement setup self node level)
      (styleStatement setup twin node level) := by
  refine .get_bind (fun _ _ => rfl) fun machine holds => ?_
  have written (own : node.SelfContained) (level : Nat) :
      Together Body.Alike (do return .ofText (← atRule setup self node machine.selector level))
        (do return .ofText (← atRule setup twin node machine.selector level)) :=
    .bind (atRule_alike inner own holds.selector level) fun css marked text =>
      .pure (Body.alike_ofText text.alike)
  cases clean with
  | rule line head body => exact absurd rfl (other _ _ _)
  | property name value nested =>
    refine Cleanly.andThen (inner.declare _ none (.property name value nested) (by simp)) ?_
    exact fun lines own => .pure (Body.alike_ofDeclarations own)
  | customProperty line label clean =>
    refine Cleanly.andThen (interpolate_cleanly inner label) fun name own => ?_
    refine Cleanly.andThen (interpolate_cleanly inner clean) fun value text => .pure ?_
    refine Body.alike_ofDeclarations (List.forall_mem_singleton.mpr ?_)
    simpa +decide using ⟨own, text⟩
  | assign qualifier name default global line clean =>
    exact Cleanly.andThen (assignment_cleanly inner qualifier name clean default global) fun _ _ =>
      .pure Body.alike_empty
  | comment line text =>
    dsimp only
    split
    · exact .pure (Body.alike_ofDeclarations (List.forall_mem_singleton.mpr text))
    · refine .pure (Body.alike_ofBlock (Text.Braceless.alike ?_))
      simpa +decide using ⟨Text.braceless_indent level, text⟩
  | functionDef name line defaults body =>
    refine Cleanly.andThen (Cleanly.modify (fun machine holds => ?_) fun _ _ => rfl) fun _ _ =>
      .pure Body.alike_empty
    exact holds.defineFunction name defaults body
  | returnValue line value => exact .fail _
  | ifElse line tests bodies =>
    exact .bind (branches_alike inner _ tests bodies) fun _ _ alike => .pure alike.body
  | eachLoop names line list body =>
    exact .bind (eachLoop_alike inner _ names list body) fun _ _ alike => .pure alike.body
  | forLoop name inclusive line start stop body =>
    exact .bind (forLoop_alike inner _ name inclusive start stop body) fun _ _ alike =>
      .pure alike.body
  | whileLoop line condition body =>
    exact .bind (inner.again _ _ _ condition body) fun _ _ alike => .pure alike.body
  | includeMixin qualifier name line args defaults body =>
    exact includeMixin_alike inner qualifier name level args fun block member =>
      ⟨defaults block member, body block member⟩
  | contentSlot line args => exact contentSlot_alike inner level args
  | message kind line value =>
    exact Cleanly.andThen (message_cleanly inner kind line value) fun _ _ => .pure Body.alike_empty
  | extend optional line selector =>
    refine Cleanly.andThen (interpolate_cleanly inner selector) fun target _ => ?_
    refine Together.get_bind (fun _ _ => rfl) fun machine _ => ?_
    exact Cleanly.andThen (Cleanly.log _ _) fun _ _ => .pure Body.alike_empty
  | media line head body =>
    refine Cleanly.andThen (interpolate_cleanly inner head) fun query text => ?_
    refine .bind (Together.withMedia text
      (atRule_alike inner (.media line head body) holds.selector level)) fun css marked own => ?_
    exact .pure (Body.alike_ofText own.alike)
  | atRoot query line head body =>
    refine Together.get_bind (fun _ _ => rfl) fun later still => ?_
    have around := braceless_atRootContext still.media holds.selector
    refine .bind (atRule_alike inner (.atRoot query line head body) around level) ?_
    exact fun css marked own => .pure (Body.alike_ofText own.alike)
  | @atRule name value body line label clean nodes =>
    cases body with
    | some body => exact written (.atRule line label clean nodes) level
    | none =>
      dsimp only
      split
      · refine .bind (atRule_alike inner (.atRule line label clean nodes) holds.selector 0) ?_
        intro css marked text
        have bare := text.braceless _ _ _ rfl
        rw [text.alike.marks.eq_of_braceless bare]
        exact .pure (Body.alike_ofDeclarations (List.forall_mem_singleton.mpr bare.trim))
      · exact written (.atRule line label clean nodes) level
  | supports line head body => exact written (.supports line head body) level
  | container line head body => exact written (.container line head body) level
  | keyframes line label head selectors body =>
    exact written (.keyframes line label head selectors body) level
  | mixinDef name line defaults body => exact written (.mixinDef name line defaults body) level

theorem functionStatement_alike (inner : Perform.Alike self twin) {node : Statement}
    (clean : node.SelfContained) :
    Together Yield.Alike (functionStatement setup self node) (functionStatement setup twin node) := by
  cases clean with
  | returnValue line value =>
    exact Cleanly.andThen (inner.evaluate _ false value) fun _ own =>
      .pure (Yield.alike_ofValue own)
  | assign qualifier name default global line value =>
    exact Cleanly.andThen (assignment_cleanly inner qualifier name value default global) fun _ _ =>
      .pure Yield.alike_nothing
  | ifElse line tests bodies => exact branches_alike inner _ tests bodies
  | eachLoop names line list body => exact eachLoop_alike inner _ names list body
  | forLoop name inclusive line start stop body =>
    exact forLoop_alike inner _ name inclusive start stop body
  | whileLoop line condition body => exact inner.again _ _ _ condition body
  | message kind line value =>
    exact Cleanly.andThen (message_cleanly inner kind line value) fun _ _ =>
      .pure Yield.alike_nothing
  | comment line text => exact .pure Yield.alike_nothing
  | _ => exact .fail _

/-- A rule is marked in style blocks; all other statements are the same. -/
theorem statement_alike (inner : Perform.Alike self twin) (mode : Mode) {node : Statement}
    (clean : node.SelfContained) :
    Together Yield.Alike (statement setup self mode node) (Marked.statement setup twin mode node) := by
  have others (level : Nat) (other : ∀ selector body line, node ≠ .rule selector body line) :
      Together Yield.Alike (statement setup self (.style level) node)
        (statement setup twin (.style level) node) :=
    .located (.bind (styleStatement_alike inner clean other level) fun _ _ alike =>
      .pure (Yield.alike_ofBody alike))
  cases mode with
  | function =>
    have same : Marked.statement setup twin .function node = statement setup twin .function node := by
      unfold Marked.statement
      split <;> simp_all
    rw [same]
    exact .located (functionStatement_alike inner clean)
  | style level =>
    cases clean with
    | @rule selector body line head nodes =>
      have same : statement setup self (.style level) (.rule selector body line) =
          Run.located line (do return .ofBody (.ofText (← rule setup self selector body level))) := by
        have written : styleStatement setup self (.rule selector body line) level =
            (do return .ofText (← rule setup self selector body level)) := rfl
        simp only [statement, written, bind_assoc, pure_bind, Statement.line]
      rw [same]
      exact .located (.bind (rule_alike inner level head nodes) fun css marked alike =>
        .pure (Yield.alike_ofBody (Body.alike_ofText alike)))
    | _ => exact others level nofun

/-- However deep jobs nest, they make no braces but those of flat blocks. -/
theorem perform_alike (plain : setup.Plain) (depth : Nat) :
    Perform.Alike (perform setup depth) (Marked.perform setup depth) := by
  induction depth with
  | zero =>
    constructor <;> intros <;> exact .throw _
  | succ depth ih =>
    have block (mode : Mode) (nodes : List Statement) (clean : ∀ node ∈ nodes, node.SelfContained) :
        Together Yield.Alike (statements setup (perform setup depth) mode nodes)
          (Run.untilReturn (Marked.statement setup (Marked.perform setup depth) mode) nodes) :=
      .untilReturn Yield.alike_nothing (fun _ _ _ _ first second => first.append second)
        (fun _ _ alike => alike.returned) fun node member => statement_alike ih mode (clean node member)
    exact {
      evaluate := fun expr divides clean => expression_cleanly plain ih clean divides
      calculate := fun expr clean => calculation_cleanly ih clean
      call := fun qualifier name args label given => invoke_cleanly plain ih qualifier label given
      declare := fun d outer clean around => declaration_cleanly ih clean around
      block := block
      again := fun mode condition nodes test clean => whileLoop_alike ih mode test clean }

end Eval

end Scss
