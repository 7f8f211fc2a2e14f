import Scss.Compiler
import Scss.Proofs.Braces.Jobs

/-! The text of a stylesheet that loads no other one and has no braces in its own texts. Its braces
match, blocks in it nest only under at-rules, and the block of a style rule holds lines alone. -/
namespace Scss

open Run (Together)
open Text (Braceless)

theorem Compiler.plain_create (options : Options) (loader : Loader) :
    (Compiler.create options loader).setup.Plain := ⟨rfl, rfl⟩

namespace Eval

variable {setup : Setup} {self twin : Perform}

theorem alike_bodyChunks {body other : Body} (alike : body.Alike other) :
    List.Forall₂ Text.Alike (bodyChunks body) (bodyChunks other) := by
  unfold bodyChunks
  rw [alike.declarations]
  refine List.rel_append ?_ (List.rel_filter (fun _ _ both => ?_) alike.blocks)
  · split
    · exact .nil
    · exact .cons (braceless_formatDeclarations alike.clean 0).alike .nil
  · dsimp only
    rw [both.marks.isEmpty]

theorem chunks_alike (inner : Perform.Alike self twin) {nodes : List Statement}
    (clean : ∀ node ∈ nodes, node.SelfContained) :
    Together (List.Forall₂ Text.Alike) (chunks self nodes) (chunks twin nodes) := by
  have each (node : Statement) (member : node ∈ nodes) :
      Together (List.Forall₂ Text.Alike) (do return bodyChunks (← blockUnder self none 0 [node]))
        (do return bodyChunks (← blockUnder twin none 0 [node])) := by
    have own : ∀ other ∈ [node], other.SelfContained :=
      List.forall_mem_singleton.mpr (clean node member)
    exact .bind (blockUnder_alike inner 0 (by simp) own) fun body other alike =>
      .pure (alike_bodyChunks alike)
  exact .bind (.mapM each) fun parts others alike => .pure (List.rel_flatten alike)

/-- What was put to the end closes the text of both runs. -/
theorem sheet_alike (inner : Perform.Alike self twin) {nodes : List Statement}
    (clean : ∀ node ∈ nodes, node.SelfContained) :
    Together Text.Alike (sheet self nodes) (sheet twin nodes) := by
  refine .bind (chunks_alike inner clean) fun parts others alike => ?_
  intro before other states
  refine ⟨⟨{ states.clean with }, ?_, .nil⟩, .ok ?_⟩
  · have same := states.same
    rw [same]
    rfl
  · exact Text.alike_intercalate (by decide) (List.rel_append alike states.hoisted)

/-- In the text of a stylesheet braces match, and a block without an at-sign before it holds no other
one. The twin that marks the blocks of style rules comes to the same text with marks, and no block that
it has marked holds a brace. -/
theorem stylesheet_flat (plain : setup.Plain) (file : String) {nodes : List Statement}
    (contained : ∀ node ∈ nodes, node.SelfContained) {css : String}
    (compiled : (stylesheet setup nodes (Machine.start file)).1 = .ok css) :
    Chars.Balanced css.toList ∧
    (∀ before rest, css.toList = before ++ '\x7b' :: rest →
      '@' ∉ before.rtakeWhile (fun c => !isBrace c) →
      ∃ inside after, rest = inside ++ '\x7d' :: after ∧ Chars.Braceless inside) ∧
    ∃ marked, (Marked.stylesheet setup nodes (Machine.start file)).1 = .ok marked ∧
      Chars.Marks css.toList marked.toList := by
  have runs : Together Text.Alike (stylesheet setup nodes) (Marked.stylesheet setup nodes) :=
    sheet_alike (perform_alike plain depthBound) contained
  rcases runs.outcomes (Machine.alike_start file) with
    ⟨text, marked, _, _, run, runTwin, alike, -⟩ | ⟨fault, _, _, run, -⟩
  · rw [run] at compiled
    obtain rfl : text = css := Except.ok.inj compiled
    refine ⟨alike.flat.balanced, ?_, marked, by rw [runTwin], alike.marks⟩
    exact fun before rest cut unsigned => alike.flat.block_of_unsigned cut unsigned
  · rw [run] at compiled
    cases compiled

/-- `@media print` around a rule for `.a, .b`, which has a rule for `.c` nested in it. -/
theorem stylesheet_flat_media :
    let declaration (name value : String) : Statement :=
      .property ⟨.literal name 1, some (.identifier value ⟨1, 1⟩), false, [], 1⟩
    let nodes : List Statement := [.media (.literal "print" 1) [.rule ⟨.literal ".a, .b" 1, 1⟩
      [declaration "color" "red", .rule ⟨.literal ".c" 1, 1⟩ [declaration "top" "auto"] 1] 1] 1]
    let css := "@media print \x7b\n" ++ "  .a,\n  .b \x7b\n    color: red;\n  \x7d\n" ++
      "  .a .c,\n  .b .c \x7b\n    top: auto;\n  \x7d\n" ++ "\x7d\n"
    let marked := "@media print \x7b\n" ++ "  .a,\n  .b \x7b\n¶    color: red;\n  \x7d\n" ++
      "  .a .c,\n  .b .c \x7b\n¶    top: auto;\n  \x7d\n" ++ "\x7d\n"
    let setup := (Compiler.create {} (Loader.memory [])).setup
    (∀ node ∈ nodes, node.SelfContained) ∧
      (stylesheet setup nodes (Machine.start "a.scss")).1.toOption = some css ∧
      (Marked.stylesheet setup nodes (Machine.start "a.scss")).1.toOption = some marked ∧
      Chars.Balanced css.toList ∧ Chars.Marks css.toList marked.toList := by
  intro declaration nodes css marked setup
  have literal {text : String} (clean : Braceless text) :
      Template.Braceless (Interpolation.literal text 1) := by
    constructor <;> simp [Interpolation.literal, clean]
  have property {name value : String} (label : Braceless name) (clean : Braceless value) :
      (declaration name value).SelfContained :=
    .property (literal label) (by simpa using .identifier _ clean) (by simp)
  have contained : ∀ node ∈ nodes, node.SelfContained := by
    refine List.forall_mem_singleton.mpr (.media 1 (literal (by decide)) ?_)
    refine List.forall_mem_singleton.mpr (.rule 1 (literal (by decide)) ?_)
    refine List.forall_mem_cons.mpr ⟨property (by decide) (by decide), ?_⟩
    refine List.forall_mem_singleton.mpr (.rule 1 (literal (by decide)) ?_)
    exact List.forall_mem_singleton.mpr (property (by decide) (by decide))
  have done {result : Except Fault String} {text : String} (found : result.toOption = some text) :
      result = .ok text := by
    cases result with
    | error fault => cases found
    | ok own => rw [Option.some.inj found]
  have written : (stylesheet setup nodes (Machine.start "a.scss")).1.toOption = some css := by
    decide +kernel
  have twin : (Marked.stylesheet setup nodes (Machine.start "a.scss")).1.toOption = some marked := by
    decide +kernel
  obtain ⟨balanced, -, other, same, marks⟩ :=
    stylesheet_flat (Compiler.plain_create _ _) "a.scss" contained (done written)
  rw [done twin] at same
  exact ⟨contained, written, twin, balanced, Except.ok.inj same ▸ marks⟩

end Eval

end Scss
