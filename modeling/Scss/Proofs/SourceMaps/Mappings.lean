import Scss.Compiler
import Scss.Proofs.SourceMaps.Statements

/-! Mappings and the heads of rules in the output. The heads stand where the twin of the evaluator writes
its tags. Every mapping is of a note of its own and tells where its head stands; and if the heads are
noted in the order in which they stand in the output, and none stands anywhere before its turn, there is
one mapping for each and it tells its place. -/
namespace Scss

variable {tag : PendingMapping → String}

namespace Headings

/-- The heads of a text are where its tagged twin has its tags. -/
structure Marked (tag : PendingMapping → String) (text tagged : String) (headings : Headings) : Prop where
  proper : headings.Proper
  text : headings.text = text.toList
  tagged : headings.tagged tag = tagged.toList

end Headings

namespace Eval

/-- A stylesheet and its tagged twin: the heads in its text are noted. -/
theorem sheet_headings (plain : ∀ note, Text.Free isSyntax (tag note)) (setup : Setup) (depth : Nat)
    (nodes : List Statement) {before after : Machine} {text : String} (fresh : before.hoisted = [])
    (done : sheet (perform setup depth) nodes before = (.ok text, after)) :
    ∃ tagged, ∃ headings : Headings, (sheet (dressed setup (.tagging tag) depth) nodes before).1 = .ok tagged ∧
      headings.Marked tag text tagged ∧
      (↑headings.notes : Multiset PendingMapping) ≤ ↑after.pending := by
  have start : before.Tagged tag (0 + 0) before := by
    have laid : Text.AllLaid tag before.hoisted [] 0 := by
      rw [fresh]
      exact .nil
    have same : before.withHoisted [] = before := by
      rw [← fresh]
      rfl
    have states : before.Tagged tag (0 + 0) (before.withHoisted []) := .mk laid (Multiset.zero_le _)
    rwa [same] at states
  have outcomes := (chunks_tagged (perform_tagged plain setup depth) nodes).outcomes start
  unfold sheet at done ⊢
  rw [Run.bind_apply] at done ⊢
  generalize chunks (perform setup depth) nodes before = run at done outcomes
  generalize chunks (dressed setup (.tagging tag) depth) nodes before = twin at outcomes ⊢
  cases outcomes with
  | error => cases done
  | @ok parts twins heads middle _ laid states =>
    cases states with
    | @mk texts hoisted own noted =>
      cases done
      obtain ⟨notes, whole, same⟩ := (laid.append own).lines
      obtain ⟨headings, proper, shown, tagged, rfl⟩ := whole.exists_headings Chars.whole_nil
      refine ⟨_, headings, rfl, ⟨proper, shown, tagged⟩, ?_⟩
      rw [same, add_comm]
      simpa using noted

end Eval

namespace Compiler

variable (compiler : Compiler) (entry : Entry) (dialect : Dialect)

def notes : List PendingMapping :=
  match Grammar.stylesheet (dialect.toScss entry.text) with
  | .error _ => []
  | .ok nodes => (Eval.stylesheet compiler.setup nodes (Machine.start entry.file)).2.pending

def taggedText (tag : PendingMapping → String) : Except Fault String :=
  match Grammar.stylesheet (dialect.toScss entry.text) with
  | .error fault => .error fault
  | .ok nodes =>
    (Eval.sheet (Eval.dressed compiler.setup (.tagging tag) Eval.depthBound) nodes
      (Machine.start entry.file)).1

/-- The mappings of a compilation that succeeds, with source maps on and without compression. The heads
of rules stand in the text where the evaluator writes the tags if it is to write some, and all of them
are noted. Each mapping is of a note of its own, in the order of the notes, and tells where its head
stands. If the notes are in the order of the heads, and nothing before a head can be taken for it, then
there is exactly one mapping for each head, and it tells the place of the head, the line of its selector
and the file that its rule ran in. -/
theorem mappings_exact (plain : ∀ note, Text.Free isSyntax (tag note))
    (mapped : compiler.setup.options.sourceMap = true)
    (expanded : compiler.setup.options.isCompressed = false) {css : String}
    (done : (compiler.compile entry dialect).result = .ok css) :
    ∃ text tagged, css = text ++ mapComment compiler.setup.options ∧
      compiler.taggedText entry dialect tag = .ok tagged ∧
      (∃ headings : Headings, headings.Marked tag text tagged ∧
        (↑headings.notes : Multiset PendingMapping) ≤ ↑(compiler.notes entry dialect)) ∧
      (∃ kept, kept.Sublist (compiler.notes entry dialect) ∧
        List.Forall₂ (Mapping.Locates text.toList) kept
          (compiler.compile entry dialect).compiler.mappings) ∧
      ∀ headings : Headings, headings.Marked tag text tagged →
        headings.notes = compiler.notes entry dialect → headings.Clear →
        (compiler.compile entry dialect).compiler.mappings = headings.places [] := by
  unfold compile at done ⊢
  unfold taggedText notes
  cases read : Grammar.stylesheet (dialect.toScss entry.text) with
  | error fault =>
    rw [read] at done
    cases done
  | ok nodes =>
    rw [read] at done
    dsimp only at done ⊢
    cases ran : Eval.stylesheet compiler.setup nodes (Machine.start entry.file) with
    | mk result machine =>
      cases result with
      | error fault =>
        rw [ran] at done
        cases done
      | ok text =>
        rw [ran] at done
        simp only [expanded, mapped, Bool.false_eq_true, if_false, if_true, Except.ok.injEq] at done ⊢
        obtain ⟨tagged, headings, twin, marks, noted⟩ :=
          Eval.sheet_headings plain compiler.setup Eval.depthBound nodes rfl ran
        refine ⟨text, tagged, done.symm, twin, ⟨headings, marks, noted⟩,
          PendingMapping.resolve_locates text machine.pending, ?_⟩
        intro headings marks order clear
        have whole : text = String.ofList headings.text := by rw [marks.text, String.ofList_toList]
        rw [← order, whole]
        exact Headings.resolve_notes marks.proper clear

/-- Three rules, of which one is in a block with its head split, and two have the same head. -/
theorem mappings_exact_media :
    let compiler := create { sourceMap := true } (Loader.memory [])
    let entry : Entry := ⟨"input.scss",
      ".a \x7b x: y; \x7d\n@media p \x7b .b, .c \x7b x: y; \x7d \x7d\n.a \x7b x: z; \x7d\n"⟩
    let css := ".a \x7b\n  x: y;\n\x7d\n\n@media p \x7b\n  .b,\n  .c \x7b\n    x: y;\n  \x7d\n\x7d\n\n" ++
      ".a \x7b\n  x: z;\n\x7d\n"
    compiler.setup.options.sourceMap = true ∧ compiler.setup.options.isCompressed = false ∧
      (compiler.compile entry .scss).result = .ok css ∧
      (compiler.compile entry .scss).compiler.mappings =
        [⟨1, 0, 1, "input.scss"⟩, ⟨6, 2, 2, "input.scss"⟩, ⟨12, 0, 3, "input.scss"⟩] := by
  intro compiler entry css
  have done : (compiler.compile entry .scss).result = .ok css := by decide +kernel
  have plain (note : PendingMapping) : Text.Free isSyntax ((fun _ => "^" : PendingMapping → String) note) := by
    change Text.Free isSyntax "^"
    decide
  obtain ⟨text, tagged, same, twin, -, -, exact⟩ := mappings_exact compiler entry .scss plain rfl rfl done
  have bare : mapComment compiler.setup.options = "" := rfl
  rw [bare, String.append_empty] at same
  subst same
  let shown := "^.a \x7b\n  x: y;\n\x7d\n\n@media p \x7b\n  ^.b,\n  .c \x7b\n    x: y;\n  \x7d\n\x7d\n\n" ++
    "^.a \x7b\n  x: z;\n\x7d\n"
  have written : compiler.taggedText entry .scss (fun _ => "^") = .ok shown := by decide +kernel
  obtain rfl : tagged = shown := Except.ok.inj (twin.symm.trans written)
  let headings : Headings :=
    .head [] ⟨".a", "input.scss", 1⟩
      (.head " \x7b\n  x: y;\n\x7d\n\n@media p \x7b\n  ".toList ⟨".b, .c", "input.scss", 2⟩
        (.head ",\n  .c \x7b\n    x: y;\n  \x7d\n\x7d\n\n".toList ⟨".a", "input.scss", 3⟩
          (.last " \x7b\n  x: z;\n\x7d\n".toList)))
  have dot : ∃ c ∈ some '.', Chars.isBlank c = false := ⟨'.', rfl, rfl⟩
  have proper : headings.Proper :=
    .head (by decide) ⟨dot, by decide⟩ (by decide)
      (.head (by decide) ⟨dot, by decide⟩ (by decide)
        (.head (by decide) ⟨dot, by decide⟩ (by decide) (.last _)))
  have marked : headings.Marked (fun _ => "^") css shown := ⟨proper, by decide, by decide⟩
  have clear : headings.Clear := ⟨by decide, by decide, by decide, trivial⟩
  refine ⟨rfl, rfl, done, ?_⟩
  rw [exact headings marked (by decide +kernel) clear]
  decide

/-- The head of a rule that holds another rule is noted behind the other head, but stands before it. So
two heads are written, and one has no mapping. -/
theorem mappings_lack_outer :
    let compiler := create { sourceMap := true } (Loader.memory [])
    let entry : Entry :=
      ⟨"input.scss", ".a \x7b\n  color: red;\n  .b \x7b\n    color: blue;\n  \x7d\n\x7d\n"⟩
    (compiler.compile entry .scss).result =
        .ok ".a \x7b\n  color: red;\n\x7d\n.a .b \x7b\n  color: blue;\n\x7d\n" ∧
      compiler.taggedText entry .scss (fun _ => "^") =
        .ok "^.a \x7b\n  color: red;\n\x7d\n^.a .b \x7b\n  color: blue;\n\x7d\n" ∧
      (compiler.compile entry .scss).compiler.mappings = [⟨4, 0, 3, "input.scss"⟩] := by
  decide +kernel

end Compiler

end Scss
