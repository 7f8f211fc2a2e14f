import Scss.Compiler
import Scss.Proofs.Braces.Layout

/-! Blocks of any indentation. Whatever widths the lines have, the depths of the open blocks grow inwards:
a line first closes what is not shallower than itself, and is only then put on top. So what is written
are rows, one for each line that is not blank, between ends of blocks that each close the innermost one. -/
namespace Scss

namespace Indented

/-! The conversion line by line. A step says what is written for one line and where the conversion stands
behind it; it looks at the lines that follow only to see whether a deeper one comes next, or how far a
comment goes. -/

/-- What is written for a line, and where the conversion stands behind it. -/
def step (unit : Nat) (state : State) (line : List Char) (rest : List (List Char)) : List (List Char) × State :=
  if 0 < state.skip then ([], { state with skip := state.skip - 1 })
  else if isBlankLine line then ([], { state with blanks := state.blanks + 1 })
  else
    let text := Chars.trim line
    let own := depth unit line
    let before := (state.opened.takeWhile (own ≤ ·)).map closing ++ List.replicate state.blanks []
    let opened := state.opened.dropWhile (own ≤ ·)
    if ['/', '*'].isPrefixOf text then
      let span := commentSpan (width line) (pad own ++ text) rest
      (before ++ commentLines (pad own ++ text) (rest.take span), ⟨opened, 0, span⟩)
    else if ['/', '/'].isPrefixOf text || text.getLast? = some ',' then
      (before ++ [pad own ++ text], ⟨opened, 0, 0⟩)
    else
      let opens := opensBlock unit own rest
      (before ++ [statementLine own opens text], ⟨if opens then own :: opened else opened, 0, 0⟩)

theorem convert_nil (unit : Nat) (state : State) : convert unit state [] = state.opened.map closing := rfl

theorem convert_cons (unit : Nat) (state : State) (line : List Char) (rest : List (List Char)) :
    convert unit state (line :: rest) =
      (step unit state line rest).1 ++ convert unit (step unit state line rest).2 rest := by
  rw [convert, step]
  dsimp only
  split_ifs <;> simp

def states (unit : Nat) : State → List (List Char) → List State
  | state, [] => [state]
  | state, line :: rest => state :: states unit (step unit state line rest).2 rest

end Indented

namespace Compiler

/-- The mark that opens a block, or ends a statement, stands behind the comment and is read as a part of
it: a rule is no longer read, and two declarations become one. -/
theorem mark_lost_in_comment :
    let compiler := Compiler.create {} (Loader.memory [])
    (compiler.compileString ".a\n  b: c\n" .indented).result = .ok ".a \x7b\n  b: c;\n\x7d\n" ∧
      (compiler.compileString ".a // note\n  b: c\n" .indented).result.isOk = false ∧
      (compiler.compileString ".a\n  b: c\n  d: e\n" .indented).result =
        .ok ".a \x7b\n  b: c;\n  d: e;\n\x7d\n" ∧
      (compiler.compileString ".a\n  b: c // note\n  d: e\n" .indented).result =
        .ok ".a \x7b\n  b: c d: e;\n\x7d\n" := by
  intro compiler
  exact ⟨by decide +kernel, by decide +kernel, by decide +kernel, by decide +kernel⟩

end Compiler

namespace Chars

/-- Behind a text so many braces are open, if so many are before it; none is closed that is not open. -/
structure Shifts (before : Nat) (text : List Char) (after : Nat) : Prop where
  above : ∀ part, part <+: text → part.count '\x7d' ≤ before + part.count '\x7b'
  level : after + text.count '\x7d' = before + text.count '\x7b'

namespace Shifts

variable {before middle after : Nat} {text rest : List Char}

theorem balanced (shifts : Shifts 0 text 0) : Balanced text := by
  constructor
  · intro part start
    simpa using shifts.above part start
  · simpa using shifts.level

theorem append (first : Shifts before text middle) (second : Shifts middle rest after) :
    Shifts before (text ++ rest) after where
  above := by
    intro part start
    rcases List.prefix_or_prefix_of_prefix start (List.prefix_append text rest) with within | ⟨more, rfl⟩
    · exact first.above part within
    · have inside := second.above more ((List.prefix_append_right_inj text).mp start)
      have level := first.level
      simp only [List.count_append]
      omega
  level := by
    have here := first.level
    have there := second.level
    simp only [List.count_append]
    omega

theorem of_braceless (clean : Braceless text) (count : Nat) : Shifts count text count := by
  have none {part : List Char} (within : part <+: text) : part.count '\x7d' = 0 ∧ part.count '\x7b' = 0 := by
    constructor
    · apply List.count_eq_zero.mpr
      intro member
      have brace := clean _ (within.subset member)
      revert brace
      decide
    · apply List.count_eq_zero.mpr
      intro member
      have brace := clean _ (within.subset member)
      revert brace
      decide
  constructor
  · intro part start
    have counts := none start
    omega
  · have counts := none (List.prefix_refl text)
    omega

theorem opening (count : Nat) : Shifts count ['\x7b'] (count + 1) where
  above := by
    intro part start
    rcases List.prefix_cons_iff.mp start with rfl | ⟨more, rfl, others⟩
    · simp
    · rw [List.prefix_nil.mp others]
      simp
  level := by simp

theorem closing (count : Nat) : Shifts (count + 1) ['\x7d'] count where
  above := by
    intro part start
    rcases List.prefix_cons_iff.mp start with rfl | ⟨more, rfl, others⟩
    · simp
    · rw [List.prefix_nil.mp others]
      simp
  level := by simp

end Shifts

theorem trim_infix (text : List Char) : trim text <:+: text := by
  have start : trimStart text <:+ text := List.dropWhile_suffix _
  have final : (trimStart text).reverse.dropWhile isBlank <:+ (trimStart text).reverse :=
    List.dropWhile_suffix _
  have front : trim text <+: trimStart text := by
    have same : trim text = ((trimStart text).reverse.dropWhile isBlank).reverse := rfl
    rw [same]
    simpa using List.reverse_prefix.mpr final
  exact front.isInfix.trans start.isInfix

end Chars

namespace Indented

inductive Ending where
  | none
  | semicolon
  | brace
deriving DecidableEq

def Ending.chars : Ending → List Char
  | none => []
  | semicolon => [';']
  | brace => [' ', '\x7b']

/-- What is written in one line: nothing, the end of a block, or a line of the source. -/
inductive Row where
  | blank
  | closing (depth : Nat)
  | line (source : List Char) (depth : Nat) (text : List Char) (ending : Ending)

namespace Row

def chars : Row → List Char
  | blank => []
  | closing depth => Indented.closing depth
  | line _ depth text ending => pad depth ++ text ++ ending.chars

def source? : Row → Option (List Char)
  | blank => none
  | closing _ => none
  | line source _ _ _ => some source

/-- A line is written at its depth, trimmed, as it is or with a short form written out. -/
def Faithful (unit : Nat) : Row → Prop
  | blank => True
  | closing _ => True
  | line source own text _ =>
    own = depth unit source ∧ (text = Chars.trim source ∨ text = statement (Chars.trim source))

end Row

/-- The depths of the blocks that are open behind a row, innermost first. The end of a block closes the
innermost one, at its depth; a line stands deeper than all that is open, and opens a block by its brace. -/
inductive Turns : List Nat → Row → List Nat → Prop where
  | blank (opened : List Nat) : Turns opened .blank opened
  | closing (depth : Nat) (opened : List Nat) : Turns (depth :: opened) (.closing depth) opened
  | line {source text : List Char} {depth : Nat} {opened : List Nat} {ending : Ending}
      (inside : ∀ outer ∈ opened, outer < depth) (flat : ending ≠ .brace) :
      Turns opened (.line source depth text ending) opened
  | block {source text : List Char} {depth : Nat} {opened : List Nat}
      (inside : ∀ outer ∈ opened, outer < depth) :
      Turns opened (.line source depth text .brace) (depth :: opened)

/-- The blocks that are open behind rows. -/
inductive Runs : List Nat → List Row → List Nat → Prop where
  | nil (opened : List Nat) : Runs opened [] opened
  | cons {opened middle after : List Nat} {row : Row} {rows : List Row} (turns : Turns opened row middle)
      (runs : Runs middle rows after) : Runs opened (row :: rows) after

/-- Every block is deeper than those around it. -/
def Nested (opened : List Nat) : Prop := opened.Pairwise (· > ·)

theorem Turns.nested {opened after : List Nat} {row : Row} (turns : Turns opened row after)
    (nested : Nested opened) : Nested after := by
  cases turns with
  | blank => exact nested
  | closing depth => exact nested.tail
  | line inside flat => exact nested
  | block inside => exact List.pairwise_cons.mpr ⟨inside, nested⟩

namespace Runs

variable {opened middle after : List Nat} {rows others : List Row}

theorem append (first : Runs opened rows middle) (second : Runs middle others after) :
    Runs opened (rows ++ others) after := by
  induction first with
  | nil => exact second
  | cons turns runs ih => exact .cons turns (ih second)

theorem single {row : Row} (turns : Turns opened row after) : Runs opened [row] after := .cons turns (.nil after)

theorem nested (runs : Runs opened rows after) (nested : Nested opened) : Nested after := by
  induction runs with
  | nil => exact nested
  | cons turns runs ih => exact ih (turns.nested nested)

/-- Behind each row some blocks are open, and the rest runs from there. -/
theorem split (runs : Runs opened (rows ++ others) after) :
    ∃ middle, Runs opened rows middle ∧ Runs middle others after := by
  induction rows generalizing opened with
  | nil => exact ⟨opened, .nil opened, runs⟩
  | cons row rows ih =>
    cases runs with
    | cons turns runs =>
      obtain ⟨middle, first, second⟩ := ih runs
      exact ⟨middle, .cons turns first, second⟩

theorem blanks (count : Nat) (opened : List Nat) : Runs opened (List.replicate count .blank) opened := by
  induction count with
  | zero => exact .nil opened
  | succ count ih => exact .cons (.blank opened) ih

theorem closings (closed opened : List Nat) : Runs (closed ++ opened) (closed.map .closing) opened := by
  induction closed with
  | nil => exact .nil opened
  | cons depth closed ih => exact .cons (.closing depth _) ih

end Runs

section Braces

open Chars (Braceless Shifts)

theorem braceless_pad (depth : Nat) : Braceless (pad depth) := by
  intro c member
  rw [List.eq_of_mem_replicate member]
  rfl

theorem braceless_statement {text : List Char} (clean : Braceless text) : Braceless (statement text) := by
  unfold statement
  split
  · rename_i rest
    obtain ⟨-, behind⟩ := (Chars.braceless_cons _ _).mp clean
    refine (Chars.braceless_append _ _).mpr ⟨by decide, behind.dropWhile _⟩
  · rename_i rest
    obtain ⟨-, behind⟩ := (Chars.braceless_cons _ _).mp clean
    refine (Chars.braceless_append _ _).mpr ⟨by decide, behind.dropWhile _⟩
  · exact clean

/-- The rows of lines without braces open and close blocks by their braces, and by nothing else. -/
theorem Turns.shifts {unit : Nat} {opened after : List Nat} {row : Row} (turns : Turns opened row after)
    (faithful : row.Faithful unit) (clean : ∀ source ∈ row.source?, Braceless source) :
    Shifts opened.length row.chars after.length := by
  have text {source text : List Char} {own : Nat} (clean : Braceless source)
      (same : own = depth unit source ∧ (text = Chars.trim source ∨ text = statement (Chars.trim source))) :
      Braceless (pad own ++ text) := by
    refine (Chars.braceless_append _ _).mpr ⟨braceless_pad own, ?_⟩
    rcases same.2 with rfl | rfl
    · exact clean.trim
    · exact braceless_statement clean.trim
  cases turns with
  | blank => exact .of_braceless (by simp [Row.chars]) _
  | closing depth => exact (Shifts.of_braceless (braceless_pad depth) _).append (.closing _)
  | @line source _ _ _ ending inside flat =>
    have front := Shifts.of_braceless (text (clean source rfl) faithful) opened.length
    cases ending with
    | none => exact front.append (.of_braceless (by simp [Ending.chars]) _)
    | semicolon => exact front.append (.of_braceless (by decide) _)
    | brace => exact absurd rfl flat
  | @block source _ _ _ inside =>
    have front := Shifts.of_braceless (text (clean source rfl) faithful) opened.length
    have space : Braceless [' '] := by decide
    exact front.append ((Shifts.of_braceless space _).append (.opening _))

theorem Runs.shifts {unit : Nat} {opened after : List Nat} {rows : List Row} (runs : Runs opened rows after)
    (faithful : ∀ row ∈ rows, row.Faithful unit)
    (clean : ∀ source ∈ rows.filterMap Row.source?, Braceless source) {newline : List Char}
    (plain : Braceless newline) :
    Shifts opened.length (List.intercalate newline (rows.map Row.chars)) after.length := by
  induction runs with
  | nil => exact .of_braceless (by simp) _
  | @cons opened middle after row rows turns runs ih =>
    obtain ⟨here, others⟩ := List.forall_mem_cons.mp faithful
    have first := turns.shifts here fun source own =>
      clean source (List.mem_filterMap.mpr ⟨row, List.mem_cons_self .., own⟩)
    have rest := ih others fun source member => by
      obtain ⟨other, listed, own⟩ := List.mem_filterMap.mp member
      exact clean source (List.mem_filterMap.mpr ⟨other, List.mem_cons_of_mem _ listed, own⟩)
    cases rows with
    | nil =>
      cases runs
      simpa using first
    | cons next rows =>
      rw [List.map_cons, List.map_cons, List.intercalate_cons_cons]
      exact (first.append (.of_braceless plain _)).append rest

end Braces

/-- A line of the source that opens no comment across lines, and that has no braces. -/
structure Plain (line : List Char) : Prop where
  braceless : Chars.Braceless line
  uncommented : ¬ ['/', '*'] <:+: line

instance (line : List Char) : Decidable (Plain line) :=
  decidable_of_iff (Chars.Braceless line ∧ ¬ ['/', '*'] <:+: line)
    ⟨fun ⟨clean, open_⟩ => ⟨clean, open_⟩, fun ⟨clean, open_⟩ => ⟨clean, open_⟩⟩

section Conversion

variable {unit : Nat} {state : State} {line : List Char} {rest : List (List Char)}

/-- What is left open for a line is shallower than it. -/
theorem lt_of_mem_dropWhile {opened : List Nat} (nested : Nested opened) (own : Nat) :
    ∀ outer ∈ opened.dropWhile (own ≤ ·), outer < own := by
  induction opened with
  | nil => exact nofun
  | cons depth opened ih =>
    obtain ⟨deeper, others⟩ := List.pairwise_cons.mp nested
    by_cases closes : own ≤ depth
    · rw [List.dropWhile_cons_of_pos (by simpa using closes)]
      exact ih others
    · rw [List.dropWhile_cons_of_neg (by simpa using closes)]
      rw [List.forall_mem_cons]
      refine ⟨by omega, fun outer member => ?_⟩
      have less := deeper outer member
      omega

/-- A line that is not blank is written in one row, behind the ends of the blocks that it leaves and the
blank lines before it. -/
theorem step_rows (unit : Nat) (rest : List (List Char)) (nested : Nested state.opened)
    (start : state.skip = 0) (plain : Plain line) (visible : isBlankLine line = false) :
    ∃ rows, (step unit state line rest).1 = rows.map Row.chars ∧ (∀ row ∈ rows, row.Faithful unit) ∧
      rows.filterMap Row.source? = [line] ∧ Runs state.opened rows (step unit state line rest).2.opened ∧
      (step unit state line rest).2.skip = 0 := by
  have comment : ['/', '*'].isPrefixOf (Chars.trim line) = false := by
    rw [← Bool.not_eq_true, List.isPrefixOf_iff_prefix]
    exact fun starts => plain.uncommented (starts.isInfix.trans (Chars.trim_infix line))
  have inside := lt_of_mem_dropWhile nested (depth unit line)
  -- What is written before the line closes blocks and leaves those around it open.
  have around : Runs state.opened
      ((state.opened.takeWhile (depth unit line ≤ ·)).map .closing ++ List.replicate state.blanks .blank)
      (state.opened.dropWhile (depth unit line ≤ ·)) := by
    have closed := Runs.closings (state.opened.takeWhile (depth unit line ≤ ·))
      (state.opened.dropWhile (depth unit line ≤ ·))
    rw [List.takeWhile_append_dropWhile] at closed
    exact closed.append (.blanks state.blanks _)
  have rows {text : List Char} (ending : Ending) {opened : List Nat}
      (same : text = Chars.trim line ∨ text = statement (Chars.trim line))
      (turns : Turns (state.opened.dropWhile (depth unit line ≤ ·)) (.line line (depth unit line) text ending)
        opened) :
      ∃ rows, (state.opened.takeWhile (depth unit line ≤ ·)).map closing ++ List.replicate state.blanks [] ++
          [pad (depth unit line) ++ text ++ ending.chars] = rows.map Row.chars ∧
        (∀ row ∈ rows, row.Faithful unit) ∧ rows.filterMap Row.source? = [line] ∧
        Runs state.opened rows opened := by
    refine ⟨_, ?_, ?_, ?_, around.append (.single turns)⟩
    · simp [Row.chars, Function.comp_def]
    · intro row member
      simp only [List.mem_append, List.mem_map, List.mem_replicate, List.mem_singleton] at member
      rcases member with (⟨depth, -, rfl⟩ | ⟨-, rfl⟩) | rfl
      · trivial
      · trivial
      · exact ⟨rfl, same⟩
    · simp [Row.source?, List.filterMap_append, List.filterMap_map, Function.comp_def]
  unfold step
  simp only [start, Nat.lt_irrefl, if_false, visible, Bool.false_eq_true, comment]
  by_cases silent : (['/', '/'].isPrefixOf (Chars.trim line) || (Chars.trim line).getLast? = some ',') = true
  · simp only [silent, if_true, and_true]
    simpa [Ending.chars] using rows .none (.inl rfl) (.line inside (by decide))
  · simp only [silent]
    unfold statementLine
    dsimp only
    cases opensBlock unit (depth unit line) rest with
    | true => simpa [Ending.chars] using rows .brace (.inr rfl) (.block inside)
    | false =>
      simp only [Bool.false_eq_true, if_false]
      split_ifs
      · simpa [Ending.chars] using rows .none (.inr rfl) (.line inside (by decide))
      · simpa [Ending.chars] using rows .semicolon (.inr rfl) (.line inside (by decide))

theorem step_blank (start : state.skip = 0) (blank : isBlankLine line = true) :
    step unit state line rest = ([], { state with blanks := state.blanks + 1 }) := by
  simp [step, start, blank]

/-- All lines are written in rows, one for each that is not blank, in their order. -/
theorem convert_rows (unit : Nat) {lines : List (List Char)} {state : State}
    (nested : Nested state.opened) (start : state.skip = 0) (plain : ∀ line ∈ lines, Plain line) :
    ∃ rows, convert unit state lines = rows.map Row.chars ∧ (∀ row ∈ rows, row.Faithful unit) ∧
      rows.filterMap Row.source? = lines.filter (fun line => !isBlankLine line) ∧
      Runs state.opened rows [] := by
  induction lines generalizing state with
  | nil =>
    have closed := Runs.closings state.opened []
    rw [List.append_nil] at closed
    refine ⟨_, by simp [convert_nil, Row.chars, Function.comp_def], ?_, ?_, closed⟩
    · intro row member
      obtain ⟨depth, -, rfl⟩ := List.mem_map.mp member
      trivial
    · simp [Row.source?, List.filterMap_map, Function.comp_def]
  | cons line lines ih =>
    obtain ⟨own, others⟩ := List.forall_mem_cons.mp plain
    rw [convert_cons]
    cases visible : isBlankLine line with
    | true =>
      have later : Nested { state with blanks := state.blanks + 1 }.opened := nested
      rw [step_blank start visible]
      simpa [visible] using ih later start others
    | false =>
      obtain ⟨first, text, faithful, sources, runs, next⟩ :=
        step_rows unit lines nested start own visible
      obtain ⟨rows, more, rest, listed, further⟩ := ih (runs.nested nested) next others
      refine ⟨first ++ rows, by rw [text, more, List.map_append], ?_, ?_, runs.append further⟩
      · exact List.forall_mem_append.mpr ⟨faithful, rest⟩
      · simp [List.filterMap_append, sources, listed, visible]

/-- Before each line the depths of the open blocks grow inwards. -/
theorem nested_states {lines : List (List Char)} (nested : Nested state.opened) :
    ∀ reached ∈ states unit state lines, Nested reached.opened := by
  have kept (opened : List Nat) (own : Nat) (nested : Nested opened) : Nested (opened.dropWhile (own ≤ ·)) :=
    nested.sublist (List.dropWhile_sublist _)
  induction lines generalizing state with
  | nil => simpa [states] using nested
  | cons line lines ih =>
    rw [states, List.forall_mem_cons]
    refine ⟨nested, ih ?_⟩
    unfold step
    dsimp only
    split_ifs
    · exact nested
    · exact nested
    · exact kept _ _ nested
    · exact kept _ _ nested
    · exact List.pairwise_cons.mpr ⟨lt_of_mem_dropWhile nested _, kept _ _ nested⟩
    · exact kept _ _ nested

end Conversion

/-- For every source whose lines have no braces and no `/*`, however it is indented: the converted text is
balanced; the depths of the open blocks grow inwards before every line and behind every row; and the text
is made of rows, which end blocks and hold the lines that are not blank, each once and in their order,
trimmed, at their depth and with nothing, a semicolon or a brace behind them. -/
theorem any_indentation_nested (source : String) (plain : ∀ line ∈ Chars.lines source.toList, Plain line) :
    let lines := Chars.lines source.toList
    let unit := unitOf lines
    Chars.Balanced (toScss source).toList ∧
      (∀ state ∈ states unit ⟨[], 0, 0⟩ lines, Nested state.opened) ∧
      ∃ rows, ∃ newline ∈ [['\n'], ['\r', '\n']], ∃ final ∈ [[], newline],
        toScss source = String.ofList (List.intercalate newline (rows.map Row.chars) ++ final) ∧
        (∀ row ∈ rows, row.Faithful unit) ∧
        rows.filterMap Row.source? = lines.filter (fun line => !isBlankLine line) ∧
        Runs [] rows [] ∧
        ∀ before after, rows = before ++ after →
          ∃ opened, Runs [] before opened ∧ Runs opened after [] ∧ Nested opened := by
  intro lines unit
  have start : Nested (State.mk [] 0 0).opened := .nil
  obtain ⟨rows, converted, faithful, sources, runs⟩ :=
    convert_rows unit start rfl plain
  generalize ends : (if Chars.hasInfix ['\r', '\n'] source.toList then ['\r', '\n'] else ['\n']) = newline
  generalize finals : (if source.toList.getLast? = some '\n' then newline else []) = final
  have same : toScss source = String.ofList (List.intercalate newline (rows.map Row.chars) ++ final) := by
    rw [← converted, ← finals, ← ends]
    rfl
  have newlines : newline ∈ [['\n'], ['\r', '\n']] := by
    rw [← ends]
    split <;> simp
  have some : final ∈ [[], newline] := by
    rw [← finals]
    split <;> simp
  have clean : Chars.Braceless newline := by
    simp only [List.mem_cons, List.not_mem_nil, or_false] at newlines
    rcases newlines with rfl | rfl <;> decide
  have braceless : ∀ line ∈ rows.filterMap Row.source?, Chars.Braceless line := by
    intro line member
    rw [sources] at member
    exact (plain line (List.mem_of_mem_filter member)).braceless
  have shifts := runs.shifts faithful braceless clean
  have cleanFinal : Chars.Braceless final := by
    simp only [List.mem_cons, List.not_mem_nil, or_false] at some
    rcases some with rfl | rfl
    · exact Chars.braceless_nil
    · exact clean
  refine ⟨?_, nested_states .nil, rows, newline, newlines, final, some, same, faithful, sources, runs, ?_⟩
  · rw [same, String.toList_ofList]
    exact (shifts.append (.of_braceless cleanFinal _)).balanced
  · rintro before after rfl
    obtain ⟨opened, first, second⟩ := runs.split
    exact ⟨opened, first, second, first.nested .nil⟩

/-- Widths of 0, 5, 9, 7, 2, 2, 5, 0 and 3 with a unit of two. The line of seven columns goes back to a depth
that none had before, and the lines behind the comment and behind the comma are deeper but in no block. -/
theorem any_indentation_nested_ragged :
    let source := ".a\n     .b\n         c: d\n       e: f\n  =g\n\n\t // h,\n     +i\nj,\n   .k\n\n"
    (∀ line ∈ Chars.lines source.toList, Plain line) ∧ Chars.Balanced (toScss source).toList ∧
      toScss source = ".a \x7b\n    .b \x7b\n        c: d;\n      e: f;\n    \x7d\n  @mixin g;\n\n  // h,\n" ++
        "    @include i;\n\x7d\nj,\n  .k;\n" := by
  intro source
  have plain : ∀ line ∈ Chars.lines source.toList, Plain line := by decide +kernel
  obtain ⟨balanced, -⟩ := any_indentation_nested source plain
  exact ⟨plain, balanced, by decide +kernel⟩

end Indented

end Scss
