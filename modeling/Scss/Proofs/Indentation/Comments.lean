import Scss.Proofs.Braces.Marks
import Scss.Proofs.Indentation
import Scss.Proofs.Indentation.Blocks
import Scss.Proofs.Pairs
import Scss.Proofs.Seams.Comments

/-! Silent comments at the ends of lines. The mark of a line, which opens a block or ends a statement, is written
behind the comment and is read as a part of it. The other rows are written as they are without the comment, so the
text compiles as with a blank in place of the mark: nothing changes where the line has no mark, or where its
semicolon is the last one of a block. -/
namespace Scss

namespace Chars

variable {line head back rest : List Char}

theorem hasInfix_iff {pattern text : List Char} : hasInfix pattern text = true ↔ pattern <:+: text := by
  induction text with
  | nil => simp [hasInfix]
  | cons c text ih => simp [hasInfix, ih, List.infix_cons_iff]

/-- What stands behind a line: nothing, or the end of the line and the rest of the text. -/
inductive Broken : List Char → List Char → Prop where
  | ended : Broken [] []
  | newline (rest : List Char) : Broken ('\n' :: rest) rest
  | returned (rest : List Char) : Broken ('\r' :: '\n' :: rest) rest

/-- A text that can stand in a line. A carriage return at its end would belong to the end of the line. -/
structure Single (line : List Char) : Prop where
  nonempty : line ≠ []
  newline : '\n' ∉ line
  plain : line.getLast? ≠ some '\r'

theorem Single.lines_eq (single : Single line) (broken : Broken back rest) :
    lines (line ++ back) = line :: lines rest := by
  obtain ⟨nonempty, newline, plain⟩ := single
  cases broken with
  | ended =>
    rw [List.append_nil, lines, lineCut_of_single newline nonempty]
    rfl
  | newline rest =>
    rw [lines, lineCut_append_newline newline, List.map_cons, Line.text, if_pos rfl, dropReturn, if_neg plain, lines]
  | returned rest =>
    have ends : '\n' ∉ line ++ ['\r'] := by simp [newline]
    rw [← List.singleton_append, ← List.append_assoc, lines, lineCut_append_newline ends, List.map_cons, Line.text,
      if_pos rfl, dropReturn, if_pos List.getLast?_concat, List.dropLast_concat, lines]

/-- A text is cut behind a line feed. -/
theorem lines_behind (starts : ∀ c ∈ head.getLast?, c = '\n') (rest : List Char) :
    lines (head ++ rest) = lines head ++ lines rest := by
  rcases List.eq_nil_or_concat' head with rfl | ⟨head, last, rfl⟩
  · rfl
  · obtain rfl := starts last List.getLast?_concat
    rw [List.append_assoc, List.singleton_append, lines, SelectorList.lineCut_append, List.map_append]
    rfl

/-- Which line ends a text has does not depend on what stands in one of its lines. -/
theorem Single.pair_infix (single : Single line) (starts : ∀ c ∈ head.getLast?, c = '\n') :
    ['\r', '\n'] <:+: head ++ (line ++ back) ↔ ['\r', '\n'] <:+: head ∨ ['\r', '\n'] <:+: back := by
  have before : head.getLast? ≠ some '\r' := fun last => absurd (starts _ last) (by decide)
  have within : ¬ ['\r', '\n'] <:+: line := fun found => single.newline (found.subset (by simp))
  rw [pair_infix_append, pair_infix_append]
  simp [before, single.plain, within]

theorem mem_rtakeWhile {p : Char → Bool} {text back : List Char} (ends : back <:+ text) (all : ∀ c ∈ back, p c = true) :
    ∀ c ∈ back, c ∈ text.rtakeWhile p := by
  obtain ⟨front, rfl⟩ := ends
  intro c member
  rw [List.rtakeWhile, List.reverse_append, List.takeWhile_append_of_pos (by simpa using all)]
  simp [member]

theorem Single.getLast?_eq (single : Single line) (back : List Char) :
    (head ++ (line ++ back)).getLast? = some '\n' ↔ back.getLast? = some '\n' := by
  have inside : line.getLast? ≠ some '\n' := fun last => single.newline (List.mem_of_getLast? last)
  cases last : line.getLast? with
  | none => exact absurd (List.getLast?_eq_none_iff.mp last) single.nonempty
  | some c =>
    rw [last] at inside
    rw [List.getLast?_append, List.getLast?_append, last]
    cases back.getLast? with
    | none => simpa using inside
    | some d => rfl

end Chars

namespace Indented

open Chars (isBlank trim trimStart trimEnd Single Broken)
open Lexer (CutInto LineEnd Remark silent)

/-- Lines that are not blank and equally indented. -/
structure Alongside (line other : List Char) : Prop where
  visible : isBlankLine line = false
  also : isBlankLine other = false
  width : width line = width other

def passed (unit : Nat) (rest : List (List Char)) : State → List (List Char) → List (List Char) × State
  | state, [] => ([], state)
  | state, line :: above =>
    let now := step unit state line (above ++ rest)
    let later := passed unit rest now.2 above
    (now.1 ++ later.1, later.2)

section Passed

variable {unit : Nat} {state : State} {line other : List Char} {above below rest : List (List Char)}

theorem convert_append (unit : Nat) (rest above : List (List Char)) (state : State) :
    convert unit state (above ++ rest) =
      (passed unit rest state above).1 ++ convert unit (passed unit rest state above).2 rest := by
  induction above generalizing state with
  | nil => rfl
  | cons line above ih => rw [List.cons_append, convert_cons, ih, passed, List.append_assoc]

theorem step_skip (skips : 0 < state.skip) (line : List Char) (rest : List (List Char)) :
    step unit state line rest = ([], { state with skip := state.skip - 1 }) := by
  rw [step, if_pos skips]

/-- Lines of a comment that goes further are passed. -/
theorem skip_passed (long : above.length < state.skip) : 0 < (passed unit rest state above).2.skip := by
  induction above generalizing state with
  | nil => exact long
  | cons line above ih =>
    have skips : 0 < state.skip := Nat.zero_lt_of_lt long
    rw [passed, step_skip skips]
    exact ih (Nat.lt_sub_of_add_lt long)

theorem find?_alongside (alike : Alongside line other) (above below : List (List Char)) :
    ((above ++ line :: below).find? fun line => !isBlankLine line).map width =
      ((above ++ other :: below).find? fun line => !isBlankLine line).map width := by
  rw [List.find?_append, List.find?_append]
  cases above.find? fun line => !isBlankLine line with
  | some found => rfl
  | none => simp [alike.visible, alike.also, alike.width]

theorem opensBlock_eq (unit own : Nat) (following : List (List Char)) : opensBlock unit own following =
    (((following.find? fun line => !isBlankLine line).map width).any fun width => own < width / unit) := by
  rw [opensBlock]
  cases following.find? fun line => !isBlankLine line <;> rfl

theorem commentSpan_alongside (alike : Alongside line other) {start : Nat} {last : List Char}
    (short : commentSpan start last (above ++ line :: below) ≤ above.length) :
    commentSpan start last (above ++ other :: below) = commentSpan start last (above ++ line :: below) := by
  induction above generalizing last with
  | nil =>
    have none := Nat.le_zero.mp short
    rw [none]
    rw [List.nil_append, commentSpan] at none ⊢
    split_ifs at none ⊢ <;> simp_all [alike.also, alike.visible, alike.width]
  | cons first above ih =>
    rw [List.cons_append, commentSpan] at short ⊢
    rw [List.cons_append, commentSpan]
    split_ifs at short ⊢
    · rfl
    · rw [ih (Nat.le_of_succ_le_succ short)]
    · rw [ih (Nat.le_of_succ_le_succ short)]
    · rfl

/-- What is written for a line above depends on how a line below is indented, and on nothing else of it. -/
theorem step_alongside (alike : Alongside line other) {first : List Char}
    (short : (step unit state first (above ++ line :: below)).2.skip ≤ above.length) :
    step unit state first (above ++ other :: below) = step unit state first (above ++ line :: below) := by
  have opens : opensBlock unit (depth unit first) (above ++ other :: below) =
      opensBlock unit (depth unit first) (above ++ line :: below) := by
    rw [opensBlock_eq, opensBlock_eq, find?_alongside alike]
  rw [step] at short ⊢
  rw [step]
  dsimp only at short ⊢
  rw [opens]
  split_ifs at short ⊢
  · rfl
  · rfl
  · change commentSpan _ _ _ ≤ above.length at short
    rw [commentSpan_alongside alike short, List.take_append_of_le_length short, List.take_append_of_le_length short]
  all_goals rfl

theorem passed_alongside (alike : Alongside line other)
    (outside : (passed unit (line :: below) state above).2.skip = 0) :
    passed unit (other :: below) state above = passed unit (line :: below) state above := by
  induction above generalizing state with
  | nil => rfl
  | cons first above ih =>
    rw [passed] at outside ⊢
    rw [passed]
    dsimp only at outside ⊢
    have short : (step unit state first (above ++ line :: below)).2.skip ≤ above.length := by
      by_contra long
      exact absurd outside (skip_passed (Nat.lt_of_not_le long)).ne'
    rw [step_alongside alike short, ih outside]

end Passed

section Line

variable {unit : Nat} {state : State} {line note : List Char} {rest : List (List Char)}

/-- A line behind which a silent comment can be written: it shows something, has no slash in it and does not go on
behind a comma. The sign of a short form does not stand alone in it. -/
structure Bare (line : List Char) : Prop where
  visible : isBlankLine line = false
  slash : '/' ∉ line
  comma : (trim line).getLast? ≠ some ','
  whole : trim line ∉ [['='], ['+']]
  newline : '\n' ∉ line
  plain : line.getLast? ≠ some '\r'
  /-- Other blanks are a part of a name if they are not at the end of the line. -/
  ascii : ∀ b ∈ line.rtakeWhile isBlank, b.toNat < 128

def commented (line note : List Char) : List Char := line ++ ' ' :: '/' :: '/' :: ' ' :: note

/-- A text that can stand in a silent comment. Behind a comma the line counts as one that goes on: it opens no block,
and no short form is written out. -/
structure Note (unit : Nat) (line : List Char) (rest : List (List Char)) (note : List Char) : Prop where
  newline : '\n' ∉ note
  plain : note.getLast? ≠ some '\r'
  comma : (trimEnd note).getLast? = some ',' →
    opensBlock unit (depth unit line) rest = false ∧ (trim line).head? ∉ [some '=', some '+']

theorem exists_visible_of_line (visible : isBlankLine line = false) : ∃ c ∈ line, isBlank c = false := by
  simpa [isBlankLine] using visible

theorem alongside_commented (visible : isBlankLine line = false) (note : List Char) :
    Alongside line (commented line note) := by
  obtain ⟨c, member, shows⟩ := exists_visible_of_line visible
  refine ⟨visible, ?_, ?_⟩
  · rw [isBlankLine, List.all_eq_false]
    exact ⟨c, List.mem_append_left _ member, by simp [shows]⟩
  · rw [width, width, commented, List.takeWhile_append, if_neg]
    intro whole
    have same := (List.takeWhile_prefix fun c => c = ' ' || c = '\t').eq_of_length whole
    rw [← same] at member
    have space := List.mem_takeWhile_imp member
    simp only [Bool.or_eq_true, decide_eq_true_eq] at space
    rcases space with rfl | rfl <;> cases shows

/-- A statement is written out at its start, whatever stands behind it. -/
theorem exists_statement {init : List Char} {c : Char} (visible : isBlank c = false)
    (whole : init = [] → c ≠ '=' ∧ c ≠ '+') :
    ∃ front, ∀ behind, statement (init ++ c :: behind) = front ++ c :: behind := by
  have trimmed (init behind : List Char) : trimStart (init ++ c :: behind) = trimStart init ++ c :: behind := by
    rw [trimStart, List.dropWhile_append, List.dropWhile_cons_of_neg (by simp [visible])]
    split_ifs with empty
    · rw [trimStart, List.isEmpty_iff.mp empty]
      rfl
    · rfl
  cases init with
  | nil =>
    obtain ⟨other, also⟩ := whole rfl
    refine ⟨[], fun behind => ?_⟩
    unfold statement
    split <;> simp_all
  | cons d init =>
    by_cases short : d = '='
    · subst short
      exact ⟨"@mixin ".toList ++ trimStart init, fun behind => by
        rw [List.append_assoc, ← trimmed]; rfl⟩
    by_cases call : d = '+'
    · subst call
      exact ⟨"@include ".toList ++ trimStart init, fun behind => by
        rw [List.append_assoc, ← trimmed]; rfl⟩
    · refine ⟨d :: init, fun behind => ?_⟩
      unfold statement
      split <;> simp_all

theorem statement_of_plain {text : List Char} (plain : text.head? ∉ [some '=', some '+']) : statement text = text := by
  unfold statement
  split <;> simp_all

/-- The slash in front of a text hides no comma behind it. -/
theorem comma_of_silent (comma : (trimEnd ('/' :: ' ' :: note)).getLast? = some ',') :
    (trimEnd note).getLast? = some ',' := by
  obtain ⟨blanks, blank, whole⟩ := Chars.exists_blanks note
  rw [whole, ← List.cons_append, ← List.cons_append, Chars.trimEnd_blanks blank] at comma
  by_cases empty : trimEnd note = []
  · rw [empty] at comma
    exact absurd comma (by decide)
  · have before : '/' :: ' ' :: trimEnd note = ['/', ' '] ++ trimEnd note := rfl
    rwa [before, Chars.trimEnd_append (Chars.shows_trimEnd empty), Chars.trimEnd_trimEnd,
      List.getLast?_append_of_ne_nil _ empty] at comma

def opening (unit : Nat) (state : State) (line : List Char) : List (List Char) :=
  (state.opened.takeWhile (depth unit line ≤ ·)).map closing ++ List.replicate state.blanks []

def around (unit : Nat) (state : State) (line : List Char) : List Nat := state.opened.dropWhile (depth unit line ≤ ·)

def stated (unit : Nat) (line : List Char) : List Char := pad (depth unit line) ++ statement (trim line)

def ending (unit : Nat) (line : List Char) (rest : List (List Char)) : Ending :=
  if opensBlock unit (depth unit line) rest then .brace
  else if [some ';', some '\x7b', some '\x7d'].contains (statement (trim line)).getLast? then .none
  else .semicolon

def behind (unit : Nat) (state : State) (line : List Char) (rest : List (List Char)) : State :=
  ⟨if opensBlock unit (depth unit line) rest then depth unit line :: around unit state line
    else around unit state line, 0, 0⟩

theorem not_isPrefixOf {pattern text : List Char} (first : text.head? ≠ some '/') :
    ('/' :: pattern).isPrefixOf text = false := by
  cases text with
  | nil => rfl
  | cons c text =>
    have other : c ≠ '/' := fun same => first (congrArg some same)
    simp [List.isPrefixOf, Ne.symm other]

theorem exists_statementLine (own : Nat) (opens : Bool) (text : List Char) :
    ∃ mark : Ending, statementLine own opens text = pad own ++ statement text ++ mark.chars := by
  unfold statementLine
  dsimp only
  split_ifs
  · exact ⟨.brace, rfl⟩
  · exact ⟨.none, (List.append_nil _).symm⟩
  · exact ⟨.semicolon, rfl⟩

theorem statementLine_eq (unit : Nat) (line : List Char) (rest : List (List Char)) :
    statementLine (depth unit line) (opensBlock unit (depth unit line) rest) (trim line) =
      stated unit line ++ (ending unit line rest).chars := by
  unfold statementLine ending
  dsimp only
  split_ifs <;> simp [stated, Ending.chars]

theorem getLast?_of_ending_none (none : ending unit line rest = .none) :
    (statement (trim line)).getLast? ∈ [some ';', some '\x7b', some '\x7d'] := by
  unfold ending at none
  split_ifs at none with opens ended
  exact List.contains_iff_mem.mp ended

theorem getLast?_of_ending_semicolon (semicolon : ending unit line rest = .semicolon) :
    (statement (trim line)).getLast? ∉ [some ';', some '\x7b', some '\x7d'] := by
  unfold ending at semicolon
  split_ifs at semicolon with opens ended
  exact fun member => ended (List.contains_iff_mem.mpr member)

namespace Bare

variable (bare : Bare line)

include bare

theorem exists_last : ∃ init c, trim line = init ++ [c] ∧ isBlank c = false ∧ c ≠ '/' ∧
    (init = [] → c ≠ '=' ∧ c ≠ '+') := by
  have some : trim line ≠ [] := by
    obtain ⟨c, member, shows⟩ := exists_visible_of_line bare.visible
    refine Chars.trimEnd_ne_nil ⟨c, ?_, shows⟩
    rwa [Chars.mem_trimStart shows]
  obtain ⟨init, c, whole⟩ := (List.eq_nil_or_concat' (trim line)).resolve_left some
  refine ⟨init, c, whole, (Chars.flush_trim line).last c (by simp [whole]), ?_, ?_⟩
  · rintro rfl
    have inside : '/' ∈ trim line := by simp [whole]
    exact bare.slash ((Chars.trim_infix line).subset inside)
  · rintro rfl
    have other := bare.whole
    rw [whole] at other
    simpa using other

theorem first : (trim line).head? ≠ some '/' := fun first =>
  bare.slash ((Chars.trim_infix line).subset (List.mem_of_mem_head? first))

/-- The statement of the line ends with something visible, which ends no comment. -/
theorem last_statement : ∀ c ∈ (statement (trim line)).getLast?, isBlank c = false ∧ c ≠ '/' := by
  obtain ⟨init, c, whole, visible, slash, plain⟩ := bare.exists_last
  obtain ⟨front, write⟩ := exists_statement visible plain
  rw [whole, write, List.getLast?_concat]
  rintro d ⟨rfl⟩
  exact ⟨visible, slash⟩

/-- The depth of the line stands in front of its statement. -/
theorem getLast?_stated (unit : Nat) (front : List Char) :
    (front ++ stated unit line).getLast? = (statement (trim line)).getLast? := by
  obtain ⟨init, c, whole, visible, -, plain⟩ := bare.exists_last
  obtain ⟨start, write⟩ := exists_statement visible plain
  rw [stated, whole, write, ← List.append_assoc, ← List.append_assoc, List.getLast?_concat, List.getLast?_concat]

theorem single : Single line where
  nonempty := by
    obtain ⟨c, member, -⟩ := exists_visible_of_line bare.visible
    exact List.ne_nil_of_mem member
  newline := bare.newline
  plain := bare.plain

/-- A line is written as its statement, with what ends it or opens its block. -/
theorem step_eq (start : state.skip = 0) (rest : List (List Char)) : step unit state line rest =
    (opening unit state line ++ [stated unit line ++ (ending unit line rest).chars], behind unit state line rest) := by
  have silent : ¬ (['/', '/'].isPrefixOf (trim line) || decide ((trim line).getLast? = some ',')) = true := by
    rw [not_isPrefixOf bare.first, Bool.false_or, decide_eq_true_iff]
    exact bare.comma
  rw [step, if_neg (by simp [start]), if_neg (by simp [bare.visible])]
  dsimp only
  rw [if_neg (by simp [not_isPrefixOf bare.first]), if_neg silent, statementLine_eq]
  rfl

/-- The blanks behind a line stand in front of its comment, and those behind the comment go. -/
theorem exists_trim_commented (single : '\n' ∉ note) :
    ∃ space kept, trim (commented line note) = trim line ++ silent space kept ∧ Remark space kept ∧
      (('/' :: kept).getLast? = some ',' → (trimEnd note).getLast? = some ',') := by
  obtain ⟨blanks, blank, cut⟩ := Chars.exists_blanks (trimStart line)
  obtain ⟨kept, ends⟩ : ∃ kept, trimEnd ('/' :: ' ' :: note) = '/' :: kept := Chars.exists_trimEnd_cons rfl _
  have text : trimStart (commented line note) = trim line ++ blanks ++ [' ', '/'] ++ '/' :: ' ' :: note := by
    rw [commented, Chars.trimStart_append (exists_visible_of_line bare.visible), cut]
    simp [trim]
  have behind : blanks <:+ line := by
    refine List.IsSuffix.trans ⟨trimEnd (trimStart line), cut.symm⟩ (List.dropWhile_suffix isBlank)
  have alone : '\n' ∉ kept := by
    obtain ⟨gone, -, text⟩ := Chars.exists_blanks ('/' :: ' ' :: note)
    rw [ends, List.cons_append, List.cons_eq_cons] at text
    intro member
    have inside : '\n' ∈ ' ' :: note := text.2 ▸ List.mem_append_left gone member
    simp [single] at inside
  refine ⟨blanks ++ [' '], kept, ?_, ⟨by simp, ?_, ?_, ?_, alone⟩, ?_⟩
  · rw [trim, text, Chars.trimEnd_behind _ rfl, ends]
    simp [silent]
  · exact List.forall_mem_append.mpr ⟨blank, List.forall_mem_singleton.mpr rfl⟩
  · refine List.forall_mem_append.mpr ⟨fun b member => bare.ascii b ?_, by simp⟩
    exact Chars.mem_rtakeWhile behind blank b member
  · simpa using fun member => bare.newline (behind.subset member)
  · rw [← ends]
    exact comma_of_silent

/-- With a silent comment behind it, the line has the comment where it had its mark. -/
theorem exists_step_commented (start : state.skip = 0) (fits : Note unit line rest note) :
    ∃ space kept, step unit state (commented line note) rest =
        (opening unit state line ++ [stated unit line ++ silent space kept], behind unit state line rest) ∧
      Remark space kept := by
  obtain ⟨init, c, whole, visible, -, plain⟩ := bare.exists_last
  obtain ⟨front, write⟩ := exists_statement visible plain
  obtain ⟨space, kept, shown, remark, final⟩ := bare.exists_trim_commented fits.newline
  have alike := alongside_commented bare.visible note
  have same : depth unit (commented line note) = depth unit line := by rw [depth, depth, alike.width]
  have last : (trim (commented line note)).getLast? = ('/' :: kept).getLast? := by
    have cut : trim (commented line note) = trim line ++ space ++ ['/'] ++ '/' :: kept := by
      rw [shown]
      simp [silent]
    rw [cut, List.getLast?_append_of_ne_nil _ (List.cons_ne_nil _ _)]
  have first : (trim (commented line note)).head? ≠ some '/' := by
    have other := bare.first
    rw [whole] at other
    rw [shown, whole]
    cases init <;> simpa using other
  have written : statement (trim (commented line note)) = statement (trim line) ++ silent space kept := by
    rw [shown, whole, List.append_assoc, List.singleton_append, write, write]
    simp
  rw [step, if_neg (by simp [start]), if_neg (by simp [alike.also])]
  dsimp only
  rw [if_neg (by simp [not_isPrefixOf first]), not_isPrefixOf first, Bool.false_or, same]
  by_cases comma : (trim (commented line note)).getLast? = some ','
  · obtain ⟨flat, other⟩ := fits.comma (final (last.symm.trans comma))
    refine ⟨space, kept, ?_, remark⟩
    rw [if_pos (decide_eq_true comma), behind, flat, shown, stated, statement_of_plain other]
    simp [opening, around]
  -- The mark, or none, is a part of the comment.
  · obtain ⟨mark, row⟩ := exists_statementLine (depth unit line) (opensBlock unit (depth unit line) rest)
      (trim (commented line note))
    have single : '\n' ∉ mark.chars := by cases mark <;> decide
    refine ⟨space, kept ++ mark.chars, ?_, remark.some, remark.blank, remark.ascii, remark.before, ?_⟩
    · rw [if_neg (by simp [comma]), row, written, behind, around, opening, stated]
      simp [silent]
    · simp [remark.single, single]

end Bare

theorem Note.single_commented (fits : Note unit line rest note) (single : Single line) :
    Single (commented line note) where
  nonempty := List.append_ne_nil_of_left_ne_nil single.nonempty _
  newline := by simp [commented, single.newline, fits.newline]
  plain := by
    have cut : commented line note = line ++ [' ', '/', '/'] ++ ' ' :: note := by simp [commented]
    rw [cut, List.getLast?_append_of_ne_nil _ (List.cons_ne_nil ' ' note), List.getLast?_cons]
    cases last : note.getLast? with
    | none => simp
    | some c => exact last ▸ fits.plain

end Line

section Behind

variable {unit : Nat} {state : State} {line : List Char} {below : List (List Char)}

/-- Nothing stands behind, or a line that ends the innermost block. -/
def EndsBlock (unit : Nat) (opened : List Nat) (below : List (List Char)) : Prop :=
  ∀ next ∈ below.find? fun line => !isBlankLine line, ∃ own ∈ opened.head?, depth unit next ≤ own

theorem flat_of_endsBlock (ends : EndsBlock unit (around unit state line) below) :
    opensBlock unit (depth unit line) below = false := by
  rw [opensBlock]
  cases found : below.find? fun line => !isBlankLine line with
  | none => rfl
  | some next =>
    obtain ⟨own, first, short⟩ := ends next found
    have outer : own < depth unit line := by
      have stops := List.head?_dropWhile_not (depth unit line ≤ ·) state.opened
      rw [← around, Option.mem_def.mp first] at stops
      simpa using stops
    exact decide_eq_false (Nat.not_lt.mpr (short.trans outer.le))

/-- First come the ends of the blocks that a line does not belong to. -/
theorem step_opening (unit : Nat) (below : List (List Char)) (visible : isBlankLine line = false)
    (start : state.skip = 0) :
    ∃ more behind, step unit state line below = (opening unit state line ++ more, behind) := by
  rw [step, if_neg (by simp [start]), if_neg (by simp [visible])]
  dsimp only
  split_ifs
  all_goals exact ⟨_, _, rfl⟩

/-- What is written next, if anything, is the end of a block. -/
theorem EndsBlock.head_convert (ends : EndsBlock unit state.opened below) (start : state.skip = 0) :
    ∀ row ∈ (convert unit state below).head?, ∃ own, row = closing own := by
  induction below generalizing state with
  | nil =>
    rw [convert_nil, List.head?_map]
    intro row member
    obtain ⟨own, -, rfl⟩ := Option.map_eq_some_iff.mp member
    exact ⟨own, rfl⟩
  | cons next below ih =>
    rw [convert_cons]
    cases visible : isBlankLine next with
    | true =>
      have later : EndsBlock unit { state with blanks := state.blanks + 1 }.opened below := by
        intro other found
        exact ends other (by rw [List.find?_cons_of_neg (by simp [visible])]; exact found)
      rw [step_blank start visible]
      exact ih later start
    | false =>
      obtain ⟨own, first, short⟩ := ends next (List.find?_cons_of_pos (by simp [visible]))
      obtain ⟨more, behind, writes⟩ := step_opening unit below visible start
      obtain ⟨others, whole⟩ := List.head?_eq_some_iff.mp first
      have closes : state.opened.takeWhile (depth unit next ≤ ·) = own :: others.takeWhile (depth unit next ≤ ·) := by
        rw [whole]
        exact List.takeWhile_cons_of_pos (decide_eq_true short)
      rw [writes, opening, closes]
      rintro row ⟨rfl⟩
      exact ⟨own, rfl⟩

end Behind

section Texts

variable {newline final : List Char}

theorem intercalate_around (newline : List Char) (before : List (List Char)) (row : List Char)
    (after : List (List Char)) : List.intercalate newline (before ++ row :: after) =
      before.flatMap (· ++ newline) ++ (row ++ after.flatMap (newline ++ ·)) := by
  induction before with
  | nil => exact Grammar.intercalate_cons newline row after
  | cons first before ih =>
    obtain ⟨next, others, whole⟩ := List.exists_cons_of_ne_nil (List.append_ne_nil_of_right_ne_nil before
      (List.cons_ne_nil row after))
    rw [List.cons_append, whole, List.intercalate_cons_cons, ← whole, ih, List.flatMap_cons]
    simp

/-- The end of a line is a line feed, and blanks in front of it that are no line feeds. -/
theorem exists_lead (choice : newline ∈ [['\n'], ['\r', '\n']]) :
    ∃ lead, newline = lead ++ ['\n'] ∧ (∀ b ∈ lead, isBlank b = true) ∧
      (∀ b ∈ (lead ++ ['\n']).head?, b.toNat < 128) ∧ '\n' ∉ lead := by
  simp only [List.mem_cons, List.not_mem_nil, or_false] at choice
  rcases choice with rfl | rfl
  · exact ⟨[], rfl, by simp, by simp, List.not_mem_nil⟩
  · exact ⟨['\r'], rfl, List.forall_mem_singleton.mpr rfl, by simp, by decide⟩

/-- The end of a block shows its brace first. -/
theorem dropWhile_closing (own : Nat) (more : List Char) :
    (closing own ++ more).dropWhile isBlank = '\x7d' :: more := by
  have spaces : ∀ b ∈ pad own, isBlank b = true := by
    intro b member
    rw [List.eq_of_mem_replicate member]
    rfl
  rw [closing, List.append_assoc, List.dropWhile_append_of_pos spaces]
  rfl

/-- What follows a row is the end of its line and blanks, or nothing more. Where a carriage return belongs to the
end of the line, it may stand in a comment as well. -/
theorem exists_lineEnd (rows : List (List Char)) (choice : newline ∈ [['\n'], ['\r', '\n']])
    (ended : final = [] ∨ final = newline) :
    ∃ gap lead twin tail, rows.flatMap (newline ++ ·) ++ final = gap ++ tail ∧ gap = lead ++ twin ∧ '\n' ∉ lead ∧
      LineEnd gap twin tail ∧ (∀ b ∈ gap.head?, b.toNat < 128) ∧
      ((∀ row ∈ rows.head?, ∃ own, row = closing own) → ∀ c ∈ tail.head?, c = '\x7d') := by
  obtain ⟨lead, rfl, blank, ascii, single⟩ := exists_lead choice
  have ends (more : List Char) : LineEnd (lead ++ '\n' :: more.takeWhile isBlank) ('\n' :: more.takeWhile isBlank)
      (more.dropWhile isBlank) := by
    refine .newline (List.forall_mem_append.mpr ⟨blank, fun b => List.mem_takeWhile_imp⟩) single ?_
    have stops := List.head?_dropWhile_not isBlank more
    cases behind : more.dropWhile isBlank with
    | nil => rfl
    | cons c tail =>
      rw [behind] at stops
      simpa [Lexer.headIs] using stops
  have first (more : List Char) : ∀ b ∈ (lead ++ '\n' :: more).head?, b.toNat < 128 := by
    cases lead <;> exact ascii
  have whole (more : List Char) :
      lead ++ ['\n'] ++ more = lead ++ '\n' :: more.takeWhile isBlank ++ more.dropWhile isBlank := by
    simp
  cases rows with
  | nil =>
    rcases ended with rfl | rfl
    · exact ⟨[], [], [], [], rfl, rfl, List.not_mem_nil, .none (by simp) List.not_mem_nil, by simp, by simp⟩
    · exact ⟨_, lead, _, _, (List.append_nil _).symm.trans (whole []), rfl, single, ends [], first _, by simp⟩
  | cons row rows =>
    let more := row ++ (rows.flatMap (lead ++ ['\n'] ++ ·) ++ final)
    have cut : (row :: rows).flatMap (lead ++ ['\n'] ++ ·) ++ final = lead ++ ['\n'] ++ more := by simp [more]
    refine ⟨_, lead, _, _, cut.trans (whole more), rfl, single, ends more, first _, fun closes => ?_⟩
    obtain ⟨own, rfl⟩ := closes row rfl
    rw [dropWhile_closing]
    rintro c ⟨rfl⟩
    rfl

end Texts

def newlineOf (text : List Char) : List Char := if Chars.hasInfix ['\r', '\n'] text then ['\r', '\n'] else ['\n']

def finalOf (text : List Char) : List Char := if text.getLast? = some '\n' then newlineOf text else []

theorem newlineOf_mem (text : List Char) : newlineOf text ∈ [['\n'], ['\r', '\n']] := by
  unfold newlineOf
  split <;> simp

theorem finalOf_eq_or (text : List Char) : finalOf text = [] ∨ finalOf text = newlineOf text := by
  unfold finalOf
  split <;> simp

/-- Texts that differ in one line have the same line ends. -/
theorem newlineOf_commented {head line other back : List Char} (single : Single line) (also : Single other)
    (starts : ∀ c ∈ head.getLast?, c = '\n') :
    newlineOf (head ++ (other ++ back)) = newlineOf (head ++ (line ++ back)) := by
  have same : Chars.hasInfix ['\r', '\n'] (head ++ (other ++ back)) =
      Chars.hasInfix ['\r', '\n'] (head ++ (line ++ back)) := by
    rw [Bool.eq_iff_iff, Chars.hasInfix_iff, Chars.hasInfix_iff, also.pair_infix starts, single.pair_infix starts]
  rw [newlineOf, newlineOf, same]

theorem finalOf_commented {head line other back : List Char} (single : Single line) (also : Single other)
    (starts : ∀ c ∈ head.getLast?, c = '\n') :
    finalOf (head ++ (other ++ back)) = finalOf (head ++ (line ++ back)) := by
  simp only [finalOf, single.getLast?_eq, also.getLast?_eq, newlineOf_commented single also starts]

theorem unitOf_alongside {line other : List Char} (alike : Alongside line other) (above below : List (List Char)) :
    unitOf (above ++ other :: below) = unitOf (above ++ line :: below) := by
  simp [unitOf, alike.visible, alike.also, alike.width]

theorem toScss_eq (text : List Char) : toScss (String.ofList text) = String.ofList
    (List.intercalate (newlineOf text) (convert (unitOf (Chars.lines text)) ⟨[], 0, 0⟩ (Chars.lines text)) ++
      finalOf text) := by
  rw [toScss, String.toList_ofList]
  rfl

section Sheets

variable {above below : List (List Char)} {head line back rest note : List Char} {row : List Token}

def reached (above : List (List Char)) (line : List Char) (below : List (List Char)) : List (List Char) × State :=
  passed (unitOf (above ++ line :: below)) (line :: below) ⟨[], 0, 0⟩ above

def unitAt (head line rest : List Char) : Nat := unitOf (Chars.lines head ++ line :: Chars.lines rest)

def markAt (head line rest : List Char) : Ending := ending (unitAt head line rest) line (Chars.lines rest)

def rowsBefore (above : List (List Char)) (line : List Char) (below : List (List Char)) : List (List Char) :=
  (reached above line below).1 ++ opening (unitOf (above ++ line :: below)) (reached above line below).2 line

def rowsBehind (above : List (List Char)) (line : List Char) (below : List (List Char)) : List (List Char) :=
  let unit := unitOf (above ++ line :: below)
  convert unit (behind unit (reached above line below).2 line below) below

/-- Around the row of a line stand the others. -/
theorem converted_eq {other row : List Char}
    (written : step (unitOf (above ++ line :: below)) (reached above line below).2 other below =
      (opening (unitOf (above ++ line :: below)) (reached above line below).2 line ++ [row],
        behind (unitOf (above ++ line :: below)) (reached above line below).2 line below)) :
    (reached above line below).1 ++
        ((step (unitOf (above ++ line :: below)) (reached above line below).2 other below).1 ++
          convert (unitOf (above ++ line :: below))
            (step (unitOf (above ++ line :: below)) (reached above line below).2 other below).2 below) =
      rowsBefore above line below ++ row :: rowsBehind above line below := by
  rw [written]
  simp [rowsBefore, rowsBehind]

def sheet (head line back : List Char) : String := String.ofList (head ++ (line ++ back))

/-- The converted text up to the end of the statement of a line, where `rest` stands behind the end of the line. -/
def upTo (head line back rest : List Char) : List Char :=
  (rowsBefore (Chars.lines head) line (Chars.lines rest)).flatMap (· ++ newlineOf (head ++ (line ++ back))) ++
    stated (unitAt head line rest) line

def downFrom (head line back rest : List Char) : List Char :=
  (rowsBehind (Chars.lines head) line (Chars.lines rest)).flatMap (newlineOf (head ++ (line ++ back)) ++ ·) ++
    finalOf (head ++ (line ++ back))

/-- A line with a statement stands here in a text. -/
structure Stands (head line back rest : List Char) : Prop where
  bare : Bare line
  starts : ∀ c ∈ head.getLast?, c = '\n'
  broken : Broken back rest
  /-- The line is in no comment. -/
  outside : (reached (Chars.lines head) line (Chars.lines rest)).2.skip = 0

namespace Stands

variable (stands : Stands head line back rest)

include stands

theorem lines_eq : Chars.lines (head ++ (line ++ back)) = Chars.lines head ++ line :: Chars.lines rest := by
  rw [Chars.lines_behind stands.starts, stands.bare.single.lines_eq stands.broken]

theorem toScss_eq : toScss (sheet head line back) = String.ofList (upTo head line back rest ++
    ((markAt head line rest).chars ++ downFrom head line back rest)) := by
  have rows := converted_eq (stands.bare.step_eq stands.outside (Chars.lines rest))
  rw [sheet, Indented.toScss_eq, stands.lines_eq, convert_append, ← reached, convert_cons, rows, intercalate_around]
  simp [upTo, downFrom, unitAt, markAt]

/-- With a silent comment behind the line, its row has the comment where it had its mark. -/
theorem exists_commented (fits : Note (unitAt head line rest) line (Chars.lines rest) note) :
    ∃ space kept, Remark space kept ∧ toScss (sheet head (commented line note) back) =
      String.ofList (upTo head line back rest ++ (silent space kept ++ downFrom head line back rest)) := by
  obtain ⟨bare, starts, broken, outside⟩ := stands
  have also := fits.single_commented bare.single
  have lines : Chars.lines (head ++ (commented line note ++ back)) =
      Chars.lines head ++ commented line note :: Chars.lines rest := by
    rw [Chars.lines_behind starts, also.lines_eq broken]
  have alike := alongside_commented bare.visible note
  obtain ⟨space, kept, written, remark⟩ := bare.exists_step_commented outside fits
  refine ⟨space, kept, remark, ?_⟩
  have rows := converted_eq written
  rw [sheet, Indented.toScss_eq, lines, unitOf_alongside alike, convert_append, passed_alongside alike outside,
    ← reached, convert_cons, rows, newlineOf_commented bare.single also starts,
    finalOf_commented bare.single also starts, intercalate_around]
  simp [upTo, downFrom, unitAt]

end Stands

def LastOfBlock (head line rest : List Char) : Prop :=
  EndsBlock (unitAt head line rest)
    (around (unitAt head line rest) (reached (Chars.lines head) line (Chars.lines rest)).2 line) (Chars.lines rest)

/-- The row behind is then the end of a block. -/
theorem LastOfBlock.head_rowsBehind (ends : LastOfBlock head line rest) :
    ∀ row ∈ (rowsBehind (Chars.lines head) line (Chars.lines rest)).head?, ∃ own, row = closing own := by
  have flat := flat_of_endsBlock ends
  rw [unitAt] at flat
  have opened : (behind (unitAt head line rest) (reached (Chars.lines head) line (Chars.lines rest)).2 line
      (Chars.lines rest)).opened =
        around (unitAt head line rest) (reached (Chars.lines head) line (Chars.lines rest)).2 line := by
    simp [behind, flat, unitAt]
  refine EndsBlock.head_convert ?_ rfl
  rw [← unitAt, opened]
  exact ends

namespace Stands

variable (stands : Stands head line back rest) (fits : Note (unitAt head line rest) line (Chars.lines rest) note)

include stands in
theorem getLast?_upTo : (upTo head line back rest).getLast? = (statement (trim line)).getLast? :=
  stands.bare.getLast?_stated _ _

include stands in
theorem last_upTo : ∀ c ∈ (upTo head line back rest).getLast?, isBlank c = false ∧ c ≠ '/' :=
  stands.getLast?_upTo ▸ stands.bare.last_statement

include stands fits

/-- The end of the line is the same in both texts, apart from the mark and the comment. -/
theorem exists_lineEnd : ∃ space kept gap twin tail, Remark space kept ∧ LineEnd gap twin tail ∧
    (∀ b ∈ gap.head?, b.toNat < 128) ∧ (LastOfBlock head line rest → ∀ c ∈ tail.head?, c = '\x7d') ∧
    downFrom head line back rest = gap ++ tail ∧ toScss (sheet head (commented line note) back) =
      String.ofList (upTo head line back rest ++ (silent space kept ++ (twin ++ tail))) := by
  obtain ⟨space, kept, remark, text⟩ := stands.exists_commented fits
  obtain ⟨gap, lead, twin, tail, whole, same, clean, ends, ascii, closes⟩ :=
    Indented.exists_lineEnd (rowsBehind (Chars.lines head) line (Chars.lines rest)) (newlineOf_mem _)
      (finalOf_eq_or (head ++ (line ++ back)))
  have single : '\n' ∉ kept ++ lead := by simp [remark.single, clean]
  refine ⟨space, kept ++ lead, gap, twin, tail, ⟨remark.some, remark.blank, remark.ascii, remark.before, single⟩, ends,
    ascii, fun last => closes last.head_rowsBehind, whole, ?_⟩
  rw [text, downFrom, whole, same]
  simp [silent]

variable (cut : CutInto (upTo head line back rest) row) (unprefixed : ¬ PrefixOpen row)

include cut unprefixed

/-- The comment is read as a blank in place of the mark. -/
theorem stylesheet_commented : (Grammar.stylesheet (toScss (sheet head (commented line note) back))).toOption =
    (Grammar.stylesheet
      (String.ofList (upTo head line back rest ++ ' ' :: downFrom head line back rest))).toOption := by
  obtain ⟨space, kept, gap, twin, tail, remark, ends, -, -, whole, text⟩ := stands.exists_lineEnd fits
  rw [text, whole]
  exact (Grammar.stylesheet_remarked cut stands.last_upTo unprefixed remark ends.space (by simp) (by simp)).symm

/-- Nothing is lost with a mark that is not there, nor with the semicolon at the end of a block. -/
theorem stylesheet_kept (spare : markAt head line rest = .none ∨
    markAt head line rest = .semicolon ∧ LastOfBlock head line rest ∧ Complete row) :
    (Grammar.stylesheet (toScss (sheet head line back))).toOption =
      (Grammar.stylesheet (toScss (sheet head (commented line note) back))).toOption := by
  obtain ⟨space, kept, gap, twin, tail, remark, ends, ascii, closes, whole, text⟩ := stands.exists_lineEnd fits
  have last := stands.last_upTo
  rw [text, stands.toScss_eq, whole]
  rcases spare with none | ⟨semicolon, final, complete⟩
  · have ended := getLast?_of_ending_none none
    rw [none, Ending.chars, List.nil_append]
    exact Grammar.stylesheet_remarked cut last unprefixed remark ends ascii fun _ => stands.getLast?_upTo ▸ ended
  · have unended := getLast?_of_ending_semicolon semicolon
    rw [semicolon, Ending.chars, List.singleton_append]
    exact Grammar.stylesheet_without_semicolon cut last unprefixed remark ends (stands.getLast?_upTo ▸ unended) complete
      (closes final)

end Stands

end Sheets

end Indented

namespace Compiler

open Indented

/-- Texts that are read alike are compiled alike. -/
theorem toOption_result_compile {compiler : Compiler} {file first second : String} {dialect other : Dialect}
    (same : (Grammar.stylesheet (dialect.toScss first)).toOption =
      (Grammar.stylesheet (other.toScss second)).toOption) :
    (compiler.compile ⟨file, first⟩ dialect).result.toOption =
      (compiler.compile ⟨file, second⟩ other).result.toOption := by
  unfold compile
  cases read : Grammar.stylesheet (dialect.toScss first) <;>
    cases readTwin : Grammar.stylesheet (other.toScss second) <;> rw [read, readTwin] at same
  · rfl
  · cases same
  · cases same
  · cases same
    dsimp only
    generalize Eval.stylesheet compiler.setup _ _ = run
    obtain ⟨result, machine⟩ := run
    cases result <;> rfl

/-- A silent comment behind a line takes its mark: the text compiles as with a blank in place of the mark. So it
compiles as before if the line has no mark, or if the mark is the semicolon of a statement that is complete without
it, at the end of its block or of the text. -/
theorem comment_takes_mark (compiler : Compiler) (file : String) {head line back rest note : List Char}
    {row : List Token} (stands : Stands head line back rest)
    (fits : Note (unitAt head line rest) line (Chars.lines rest) note)
    (cut : Lexer.CutInto (upTo head line back rest) row) (unprefixed : ¬ PrefixOpen row) :
    let plain := (compiler.compile ⟨file, sheet head line back⟩ .indented).result.toOption
    let noted := (compiler.compile ⟨file, sheet head (commented line note) back⟩ .indented).result.toOption
    let written (mark : List Char) := String.ofList (upTo head line back rest ++ (mark ++ downFrom head line back rest))
    toScss (sheet head line back) = written (markAt head line rest).chars ∧
      noted = (compiler.compile ⟨file, written [' ']⟩ .scss).result.toOption ∧
      (markAt head line rest = .none ∨
        markAt head line rest = .semicolon ∧ LastOfBlock head line rest ∧ Complete row → noted = plain) :=
  ⟨stands.toScss_eq, toOption_result_compile (stands.stylesheet_commented fits cut unprefixed),
    fun spare => toOption_result_compile (stands.stylesheet_kept fits cut unprefixed spare).symm⟩

/-- Two blocks with one declaration each: the comment stands behind the first one. -/
theorem comment_takes_mark_nested :
    let compiler := Compiler.create {} (Loader.memory [])
    (compiler.compileString ".a\n  b: c // note\nd\n  e: f\n" .indented).result.toOption =
      (compiler.compileString ".a\n  b: c\nd\n  e: f\n" .indented).result.toOption := by
  intro compiler
  let head := ".a\n".toList
  let line := "  b: c".toList
  let rest := "d\n  e: f\n".toList
  have stands : Stands head line ('\n' :: rest) rest :=
    { bare := ⟨by decide, by decide, by decide, by decide, by decide, by decide, by rintro b ⟨⟩⟩
      starts := by
        rintro c ⟨rfl⟩
        rfl
      broken := .newline rest
      outside := by decide }
  have fits : Note (unitAt head line rest) line (Chars.lines rest) "note".toList :=
    ⟨by decide, by decide, fun comma => absurd comma (by decide)⟩
  have front : upTo head line ('\n' :: rest) rest = ".a \x7b\n  b: c".toList := by decide +kernel
  let tokens (next : Char) := (Lexer.tokensAt .start (".a \x7b\n  b: c".toList ++ [next])).toOption.getD []
  have cut : Lexer.CutInto (upTo head line ('\n' :: rest) rest) ((tokens ';').take 9) := by
    rw [front]
    refine ⟨by decide +kernel, fun next among => ⟨(tokens next).drop 9, ?_⟩⟩
    simp only [List.mem_cons, List.not_mem_nil, or_false] at among
    rcases among with rfl | rfl <;> decide +kernel
  have complete : Complete ((tokens ';').take 9) := ⟨by decide +kernel, by decide +kernel⟩
  have unprefixed : ¬ PrefixOpen ((tokens ';').take 9) := unprefixed_of_none (by decide +kernel)
  have last : LastOfBlock head line rest := by
    rintro next ⟨rfl⟩
    exact ⟨0, by decide, by decide⟩
  have semicolon : markAt head line rest = .semicolon := by decide +kernel
  have text : sheet head line ('\n' :: rest) = ".a\n  b: c\nd\n  e: f\n" := by decide
  have twin : sheet head (commented line "note".toList) ('\n' :: rest) = ".a\n  b: c // note\nd\n  e: f\n" := by decide
  have same := (comment_takes_mark compiler compiler.setup.options.sourceFile stands fits cut unprefixed).2.2
    (.inr ⟨semicolon, last, complete⟩)
  rw [text, twin] at same
  exact same

end Compiler

end Scss
