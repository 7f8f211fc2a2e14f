import Scss.Proofs.Cutting.Parts
import Scss.Proofs.Indentation
import Scss.Proofs.SourceMaps.Tagged

/-! Selector lists in finished text. A row that is the head of a rule becomes one row for each selector, and
none of these rows is split again: the last one has no comma left that cuts, the others have no brace. -/
namespace Scss

namespace Chars

/-- Induction over the rows of a text: the last one, and one with a line feed in front of more text. -/
theorem rows_induction {motive : List Char → Prop} (last : ∀ row, '\n' ∉ row → motive row)
    (row : ∀ row rest, '\n' ∉ row → motive rest → motive (row ++ '\n' :: rest)) (text : List Char) :
    motive text := by
  induction size : text.length using Nat.strong_induction_on generalizing text with
  | _ size ih =>
    by_cases broken : '\n' ∈ text
    · obtain ⟨first, rest, rfl, single⟩ := List.eq_append_cons_of_mem broken
      refine row first rest single (ih rest.length ?_ rest rfl)
      rw [← size, List.length_append, List.length_cons]
      omega
    · exact last text broken

end Chars

namespace SelectorList

open Chars (isBlank trim visible splitTopLevel rows_induction)
open Enclosure (outside)

/-- The head of a rule with a comma in it: an indentation, selectors, blanks or none, and a brace. The first
comma that counts stands behind some other character. -/
structure Header (row indent selectors : List Char) : Prop where
  whole : ∃ gap, (∀ b ∈ gap, isBlank b = true) ∧ row = indent ++ selectors ++ gap ++ ['\x7b']
  indented : ∀ b ∈ indent, isBlank b = true
  flush : Chars.Flush selectors
  first : selectors.head? ≠ some '@'
  comma : ',' ∈ selectors.tail
  braceless : '\x7b' ∉ selectors ∧ '\x7d' ∉ selectors

section Header

variable {row indent selectors : List Char}

theorem Header.exists_cons (header : Header row indent selectors) :
    ∃ c rest, selectors = c :: rest ∧ isBlank c = false ∧ c ≠ '@' ∧ ',' ∈ rest := by
  obtain ⟨-, -, flush, first, comma, -⟩ := header
  cases selectors with
  | nil => cases comma
  | cons c rest => exact ⟨c, rest, rfl, flush.head c rfl, fun same => first (congrArg some same), comma⟩

theorem header?_of_header (header : Header row indent selectors) : header? row = some (indent, selectors) := by
  obtain ⟨c, rest, rfl, shown, sign, comma⟩ := header.exists_cons
  obtain ⟨⟨gap, blank, rfl⟩, indented, flush, -, -, opening, closing⟩ := header
  have start : (indent ++ (c :: rest) ++ gap ++ ['\x7b']).takeWhile isBlank = indent := by
    rw [List.append_assoc, List.append_assoc, List.takeWhile_append_of_pos indented, List.cons_append,
      List.takeWhile_cons_of_neg (by simp [shown]), List.append_nil]
  have whole : indent ++ (c :: rest) ++ gap ++ ['\x7b'] = indent ++ (c :: (rest ++ gap) ++ ['\x7b']) := by simp
  have kept : Chars.trimEnd (c :: (rest ++ gap)) = c :: rest := by
    rw [← List.cons_append, Chars.trimEnd_blanks blank, Chars.trimEnd_of_last flush.last]
  have absent {d : Char} (visible : isBlank d = false) (other : d ∉ c :: rest) : d ∉ c :: (rest ++ gap) := by
    rw [← List.cons_append, List.mem_append, not_or]
    exact ⟨other, fun member => by simp [blank d member] at visible⟩
  unfold header?
  dsimp only
  rw [start, whole, List.drop_left, List.dropLast_concat, List.getLast?_concat, kept]
  simp [sign, comma, absent (d := '\x7b') rfl opening, absent (d := '\x7d') rfl closing]

theorem header_of_header? (found : header? row = some (indent, selectors)) : Header row indent selectors := by
  unfold header? at found
  dsimp only at found
  split at found
  · rename_i proper
    obtain ⟨rfl, rfl⟩ := Prod.mk.inj (Option.some.inj found)
    simp only [Bool.and_eq_true, decide_eq_true_eq, Bool.not_eq_true', List.contains_eq_mem,
      decide_eq_false_iff_not] at proper
    obtain ⟨⟨⟨⟨ends, sign⟩, comma⟩, opening⟩, closing⟩ := proper
    have behind : row.drop (row.takeWhile isBlank).length = row.dropWhile isBlank :=
      List.append_cancel_left ((List.prefix_iff_eq_append.mp (List.takeWhile_prefix _)).trans
        List.takeWhile_append_dropWhile.symm)
    rw [behind] at ends sign comma opening closing ⊢
    have whole := List.dropLast_append_getLast? _ ends
    have start := List.head?_dropWhile_not isBlank row
    rw [← whole] at start
    generalize (row.dropWhile isBlank).dropLast = head at *
    obtain ⟨c, rest, rfl⟩ : ∃ c rest, head = c :: rest := by
      cases head with
      | nil => cases comma
      | cons c rest => exact ⟨c, rest, rfl⟩
    have shown : isBlank c = false := by simpa using start
    obtain ⟨kept, same⟩ := Chars.exists_trimEnd_cons shown rest
    obtain ⟨gap, blank, cut⟩ := Chars.exists_blanks (c :: rest)
    have fewer {d : Char} (member : d ∈ Chars.trimEnd (c :: rest)) : d ∈ c :: rest := by
      rw [cut]
      exact List.mem_append_left gap member
    refine ⟨⟨gap, blank, ?_⟩, fun b => List.mem_takeWhile_imp, ⟨?_, Chars.last_trimEnd _⟩, ?_, ?_, ?_⟩
    · rw [List.append_assoc (row.takeWhile isBlank), ← cut, List.append_assoc, whole,
        List.takeWhile_append_dropWhile]
    · rw [same]
      exact fun d first => Option.some.inj first ▸ shown
    · rwa [same]
    · rw [same, List.cons_append] at cut
      rw [List.tail_cons, (List.cons.inj cut).2, List.mem_append] at comma
      rw [same]
      exact comma.resolve_right fun member => absurd (blank ',' member) (by decide)
    · exact ⟨fun member => opening (fewer member), fun member => closing (fewer member)⟩
  · cases found

theorem header?_eq_some_iff : header? row = some (indent, selectors) ↔ Header row indent selectors :=
  ⟨header_of_header?, header?_of_header⟩

/-- What the indentation and the selectors are can be seen from the row. -/
theorem Header.eq_of_row {part space : List Char} (header : Header row indent selectors)
    (spaced : ∀ b ∈ space, isBlank b = true) (flush : Chars.Flush part)
    (same : row = space ++ part ++ [' ', '\x7b']) : indent = space ∧ selectors = part := by
  obtain ⟨c, rest, some, shown, -, -⟩ := header.exists_cons
  obtain ⟨⟨gap, blank, whole⟩, indented, own, -, -, -⟩ := header
  have inner : indent ++ selectors ++ gap = space ++ part ++ [' '] := by
    have ends : indent ++ selectors ++ gap ++ ['\x7b'] = space ++ part ++ [' '] ++ ['\x7b'] := by
      simpa using whole.symm.trans same
    exact (List.append_inj' ends rfl).1
  have trimmed (space part gap : List Char) (spaced : ∀ b ∈ space, isBlank b = true)
      (flush : Chars.Flush part) (blank : ∀ b ∈ gap, isBlank b = true) : trim (space ++ part ++ gap) = part := by
    rw [Chars.trim_blanks blank, trim, Chars.trimStart, List.dropWhile_append_of_pos spaced]
    exact flush.trim_eq
  have selected : selectors = part := by
    rw [← trimmed indent selectors gap indented own blank, inner,
      trimmed space part [' '] spaced flush (List.forall_mem_singleton.mpr rfl)]
  refine ⟨?_, selected⟩
  have start (space gap : List Char) (spaced : ∀ b ∈ space, isBlank b = true) :
      (space ++ selectors ++ gap).takeWhile isBlank = space := by
    rw [List.append_assoc, List.takeWhile_append_of_pos spaced, some, List.cons_append,
      List.takeWhile_cons_of_neg (by simp [shown]), List.append_nil]
  rw [← start indent gap indented, inner, ← selected, start space [' '] spaced]

theorem splitLine_of_header (header : Header row indent selectors) :
    splitLine row = indent ++ List.intercalate (",\n".toList ++ indent) (splitTopLevel ',' selectors) ++
      [' ', '\x7b'] := by
  rw [splitLine, header?_of_header header]
  rfl

theorem splitLine_of_other (other : ∀ indent selectors, ¬ Header row indent selectors) :
    splitLine row = row := by
  cases found : header? row with
  | none => rw [splitLine, found]
  | some parts => exact absurd (header_of_header? found) (other _ _)

/-- A head with one selector stays as it is. -/
theorem splitLine_alone {space part : List Char} (spaced : ∀ b ∈ space, isBlank b = true)
    (flush : Chars.Flush part) (alone : splitTopLevel ',' part = [part]) :
    splitLine (space ++ part ++ [' ', '\x7b']) = space ++ part ++ [' ', '\x7b'] := by
  by_cases header : ∃ indent selectors, Header (space ++ part ++ [' ', '\x7b']) indent selectors
  · obtain ⟨indent, selectors, header⟩ := header
    obtain ⟨rfl, rfl⟩ := header.eq_of_row spaced flush rfl
    rw [splitLine_of_header header, alone, List.intercalate_singleton]
  · exact splitLine_of_other fun indent selectors found => header ⟨indent, selectors, found⟩

/-- The head of an at-rule is none of a style rule. -/
theorem not_header_at {space rest : List Char} (spaced : ∀ b ∈ space, isBlank b = true) :
    ¬ Header (space ++ '@' :: rest) indent selectors := by
  intro header
  obtain ⟨c, more, rfl, shown, sign, -⟩ := header.exists_cons
  obtain ⟨⟨gap, -, whole⟩, indented, -⟩ := header
  rw [List.append_assoc, List.append_assoc, List.cons_append] at whole
  have same := congrArg (List.dropWhile isBlank) whole
  rw [List.dropWhile_append_of_pos spaced, List.dropWhile_append_of_pos indented,
    List.dropWhile_cons_of_neg (by decide), List.dropWhile_cons_of_neg (by simp [shown])] at same
  exact sign (List.cons.inj same).1.symm

/-- Splitting a row writes no other character than blanks, and drops none. -/
theorem visible_splitLine (row : List Char) : visible (splitLine row) = visible row := by
  by_cases header : ∃ indent selectors, Header row indent selectors
  · obtain ⟨indent, selectors, header⟩ := header
    have joint : visible (",\n".toList ++ indent) = visible [','] := by
      rw [Chars.visible_append, Chars.visible_blanks header.indented]
      rfl
    rw [splitLine_of_header header]
    obtain ⟨gap, blank, rfl⟩ := header.whole
    simp only [Chars.visible_append, Chars.visible_intercalate_splitTopLevel joint, Chars.visible_blanks blank,
      List.append_nil]
    rfl
  · rw [splitLine_of_other fun indent selectors found => header ⟨indent, selectors, found⟩]

end Header

section Settled

variable {row text tail : List Char}

theorem splitChars_last (single : '\n' ∉ row) : splitChars row = splitLine row := by
  by_cases none : row = []
  · subst none
    rfl
  · rw [splitChars, Chars.lineCut_of_single single none, List.flatMap_singleton]
    rfl

theorem visible_splitChars (text : List Char) : visible (splitChars text) = visible text := by
  induction text using rows_induction with
  | last row single => rw [splitChars_last single, visible_splitLine]
  | row row rest single ih =>
    have newline (front back : List Char) : visible (front ++ '\n' :: back) = visible front ++ visible back := by
      rw [Chars.visible_append]
      rfl
    rw [splitChars_row single, newline, newline, visible_splitLine, ih]

/-- No row of the text is changed by splitting. -/
def Settled (text : List Char) : Prop := ∀ line ∈ Chars.lineCut text, splitLine line.body = line.body

theorem Settled.splitChars_eq (settled : Settled text) : splitChars text = text := by
  have same : ∀ line ∈ Chars.lineCut text,
      Chars.Line.whole { line with body := splitLine line.body } = line.whole :=
    fun line member => by rw [settled line member]
  rw [splitChars, List.flatMap_congr same, Chars.flatMap_whole_lineCut]

theorem settled_nil : Settled [] := nofun

theorem settled_row (single : '\n' ∉ row) (rest : List Char) :
    Settled (row ++ '\n' :: rest) ↔ splitLine row = row ∧ Settled rest := by
  rw [Settled, Chars.lineCut_append_newline single, List.forall_mem_cons]
  rfl

theorem settled_last (single : '\n' ∉ row) : Settled row ↔ splitLine row = row := by
  by_cases none : row = []
  · subst none
    exact iff_of_true nofun rfl
  · rw [Settled, Chars.lineCut_of_single single none, List.forall_mem_singleton]

def Ends (tail : List Char) : Prop := tail = [] ∨ ∃ rest, tail = '\n' :: rest

theorem Settled.behind (settled : Settled tail) (ends : Ends tail) (single : '\n' ∉ row)
    (same : splitLine row = row) : Settled (row ++ tail) := by
  rcases ends with rfl | ⟨rest, rfl⟩
  · rw [List.append_nil]
    exact (settled_last single).mpr same
  · exact (settled_row single rest).mpr ⟨same, ((settled_row List.not_mem_nil rest).mp settled).2⟩

/-- One row for each selector, as it stands behind a split. -/
theorem settled_parts {indent : List Char} {parts : List (List Char)} (spaced : ∀ b ∈ indent, isBlank b = true)
    (unbroken : '\n' ∉ indent) (some : parts ≠ [])
    (each : ∀ part ∈ parts, Chars.Flush part ∧ splitTopLevel ',' part = [part] ∧ '\n' ∉ part)
    (settled : Settled tail) (ends : Ends tail) :
    Settled (indent ++ List.intercalate (",\n".toList ++ indent) parts ++ [' ', '\x7b'] ++ tail) := by
  induction parts with
  | nil => exact absurd rfl some
  | cons part rest ih =>
    obtain ⟨⟨flush, alone, single⟩, others⟩ := List.forall_mem_cons.mp each
    cases rest with
    | nil =>
      rw [List.intercalate_singleton]
      exact settled.behind ends (by simp [unbroken, single]) (splitLine_alone spaced flush alone)
    | cons second rest =>
      have rows : indent ++ List.intercalate (",\n".toList ++ indent) (part :: second :: rest) ++
          [' ', '\x7b'] ++ tail = indent ++ part ++ [','] ++ '\n' :: (indent ++
            List.intercalate (",\n".toList ++ indent) (second :: rest) ++ [' ', '\x7b'] ++ tail) := by
        rw [List.intercalate_cons_cons]
        simp
      rw [rows, settled_row (by simp [unbroken, single])]
      exact ⟨splitLine_comma _, ih (List.cons_ne_nil _ _) others⟩

theorem settled_splitLine (single : '\n' ∉ row) (settled : Settled tail) (ends : Ends tail) :
    Settled (splitLine row ++ tail) := by
  by_cases header : ∃ indent selectors, Header row indent selectors
  · obtain ⟨indent, selectors, header⟩ := header
    rw [splitLine_of_header header]
    obtain ⟨gap, -, rfl⟩ := header.whole
    simp only [List.mem_append, not_or] at single
    refine settled_parts header.indented single.1.1.1 ?_ ?_ settled ends
    · obtain ⟨first, others, same⟩ := Chars.exists_topLevelPieces ',' outside selectors
      rw [splitTopLevel, same]
      exact List.cons_ne_nil _ _
    · intro part member
      have unbroken : Chars.Free (· == '\n') selectors := fun c inside =>
        beq_eq_false_iff_ne.mpr (ne_of_mem_of_not_mem inside single.1.1.2)
      refine ⟨?_, Chars.splitTopLevel_part member, fun broken => ?_⟩
      · obtain ⟨piece, -, rfl⟩ := List.mem_map.mp member
        exact Chars.flush_trim piece
      · simpa using unbroken.splitTopLevel ',' part member '\n' broken
  · have same := splitLine_of_other fun indent selectors found => header ⟨indent, selectors, found⟩
    rw [same]
    exact settled.behind ends single same

theorem settled_splitChars (text : List Char) : Settled (splitChars text) := by
  induction text using rows_induction with
  | last row single =>
    have settled : Settled (splitLine row ++ []) := settled_splitLine single settled_nil (.inl rfl)
    rwa [List.append_nil, ← splitChars_last single] at settled
  | row row rest single ih =>
    rw [splitChars_row single]
    have behind : Settled ('\n' :: splitChars rest) := (settled_row List.not_mem_nil _).mpr ⟨rfl, ih⟩
    exact settled_splitLine single behind (.inr ⟨_, rfl⟩)

theorem Settled.of_whole {before : List Char} (whole : Chars.Whole before) (settled : Settled (before ++ text)) :
    Settled text := by
  rcases whole with rfl | ⟨rows, rfl⟩
  · exact settled
  · intro line member
    rw [List.append_assoc, List.singleton_append, Settled, lineCut_append, List.forall_mem_append] at settled
    exact settled.2 line member

theorem Settled.append {rest : List Char} (first : Settled (text ++ ['\n'])) (second : Settled rest) :
    Settled (text ++ '\n' :: rest) := by
  rw [Settled, lineCut_append, List.forall_mem_append]
  exact ⟨first, second⟩

/-- Line feeds at the end do not matter. -/
theorem Settled.ended {newlines : List Char} (only : ∀ c ∈ newlines, c = '\n')
    (settled : Settled (text ++ newlines)) : Settled (text ++ ['\n']) := by
  have ended {row : List Char} (single : '\n' ∉ row) (same : splitLine row = row) : Settled (row ++ ['\n']) :=
    (settled_row single []).mpr ⟨same, settled_nil⟩
  induction text using rows_induction with
  | last row single =>
    cases newlines with
    | nil => exact ended single ((settled_last single).mp (by simpa using settled))
    | cons c more =>
      obtain rfl := only c List.mem_cons_self
      exact ended single ((settled_row single more).mp settled).1
  | row row rest single ih =>
    rw [List.append_assoc, List.cons_append, settled_row single] at settled ⊢
    exact ⟨settled.1, ih settled.2⟩

/-- A row of a text, with what stands before it and behind it. -/
structure RowAt (text before row tail : List Char) : Prop where
  whole : text = before ++ row ++ tail
  starts : Chars.Whole before
  single : '\n' ∉ row
  ends : Ends tail

theorem splitChars_rowAt {before : List Char} (place : RowAt text before row tail) :
    splitChars text = splitChars before ++ splitLine row ++ splitChars tail := by
  obtain ⟨rfl, starts, single, ends⟩ := place
  rw [List.append_assoc, splitChars_whole starts, List.append_assoc]
  rcases ends with rfl | ⟨rest, rfl⟩
  · rw [List.append_nil, splitChars_last single]
    simp [splitChars, Chars.lineCut]
  · have newline := splitChars_row List.not_mem_nil rest
    rw [List.nil_append] at newline
    rw [splitChars_row single, newline]
    rfl

theorem Settled.rowAt {before : List Char} (settled : Settled text) (place : RowAt text before row tail) :
    splitLine row = row := by
  obtain ⟨rfl, starts, single, ends⟩ := place
  rw [List.append_assoc] at settled
  have behind := settled.of_whole starts
  rcases ends with rfl | ⟨rest, rfl⟩
  · exact (settled_last single).mp (by simpa using behind)
  · exact ((settled_row single rest).mp behind).1

/-- A head that splitting leaves alone has no comma that stands outside of quotes and brackets. -/
theorem Header.uncut {indent selectors : List Char} (header : Header row indent selectors) (single : '\n' ∉ row)
    (same : splitLine row = row) {front rest : List Char} (comma : selectors = front ++ ',' :: rest) :
    outside.after front ≠ outside := by
  intro top
  obtain ⟨first, others, pieces⟩ := Chars.exists_topLevelPieces ',' outside selectors
  have alone : others = [] := by
    cases others with
    | nil => rfl
    | cons second others =>
      rw [splitLine_of_header header, splitTopLevel, pieces, List.map_cons, List.map_cons,
        List.intercalate_cons_cons] at same
      exact absurd (by simp [← same]) single
  have whole := Chars.intercalate_topLevelPieces ',' outside selectors
  rw [pieces, alone, List.intercalate_singleton] at whole
  have uncut : Chars.Uncut ',' outside (front ++ ',' :: rest) := by
    rw [← comma, Chars.Uncut, pieces, alone, whole]
  have cuts := (Chars.uncut_cons.mp uncut.behind).1
  rw [top] at cuts
  exact absurd cuts (by decide)

theorem split_append {before : String} (whole : Text.Whole before) (tail : String) :
    split (before ++ tail) = split before ++ split tail := by
  apply String.toList_injective
  simp only [split, String.toList_append, String.toList_ofList, splitChars_whole whole]

/-- The block of an at-rule around settled rows is settled. -/
theorem settled_wrapBlock {head contents : String} (single : '\n' ∉ head.toList)
    (settled : Settled contents.toList) (level : Nat) :
    Settled (wrapBlock ("@" ++ head) contents level).toList := by
  have spaces : ∀ c ∈ (indent level).toList, c = ' ' := fun c member =>
    List.eq_of_mem_replicate (by simpa only [indent, String.toList_ofList] using member)
  have blank : ∀ c ∈ (indent level).toList, isBlank c = true := fun c member => spaces c member ▸ rfl
  have absent {c : Char} (other : c ≠ ' ') : c ∉ (indent level).toList := fun member => other (spaces c member)
  have kept : Settled ((dropNewlines contents).toList ++ ['\n']) := by
    have only : ∀ c ∈ contents.toList.rtakeWhile (· = '\n'), c = '\n' := fun c member => by
      simpa using List.mem_rtakeWhile_imp member
    refine Settled.ended only ?_
    rw [dropNewlines, String.toList_ofList]
    exact (List.rdropWhile_append_rtakeWhile (p := (· = '\n')) (l := contents.toList)).symm ▸ settled
  have closing : Settled ((indent level).toList ++ ['\x7d'] ++ ['\n']) :=
    (settled_row (by simp [absent]) []).mpr ⟨splitLine_of_unopened (by simp [absent]), settled_nil⟩
  have opening : splitLine ((indent level).toList ++ '@' :: (head.toList ++ [' ', '\x7b'])) =
      (indent level).toList ++ '@' :: (head.toList ++ [' ', '\x7b']) :=
    splitLine_of_other fun _ _ => not_header_at blank
  have whole : (wrapBlock ("@" ++ head) contents level).toList =
      (indent level).toList ++ '@' :: (head.toList ++ [' ', '\x7b']) ++
        '\n' :: ((dropNewlines contents).toList ++ '\n' :: ((indent level).toList ++ ['\x7d'] ++ ['\n'])) := by
    simp [wrapBlock, block]
  rw [whole, settled_row (by simp [absent, single])]
  exact ⟨opening, kept.append closing⟩

end Settled

/-- Splitting the heads of rules changes blanks only; a row that is no head with a comma stays as it is; in
the result no head has a comma outside of quotes and brackets, so splitting it again changes nothing, nor
does splitting any text around the block of an at-rule that holds the result. -/
theorem selector_lists_settle (css : String) :
    visible (split css).toList = visible css.toList ∧
    (∀ before row tail, RowAt css.toList before row tail → (∀ indent selectors, ¬ Header row indent selectors) →
      (split css).toList = splitChars before ++ row ++ splitChars tail) ∧
    (∀ before row tail, RowAt (split css).toList before row tail →
      ∀ indent selectors, Header row indent selectors →
        ∀ front rest, selectors = front ++ ',' :: rest → outside.after front ≠ outside) ∧
    split (split css) = split css ∧
    ∀ (head before tail : String) (level : Nat), '\n' ∉ head.toList → Text.Whole before →
      split (before ++ (wrapBlock ("@" ++ head) (split css) level ++ tail)) =
        split before ++ (wrapBlock ("@" ++ head) (split css) level ++ split tail) := by
  have shown : (split css).toList = splitChars css.toList := String.toList_ofList
  have settled : Settled (split css).toList := shown ▸ settled_splitChars css.toList
  have kept {text : String} (settled : Settled text.toList) : split text = text :=
    String.toList_injective (String.toList_ofList.trans settled.splitChars_eq)
  refine ⟨?_, fun before row tail place other => ?_, fun before row tail place indent selectors header front rest =>
    header.uncut place.single (settled.rowAt place), kept settled, fun head before tail level single whole => ?_⟩
  · rw [shown, visible_splitChars]
  · rw [shown, splitChars_rowAt place, splitLine_of_other other]
  · have block := settled_wrapBlock single settled level
    have rows : Text.Whole (wrapBlock ("@" ++ head) (split css) level) := Text.whole_block _ _ level
    rw [split_append whole, split_append rows, kept block]

/-- A list in brackets stays on its row, and the rows stay as they are in another at-rule. -/
theorem selector_lists_settle_brackets :
    let css := "  .a, :is(.b, .c) \x7b\n    d: e, f;\n  \x7d\n"
    let settled := "  .a,\n  :is(.b, .c) \x7b\n    d: e, f;\n  \x7d\n"
    split css = settled ∧
      RowAt settled.toList "  .a,\n".toList "  :is(.b, .c) \x7b".toList "\n    d: e, f;\n  \x7d\n".toList ∧
      Header "  :is(.b, .c) \x7b".toList "  ".toList ":is(.b, .c)".toList ∧
      outside.after ":is(.b".toList ≠ outside ∧
      split ("a \x7b\x7d\n" ++ (wrapBlock "@media print" settled 0 ++ "")) =
        "a \x7b\x7d\n@media print \x7b\n" ++ settled ++ "\x7d\n" := by
  intro css settled
  have result : split css = settled := by decide +kernel
  have place : RowAt settled.toList "  .a,\n".toList "  :is(.b, .c) \x7b".toList
      "\n    d: e, f;\n  \x7d\n".toList :=
    ⟨by decide +kernel, .inr ⟨"  .a,".toList, by decide +kernel⟩, by decide +kernel,
      .inr ⟨"    d: e, f;\n  \x7d\n".toList, by decide +kernel⟩⟩
  have header : Header "  :is(.b, .c) \x7b".toList "  ".toList ":is(.b, .c)".toList :=
    header?_eq_some_iff.mp (by decide +kernel)
  obtain ⟨-, -, uncut, -, around⟩ := selector_lists_settle css
  rw [result] at uncut around
  refine ⟨result, place, header, uncut _ _ _ place _ _ header _ " .c)".toList (by decide +kernel), ?_⟩
  refine (around "media print" "a \x7b\x7d\n" "" 0 (by decide +kernel)
    (.inr ⟨"a \x7b\x7d".toList, by decide +kernel⟩)).trans ?_
  decide +kernel

end SelectorList

end Scss
