import Scss.Proofs.Compression.Comments
import Scss.Proofs.Indentation
import Scss.Proofs.Texts

/-! The rows of a text, as compressing takes them: lines without the blanks around them, and none that is
empty. However the rows stand in the text, they are found again. -/
namespace Scss.Compress

open Chars (isBlank trim Flush)

/-- The lines of a text, trimmed, without those that are blank. -/
def rows (css : List Char) : List (List Char) :=
  ((Chars.lines css).map trim).filter fun row => !row.isEmpty

theorem chars_eq (css : List Char) : chars css =
    Chars.replace [';', '\x7d'] ['\x7d'] ((rows (strip css)).flatMap line) := rfl

/-- A text of one row, if there is anything to see in it. -/
def shown (line : List Char) : List (List Char) := if trim line = [] then [] else [trim line]

section Rows

variable {line text rest row gap : List Char} {b : Char}

theorem trim_dropReturn (line : List Char) : trim (Chars.dropReturn line) = trim line := by
  unfold Chars.dropReturn
  split
  · rename_i last
    have whole := List.dropLast_append_getLast? _ last
    nth_rewrite 2 [← whole]
    rw [Chars.trim_blanks (List.forall_mem_singleton.mpr rfl)]
  · rfl

theorem rows_eq (css : List Char) : rows css = (Chars.lineCut css).flatMap fun line => shown line.body := by
  have trimmed (line : Chars.Line) : trim line.text = trim line.body := by
    unfold Chars.Line.text
    split
    · exact trim_dropReturn _
    · rfl
  rw [rows, Chars.lines, List.map_map]
  induction Chars.lineCut css with
  | nil => rfl
  | cons line rest ih =>
    rw [List.map_cons, List.filter_cons, ih, List.flatMap_cons, Function.comp_apply, trimmed, shown]
    by_cases none : trim line.body = [] <;> simp [none]

theorem rows_row (single : '\n' ∉ line) (rest : List Char) :
    rows (line ++ '\n' :: rest) = shown line ++ rows rest := by
  rw [rows_eq, Chars.lineCut_append_newline single, List.flatMap_cons, ← rows_eq]

theorem rows_last (single : '\n' ∉ line) : rows line = shown line := by
  by_cases none : line = []
  · subst none
    rfl
  · rw [rows_eq, Chars.lineCut_of_single single none, List.flatMap_singleton]

theorem shown_cons (blank : isBlank b = true) (line : List Char) : shown (b :: line) = shown line := by
  have shorter : trim (b :: line) = trim line := congrArg Chars.trimEnd (List.dropWhile_cons_of_pos blank)
  rw [shown, shorter, shown]

theorem shown_flush (flush : Flush row) (some : row ≠ []) (blank : ∀ b ∈ gap, isBlank b = true) :
    shown (row ++ gap) = [row] := by
  have trimmed : trim (row ++ gap) = row := by rw [Chars.trim_blanks blank, flush.trim_eq]
  rw [shown, trimmed, if_neg some]

theorem rows_cons (blank : isBlank b = true) (text : List Char) : rows (b :: text) = rows text := by
  by_cases newline : b = '\n'
  · subst newline
    exact rows_row List.not_mem_nil text
  · by_cases broken : '\n' ∈ text
    · obtain ⟨line, rest, rfl, single⟩ := List.eq_append_cons_of_mem broken
      have longer : '\n' ∉ b :: line := by simp [Ne.symm newline, single]
      rw [← List.cons_append, rows_row longer, rows_row single, shown_cons blank]
    · rw [rows_last (by simp [Ne.symm newline, broken]), rows_last broken, shown_cons blank]

theorem rows_blanks (blank : ∀ b ∈ gap, isBlank b = true) (text : List Char) :
    rows (gap ++ text) = rows text := by
  induction gap with
  | nil => rfl
  | cons b gap ih =>
    obtain ⟨here, behind⟩ := List.forall_mem_cons.mp blank
    rw [List.cons_append, rows_cons here, ih behind]

theorem rows_of_blank (blank : ∀ b ∈ gap, isBlank b = true) : rows gap = [] := by
  have none := rows_blanks blank []
  rwa [List.append_nil] at none

end Rows

/-- These rows are the text: blanks stand around them, with a line feed among those between two rows. -/
inductive Spaced : List (List Char) → List Char → Prop where
  | none {gap : List Char} (blank : ∀ b ∈ gap, isBlank b = true) : Spaced [] gap
  | row {gap row text : List Char} {others : List (List Char)} (blank : ∀ b ∈ gap, isBlank b = true)
      (broken : others ≠ [] → '\n' ∈ text.takeWhile isBlank) (rest : Spaced others text) :
      Spaced (row :: others) (gap ++ (row ++ text))

/-- A row that can stand in a text: trimmed, not empty, and of one line. -/
structure Regular (row : List Char) : Prop where
  nonempty : row ≠ []
  flush : Flush row
  single : '\n' ∉ row

instance (row : List Char) : Decidable (Regular row) :=
  decidable_of_iff (row ≠ [] ∧ Flush row ∧ '\n' ∉ row)
    ⟨fun ⟨nonempty, flush, single⟩ => ⟨nonempty, flush, single⟩,
      fun ⟨nonempty, flush, single⟩ => ⟨nonempty, flush, single⟩⟩

namespace Spaced

variable {text : List Char} {others : List (List Char)}

/-- Rows of which each is regular are found in any text that they are. -/
theorem rows_eq (spaced : Spaced others text) (regular : ∀ row ∈ others, Regular row) : rows text = others := by
  induction spaced with
  | none blank => exact rows_of_blank blank
  | @row gap row text others blank broken rest ih =>
    obtain ⟨⟨nonempty, flush, single⟩, behind⟩ := List.forall_mem_cons.mp regular
    have start : ∀ b ∈ text.takeWhile isBlank, isBlank b = true := fun b => List.mem_takeWhile_imp
    rw [rows_blanks blank, ← ih behind]
    by_cases split : '\n' ∈ text.takeWhile isBlank
    · obtain ⟨front, back, cut, unbroken⟩ := List.eq_append_cons_of_mem split
      have whole : text = front ++ '\n' :: (back ++ text.dropWhile isBlank) := by
        rw [← List.cons_append, ← List.append_assoc, ← cut, List.takeWhile_append_dropWhile]
      have clear : ∀ b ∈ front, isBlank b = true := fun b member =>
        start b (by rw [cut]; exact List.mem_append_left _ member)
      have longer : '\n' ∉ row ++ front := by simp [single, unbroken]
      rw [whole, ← List.append_assoc, rows_row longer, shown_flush flush nonempty clear, rows_blanks clear,
        rows_cons rfl]
      rfl
    · obtain rfl : others = [] := by
        by_contra more
        exact split (broken more)
      cases rest with
      | none clear =>
        have alone : '\n' ∉ row ++ text := by
          rw [List.takeWhile_eq_self_iff.mpr clear] at split
          simp [single, split]
        rw [rows_last alone, shown_flush flush nonempty clear, rows_of_blank clear]

/-- Two characters that are no blanks stand side by side in a row only. -/
theorem not_pair {a b : Char} (spaced : Spaced others text) (visible : isBlank a = false ∧ isBlank b = false)
    (absent : ∀ row ∈ others, ¬ [a, b] <:+: row) : ¬ [a, b] <:+: text := by
  have clear {gap : List Char} (blank : ∀ b ∈ gap, isBlank b = true) : a ∉ gap ∧ b ∉ gap :=
    ⟨fun member => by simpa [visible.1] using blank a member,
      fun member => by simpa [visible.2] using blank b member⟩
  have within {gap : List Char} (blank : ∀ b ∈ gap, isBlank b = true) : ¬ [a, b] <:+: gap :=
    fun pair => (clear blank).1 (pair.subset (List.mem_cons_self ..))
  induction spaced with
  | none blank => exact within blank
  | @row gap row text others blank broken rest ih =>
    obtain ⟨here, behind⟩ := List.forall_mem_cons.mp absent
    have next : text.head? ≠ some b := by
      intro first
      cases rest with
      | none after => exact (clear after).2 (List.mem_of_head? first)
      | row _ _ _ =>
        obtain ⟨more, same⟩ := List.head?_eq_some_iff.mp first
        have feed := broken (List.cons_ne_nil _ _)
        rw [same, List.takeWhile_cons_of_neg (by simp [visible.2])] at feed
        cases feed
    rw [Chars.pair_infix_append, Chars.pair_infix_append, not_or, not_or, not_or, not_or]
    exact ⟨within blank, fun ends => (clear blank).1 (List.mem_of_getLast? ends.1), here,
      fun ends => next ends.2, ih behind⟩

end Spaced

end Scss.Compress
