import Scss.Proofs.SourceMaps.Search

/-! What the search for heads gives for any text and any notes. The search passes characters at which the
head does not begin and whole occurrences of it that no brace and no comma follows; so each note is
mapped to the first place behind the heads before it that is left, and the places only grow. -/
namespace Scss

namespace Chars

/-- Behind more text the line is a later one, or the column is. -/
theorem place_lt (before : List Char) {part : List Char} (some : part ≠ []) :
    lineAt before < lineAt (before ++ part) ∨
      lineAt before = lineAt (before ++ part) ∧ columnAt before < columnAt (before ++ part) := by
  by_cases newline : '\n' ∈ part
  · left
    have positive : 0 < part.count '\n' := List.count_pos_iff.mpr newline
    simp only [lineAt, List.count_append]
    omega
  · right
    have none : part.count '\n' = 0 := List.count_eq_zero.mpr newline
    have all : ∀ c ∈ part.reverse, decide (c ≠ '\n') = true := by
      intro c member
      apply decide_eq_true
      rintro rfl
      exact newline (List.mem_reverse.mp member)
    have line : (before ++ part).rtakeWhile (· ≠ '\n') = before.rtakeWhile (· ≠ '\n') ++ part := by
      rw [List.rtakeWhile, List.reverse_append, List.takeWhile_append_of_pos all, List.reverse_append,
        List.reverse_reverse, ← List.rtakeWhile]
    obtain ⟨c, rest, rfl⟩ := List.exists_cons_of_ne_nil some
    have size : 0 < c.utf8Size := c.utf8Size_pos
    constructor
    · simp only [lineAt, List.count_append, none, Nat.add_zero]
    · simp only [columnAt, line, List.map_append, List.map_cons, List.sum_append, List.sum_cons]
      omega

end Chars

namespace Spot

open Chars (Closes)

/-- From a text in front of a rest, the search for a head comes to the rest. -/
inductive Passes (head : List Char) : List Char → List Char → Prop where
  | done (rest : List Char) : Passes head [] rest
  | letter {c : Char} {part rest : List Char} (other : ¬ head <+: c :: (part ++ rest))
      (passes : Passes head part rest) : Passes head (c :: part) rest
  | occurrence {part rest : List Char} (opens : ¬ Closes (part ++ rest))
      (passes : Passes head part rest) : Passes head (head ++ part) rest

variable {head : List Char}

/-- What belongs to an occurrence is left out of the search. -/
theorem findWithin_skip (head past skipped rest : List Char) :
    findWithin head (skipped.length + rest.length) skipped.length (behind past (skipped ++ rest)) =
      (behind (past ++ skipped) rest).find? head := by
  induction skipped generalizing past with
  | nil => simp [find?, behind]
  | cons c skipped ih =>
    have step : (c :: skipped).length + rest.length = (skipped.length + rest.length) + 1 := by
      simp only [List.length_cons]
      omega
    rw [step, List.length_cons, List.cons_append, findWithin, next_behind, ih]
    simp

theorem find?_nil (past : List Char) : (behind past []).find? head = none := rfl

theorem find?_letter {c : Char} {rest : List Char} (other : ¬ head <+: c :: rest) (past : List Char) :
    (behind past (c :: rest)).find? head = (behind (past ++ [c]) rest).find? head := by
  have apart : head.isPrefixOf (c :: rest) = false := by
    rwa [← Bool.not_eq_true, List.isPrefixOf_iff_prefix]
  have skip := findWithin_skip head (past ++ [c]) [] rest
  rw [find?, behind, List.length_cons, findWithin]
  simp only [apart, Bool.false_eq_true, if_false]
  change findWithin head rest.length 0 (behind past (c :: rest)).next = _
  rw [next_behind]
  simpa using skip

theorem find?_closes {rest : List Char} (named : head ≠ []) (closes : Closes rest) (past : List Char) :
    (behind past (head ++ rest)).find? head = some (behind past (head ++ rest)) := by
  obtain ⟨c, more, rfl⟩ := List.exists_cons_of_ne_nil named
  obtain ⟨begins, ends⟩ := (starts_iff (c :: more) past (c :: more ++ rest)).mpr (Chars.starts_append closes)
  change findWithin _ ((more ++ rest).length + 1) 0 _ = _
  rw [findWithin]
  exact (if_pos begins).trans (if_pos ends)

theorem find?_occurrence {rest : List Char} (named : head ≠ []) (opens : ¬ Closes rest) (past : List Char) :
    (behind past (head ++ rest)).find? head = (behind (past ++ head) rest).find? head := by
  obtain ⟨c, more, rfl⟩ := List.exists_cons_of_ne_nil named
  have begins : (c :: more).isPrefixOf (c :: more ++ rest) = true :=
    List.isPrefixOf_iff_prefix.mpr (List.prefix_append _ _)
  have ends : ¬ ((behind past (c :: more ++ rest)).advance (c :: more).length).endsHead = true := by
    rwa [advance_behind, endsHead_iff]
  have skip := findWithin_skip (c :: more) (past ++ [c]) more rest
  change findWithin _ ((more ++ rest).length + 1) 0 _ = _
  rw [findWithin, if_pos (by exact begins), if_neg ends, List.cons_append, next_behind, List.length_append]
  simpa using skip

/-- Either the whole text is passed and nothing is found, or the first occurrence that is left and that a
brace or a comma follows. -/
theorem find?_cases (named : head ≠ []) (past rest : List Char) :
    (Passes head rest [] ∧ (behind past rest).find? head = none) ∨
      ∃ part after, rest = part ++ (head ++ after) ∧ Passes head part (head ++ after) ∧ Closes after ∧
        (behind past rest).find? head = some (behind (past ++ part) (head ++ after)) := by
  induction size : rest.length using Nat.strong_induction_on generalizing past rest with
  | _ size ih =>
    subst size
    by_cases begins : head <+: rest
    · obtain ⟨more, rfl⟩ := begins
      by_cases closes : Closes more
      · exact .inr ⟨[], more, rfl, .done _, closes, by simpa using find?_closes named closes past⟩
      · have positive : 0 < head.length := List.length_pos_iff.mpr named
        have shorter : more.length < (head ++ more).length := by
          rw [List.length_append]
          omega
        have same := find?_occurrence named closes past
        rcases ih more.length shorter (past ++ head) more rfl with
          ⟨passes, none⟩ | ⟨part, after, rfl, passes, ends, found⟩
        · exact .inl ⟨.occurrence (by simpa using closes) passes, same.trans none⟩
        · exact .inr ⟨head ++ part, after, by simp, .occurrence closes passes, ends,
            by simpa using same.trans found⟩
    · cases rest with
      | nil => exact .inl ⟨.done [], find?_nil past⟩
      | cons c rest =>
        have same := find?_letter begins past
        rcases ih rest.length (Nat.lt_succ_self _) (past ++ [c]) rest rfl with
          ⟨passes, none⟩ | ⟨part, after, rfl, passes, ends, found⟩
        · exact .inl ⟨.letter (by simpa using begins) passes, same.trans none⟩
        · exact .inr ⟨c :: part, after, rfl, .letter begins passes, ends, by simpa using same.trans found⟩

end Spot

namespace PendingMapping

open Chars (Closes lineAt columnAt)
open Spot (Passes behind)

/-- What the notes come to behind a text. A note that names no group, or whose group the search passes
everywhere, is left out. Any other is mapped to where the search stops, and the next notes are looked up
behind its group. -/
inductive Resolves : List Char → List Char → List PendingMapping → List Mapping → Prop where
  | nil (past rest : List Char) : Resolves past rest [] []
  | unnamed {past rest : List Char} {note : PendingMapping} {notes : List PendingMapping}
      {mappings : List Mapping} (empty : note.head = []) (resolves : Resolves past rest notes mappings) :
      Resolves past rest (note :: notes) mappings
  | absent {past rest : List Char} {note : PendingMapping} {notes : List PendingMapping}
      {mappings : List Mapping} (passes : Passes note.head rest [])
      (resolves : Resolves past rest notes mappings) : Resolves past rest (note :: notes) mappings
  | found {past part after : List Char} {note : PendingMapping} {notes : List PendingMapping}
      {mappings : List Mapping} (named : note.head ≠ []) (passes : Passes note.head part (note.head ++ after))
      (closes : Closes after) (resolves : Resolves (past ++ part ++ note.head) after notes mappings) :
      Resolves past (part ++ (note.head ++ after)) (note :: notes)
        (⟨lineAt (past ++ part), columnAt (past ++ part), note.line, note.source⟩ :: mappings)

theorem resolves_resolveFrom (notes : List PendingMapping) (past rest : List Char) :
    Resolves past rest notes (resolveFrom (behind past rest) notes) := by
  induction notes generalizing past rest with
  | nil => exact .nil past rest
  | cons note notes ih =>
    by_cases named : note.head = []
    · rw [resolveFrom, named]
      exact .unnamed named (ih past rest)
    · rw [resolveFrom_cons named]
      rcases Spot.find?_cases named past rest with
        ⟨passes, none⟩ | ⟨part, after, rfl, passes, closes, found⟩
      · rw [none]
        exact .absent passes (ih past rest)
      · rw [found]
        dsimp only
        rw [Spot.advance_behind]
        exact .found named passes closes (ih _ after)

end PendingMapping

namespace Mapping

open Chars (Closes lineAt columnAt)

/-- A mapping of a note: it tells a place of a text where the first group of the note's selector stands in
front of a brace or a comma, and where the note is from. -/
def OfGroup (css : List Char) (note : PendingMapping) (mapping : Mapping) : Prop :=
  ∃ before group after, css = before ++ (group ++ after) ∧ group ≠ [] ∧
    (Chars.splitTopLevel ',' note.selector.toList).head? = some group ∧ Closes after ∧
    mapping = ⟨lineAt before, columnAt before, note.line, note.source⟩

/-- The place of a mapping comes before that of another. -/
def Before (mapping other : Mapping) : Prop :=
  mapping.generatedLine < other.generatedLine ∨
    mapping.generatedLine = other.generatedLine ∧ mapping.generatedColumn < other.generatedColumn

end Mapping

namespace PendingMapping

open Chars (lineAt columnAt)

variable {past rest : List Char} {notes : List PendingMapping} {mappings : List Mapping}

theorem head?_of_named {note : PendingMapping} (named : note.head ≠ []) :
    (Chars.splitTopLevel ',' note.selector.toList).head? = some note.head := by
  unfold head at named ⊢
  cases groups : (Chars.splitTopLevel ',' note.selector.toList).head? with
  | none =>
    rw [groups] at named
    exact absurd rfl named
  | some group => rfl

namespace Resolves

/-- The notes that are not left out are mapped one by one. -/
theorem ofGroup (resolves : Resolves past rest notes mappings) :
    ∃ kept, kept.Sublist notes ∧ List.Forall₂ (Mapping.OfGroup (past ++ rest)) kept mappings := by
  induction resolves with
  | nil past rest => exact ⟨[], .slnil, .nil⟩
  | unnamed empty resolves ih =>
    obtain ⟨kept, among, each⟩ := ih
    exact ⟨kept, among.cons _, each⟩
  | absent passes resolves ih =>
    obtain ⟨kept, among, each⟩ := ih
    exact ⟨kept, among.cons _, each⟩
  | @found past part after note notes mappings named passes closes resolves ih =>
    obtain ⟨kept, among, each⟩ := ih
    refine ⟨note :: kept, among.cons_cons note, .cons ?_ ?_⟩
    · exact ⟨past ++ part, note.head, after, by simp, named, head?_of_named named, closes, rfl⟩
    · simpa using each

/-- All places are behind the text. -/
theorem place_of_mem (resolves : Resolves past rest notes mappings) :
    ∀ mapping ∈ mappings, ∃ more, mapping.generatedLine = lineAt (past ++ more) ∧
      mapping.generatedColumn = columnAt (past ++ more) := by
  induction resolves with
  | nil past rest => exact nofun
  | unnamed empty resolves ih => exact ih
  | absent passes resolves ih => exact ih
  | @found past part after note notes mappings named passes closes resolves ih =>
    intro mapping member
    rcases List.mem_cons.mp member with rfl | member
    · exact ⟨part, rfl, rfl⟩
    · obtain ⟨more, line, column⟩ := ih mapping member
      exact ⟨part ++ note.head ++ more, by simpa using line, by simpa using column⟩

/-- Each place comes before the next ones, because its group stands between them. -/
theorem pairwise_before (resolves : Resolves past rest notes mappings) : mappings.Pairwise Mapping.Before := by
  induction resolves with
  | nil past rest => exact .nil
  | unnamed empty resolves ih => exact ih
  | absent passes resolves ih => exact ih
  | @found past part after note notes mappings named passes closes resolves ih =>
    refine .cons ?_ ih
    intro mapping member
    obtain ⟨more, line, column⟩ := resolves.place_of_mem mapping member
    have between : note.head ++ more ≠ [] := by simp [named]
    have later := Chars.place_lt (past ++ part) between
    rw [← List.append_assoc, ← line, ← column] at later
    exact later

end Resolves

/-- For every text and all notes: the mappings are of notes in their order, and each tells a place where the
first group of its note's selector stands in front of a brace or a comma; their places only grow. A note
has a mapping just if its group is found behind those of the notes before it. -/
theorem mappings_sound_ordered (css : String) (notes : List PendingMapping) :
    (∃ kept, kept.Sublist notes ∧ List.Forall₂ (Mapping.OfGroup css.toList) kept (resolve css notes)) ∧
      (resolve css notes).Pairwise Mapping.Before ∧
      Resolves [] css.toList notes (resolve css notes) := by
  have resolves : Resolves [] css.toList notes (resolve css notes) :=
    resolves_resolveFrom notes [] css.toList
  exact ⟨resolves.ofGroup, resolves.pairwise_before, resolves⟩

/-- An occurrence that is passed is passed as a whole, and one behind a wide character counts its bytes. -/
example : resolve "aa.b\naa, é aa \x7b" [⟨"aa, b", "s", 1⟩, ⟨"", "s", 2⟩, ⟨"aa", "s", 3⟩, ⟨"b", "s", 4⟩] =
    [⟨2, 0, 1, "s"⟩, ⟨2, 7, 3, "s"⟩] := by decide +kernel

end PendingMapping

end Scss
