import Scss.Proofs.Cutting

/-! The parts of a text between its cuts. Of the text only blanks and the separators that cut are not in
them, and no part is cut again. -/
namespace Scss

namespace Chars

open Enclosure (outside)

def visible (text : List Char) : List Char := text.filter fun c => !isBlank c

section Visible

variable {text blanks : List Char}

theorem visible_append (text rest : List Char) : visible (text ++ rest) = visible text ++ visible rest :=
  List.filter_append ..

theorem visible_blanks (blank : ∀ b ∈ blanks, isBlank b = true) : visible blanks = [] :=
  List.filter_eq_nil_iff.mpr fun b member => by simp [blank b member]

theorem visible_trimStart (text : List Char) : visible (trimStart text) = visible text := by
  rw [trimStart]
  nth_rewrite 2 [← List.takeWhile_append_dropWhile (p := isBlank) (l := text)]
  rw [visible_append, visible_blanks fun b => List.mem_takeWhile_imp, List.nil_append]

theorem visible_trimEnd (text : List Char) : visible (trimEnd text) = visible text := by
  obtain ⟨blanks, blank, whole⟩ := exists_blanks text
  nth_rewrite 2 [whole]
  rw [visible_append, visible_blanks blank, List.append_nil]

theorem visible_trim (text : List Char) : visible (trim text) = visible text := by
  rw [trim, visible_trimEnd, visible_trimStart]

/-- Trimmed parts and wider separators differ in blanks only. -/
theorem visible_intercalate_trim {separator joint : List Char} (same : visible separator = visible joint)
    (parts : List (List Char)) :
    visible (separator.intercalate (parts.map trim)) = visible (joint.intercalate parts) := by
  induction parts with
  | nil => rfl
  | cons part rest ih =>
    cases rest with
    | nil => simpa using visible_trim part
    | cons second rest =>
      rw [List.map_cons, List.map_cons, List.intercalate_cons_cons, ← List.map_cons,
        List.intercalate_cons_cons]
      simp only [visible_append, visible_trim, same, ih]

end Visible

section Pieces

variable {separator : Char} {enclosure : Enclosure} {text rest piece : List Char}

/-- Cutting loses nothing but the separators. -/
theorem intercalate_topLevelPieces (separator : Char) (enclosure : Enclosure) (text : List Char) :
    [separator].intercalate (topLevelPieces separator enclosure text) = text := by
  induction text generalizing enclosure with
  | nil => rfl
  | cons c text ih =>
    cases cuts : enclosure.cutsAt separator c with
    | true =>
      obtain ⟨first, others, same⟩ := exists_topLevelPieces separator enclosure text
      have whole := ih enclosure
      rw [topLevelPieces_of_cut cuts]
      rw [same] at whole ⊢
      rw [List.intercalate_cons_cons, whole, Enclosure.eq_separator_of_cutsAt cuts]
      rfl
    | false =>
      obtain ⟨first, others, same⟩ := exists_topLevelPieces separator (enclosure.next c) text
      have whole := ih (enclosure.next c)
      rw [topLevelPieces_of_uncut cuts]
      rw [same] at whole ⊢
      cases others with
      | nil => simpa [extendFirst] using whole
      | cons second others =>
        rw [List.intercalate_cons_cons] at whole
        rw [extendFirst, List.intercalate_cons_cons, ← whole]
        simp

theorem visible_intercalate_splitTopLevel {joint : List Char} (same : visible joint = visible [separator])
    (text : List Char) : visible (joint.intercalate (splitTopLevel separator text)) = visible text := by
  rw [splitTopLevel, visible_intercalate_trim same, intercalate_topLevelPieces]

/-- A piece that starts outside has no cut, whatever is open where the text ends. -/
theorem uncut_of_mem_topLevelPieces (member : piece ∈ topLevelPieces separator outside text) :
    Uncut separator outside piece := by
  have pieces : ∀ enclosure, ∃ first others, topLevelPieces separator enclosure text = first :: others ∧
      Uncut separator enclosure first ∧ ∀ piece ∈ others, Uncut separator outside piece := by
    clear member
    induction text with
    | nil => exact fun enclosure => ⟨[], [], rfl, rfl, nofun⟩
    | cons c text ih =>
      intro enclosure
      cases cuts : enclosure.cutsAt separator c with
      | true =>
        obtain ⟨first, others, same, start, later⟩ := ih enclosure
        refine ⟨[], first :: others, by rw [topLevelPieces_of_cut cuts, same], rfl,
          List.forall_mem_cons.mpr ⟨?_, later⟩⟩
        rwa [Enclosure.eq_outside_of_cutsAt cuts] at start
      | false =>
        obtain ⟨first, others, same, start, later⟩ := ih (enclosure.next c)
        exact ⟨c :: first, others, by rw [topLevelPieces_of_uncut cuts, same]; rfl,
          uncut_cons.mpr ⟨cuts, start⟩, later⟩
  obtain ⟨first, others, same, start, later⟩ := pieces outside
  rw [same] at member
  rcases List.mem_cons.mp member with rfl | member
  · exact start
  · exact later piece member

theorem Uncut.behind (uncut : Uncut separator enclosure (text ++ rest)) :
    Uncut separator (enclosure.after text) rest := by
  induction text generalizing enclosure with
  | nil => exact uncut
  | cons c text ih => exact ih (uncut_cons.mp uncut).2

theorem Uncut.trim (uncut : Uncut separator outside text) : Uncut separator outside (Chars.trim text) := by
  have started : Uncut separator outside (trimStart text) := by
    have blank : ∀ b ∈ text.takeWhile isBlank, isBlank b = true := fun b => List.mem_takeWhile_imp
    rw [← List.takeWhile_append_dropWhile (p := isBlank) (l := text)] at uncut
    have behind := uncut.behind
    rwa [after_blanks blank Enclosure.isBlank_quote_outside] at behind
  obtain ⟨blanks, -, whole⟩ := exists_blanks (trimStart text)
  rw [whole] at started
  exact started.of_append

/-- Of any text, also one with open brackets or quotes, a part between cuts is a part by itself. -/
theorem splitTopLevel_part (member : piece ∈ splitTopLevel separator text) :
    splitTopLevel separator piece = [piece] := by
  obtain ⟨raw, found, rfl⟩ := List.mem_map.mp member
  rw [splitTopLevel, (uncut_of_mem_topLevelPieces found).trim]
  exact congrArg (fun part => [part]) (flush_trim raw).trim_eq

/-- How many separators of a text stand with no quote open and at depth zero, where the text itself stands in
an enclosure. -/
def cutCount (separator : Char) (enclosure : Enclosure) (text : List Char) : Nat :=
  (List.range text.length).countP fun index => text[index]? = some separator ∧
    (enclosure.after (text.take index)).quote = none ∧ (enclosure.after (text.take index)).depth = 0

theorem cutCount_cons (separator : Char) (enclosure : Enclosure) (c : Char) (text : List Char) :
    cutCount separator enclosure (c :: text) = cutCount separator (enclosure.next c) text +
      if c = separator ∧ enclosure.quote = none ∧ enclosure.depth = 0 then 1 else 0 := by
  rw [cutCount, List.length_cons, List.range_succ_eq_map, List.countP_cons, List.countP_map, cutCount]
  exact congrArg₂ (· + ·) rfl (by simp [Enclosure.after])

/-- There is one cut for each of them. -/
theorem length_topLevelPieces (plain : separator ∉ ['"', '\'', '(', ')', '[', ']']) (enclosure : Enclosure)
    (text : List Char) :
    (topLevelPieces separator enclosure text).length = cutCount separator enclosure text + 1 := by
  induction text generalizing enclosure with
  | nil => rfl
  | cons c text ih =>
    rw [cutCount_cons]
    by_cases cuts : c = separator ∧ enclosure.quote = none ∧ enclosure.depth = 0
    · obtain ⟨rfl, unquoted, top⟩ := cuts
      have here : enclosure.cutsAt c c = true := by
        simp only [List.mem_cons, List.not_mem_nil, or_false, not_or] at plain
        simp [Enclosure.cutsAt, unquoted, top, plain]
      rw [topLevelPieces_of_cut here, List.length_cons, ih, Enclosure.next_of_cutsAt here,
        if_pos ⟨rfl, unquoted, top⟩]
    · have here : enclosure.cutsAt separator c = false := by
        refine Bool.eq_false_iff.mpr fun found => cuts ⟨Enclosure.eq_separator_of_cutsAt found, ?_⟩
        rw [Enclosure.eq_outside_of_cutsAt found]
        exact ⟨rfl, rfl⟩
      obtain ⟨first, others, same⟩ := exists_topLevelPieces separator (enclosure.next c) text
      rw [topLevelPieces_of_uncut here, if_neg cuts, ← ih, same]
      rfl

end Pieces

end Chars

namespace Text

/-- Whatever stays open in a text: its parts, with the separators between them, are all of it up to blanks;
there is one part more than separators outside of quotes and brackets; and no part is cut again. -/
theorem parts_cut_faithfully {separator : Char} (plain : separator ∉ ['"', '\'', '(', ')', '[', ']'])
    (text : String) :
    Chars.visible (join (String.singleton separator) (splitTopLevel separator text)).toList =
        Chars.visible text.toList ∧
      (splitTopLevel separator text).length =
        1 + Chars.cutCount separator Enclosure.outside text.toList ∧
      ∀ part ∈ splitTopLevel separator text, splitTopLevel separator part = [part] := by
  refine ⟨?_, ?_, ?_⟩
  · rw [join, String.toList_intercalate, splitTopLevel, List.map_map]
    simp only [Function.comp_def, String.toList_ofList, List.map_id', String.toList_singleton]
    exact Chars.visible_intercalate_splitTopLevel rfl text.toList
  · rw [splitTopLevel, List.length_map, Chars.splitTopLevel, List.length_map,
      Chars.length_topLevelPieces plain, Nat.add_comm]
  · intro part member
    obtain ⟨piece, found, rfl⟩ := List.mem_map.mp member
    rw [splitTopLevel, String.toList_ofList, Chars.splitTopLevel_part found, List.map_singleton]

/-- A bracket that closes nothing keeps the comma behind it from cutting, and a quote that is never closed
the one inside of it. -/
theorem parts_cut_faithfully_unbalanced :
    ',' ∉ ['"', '\'', '(', ')', '[', ']'] ∧
      splitTopLevel ',' "a , b), c(,\"d, e" = ["a", "b), c(", "\"d, e"] ∧
      Chars.cutCount ',' Enclosure.outside "a , b), c(,\"d, e".toList = 2 ∧
      ∀ part ∈ ["a", "b), c(", "\"d, e"], splitTopLevel ',' part = [part] := by
  have cut : splitTopLevel ',' "a , b), c(,\"d, e" = ["a", "b), c(", "\"d, e"] := by decide
  obtain ⟨-, count, alone⟩ := @parts_cut_faithfully ',' (by decide) "a , b), c(,\"d, e"
  rw [cut] at count alone
  exact ⟨by decide, cut, (Nat.add_left_cancel count).symm, alone⟩

end Text

end Scss
