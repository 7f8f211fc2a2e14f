import Mathlib.Tactic
import Scss.Proofs.Texts
import Scss.Text.TopLevel

/-! Cuts outside of quotes and brackets. A text that closes all that it opens does not cut what it is put
into, and is cut there as it is alone. -/
namespace Scss

namespace Enclosure

variable {quotable : Char → Prop} {enclosure : Enclosure} {text rest : List Char} {separator c : Char}
  {most extra total : Nat} {depth : Int32}

def after (enclosure : Enclosure) (text : List Char) : Enclosure := text.foldl next enclosure

theorem after_append (enclosure : Enclosure) (text rest : List Char) :
    enclosure.after (text ++ rest) = (enclosure.after text).after rest :=
  List.foldl_append

theorem next_of_plain (plain : c ∉ ['"', '\'', '(', ')', '[', ']']) (unquoted : enclosure.quote = none) :
    enclosure.next c = enclosure := by
  simp only [List.mem_cons, List.not_mem_nil, or_false, not_or] at plain
  obtain ⟨double, single, opening, closing, square, unsquare⟩ := plain
  simp [next, unquoted, double, single, opening, closing, square, unsquare]

/-- A blank neither opens nor closes anything. -/
theorem next_of_blank (visible : ∀ mark ∈ enclosure.quote, Chars.isBlank mark = false)
    (blank : Chars.isBlank c = true) : enclosure.next c = enclosure := by
  cases quote : enclosure.quote with
  | none =>
    refine next_of_plain (fun member => ?_) quote
    simp only [List.mem_cons, List.not_mem_nil, or_false] at member
    rcases member with rfl | rfl | rfl | rfl | rfl | rfl <;> revert blank <;> decide
  | some mark =>
    have differs : c ≠ mark := by
      rintro rfl
      simp [visible c quote] at blank
    simp [next, quote, differs]

theorem cutsAt_of_blank (blank : Chars.isBlank c = true) : enclosure.cutsAt ',' c = false := by
  have other : c ≠ ',' := by
    rintro rfl
    revert blank
    decide
  simp [cutsAt, other]

theorem eq_outside_of_cutsAt (cuts : enclosure.cutsAt separator c = true) : enclosure = outside := by
  obtain ⟨depth, quote⟩ := enclosure
  simp only [cutsAt, Bool.and_eq_true, decide_eq_true_eq, Option.isNone_iff_eq_none] at cuts
  rw [cuts.1.1.1, cuts.1.2]
  rfl

theorem eq_separator_of_cutsAt (cuts : enclosure.cutsAt separator c = true) : c = separator := by
  simp only [cutsAt, Bool.and_eq_true, decide_eq_true_eq] at cuts
  exact cuts.1.1.2

theorem next_of_cutsAt (cuts : enclosure.cutsAt separator c = true) : enclosure.next c = enclosure := by
  refine next_of_plain ?_ (by rw [eq_outside_of_cutsAt cuts]; rfl)
  simp only [cutsAt, Bool.and_eq_true, Bool.not_eq_true', Bool.or_eq_false_iff,
    decide_eq_false_iff_not] at cuts
  simp [cuts.2]

/-- Only quotes open a quote. -/
theorem isBlank_quote (enclosure : Enclosure)
    (visible : ∀ mark ∈ enclosure.quote, Chars.isBlank mark = false) (text : List Char) :
    ∀ mark ∈ (enclosure.after text).quote, Chars.isBlank mark = false := by
  induction text generalizing enclosure with
  | nil => exact visible
  | cons c text ih =>
    refine ih _ fun mark quoted => ?_
    unfold next at quoted
    split at quoted
    · split at quoted
      · cases quoted
      · exact visible mark quoted
    · split at quoted
      · rename_i quote
        obtain rfl := Option.some.inj quoted
        rcases quote with rfl | rfl <;> decide
      · exact visible mark (by split_ifs at quoted <;> exact quoted)

theorem isBlank_quote_outside : ∀ mark ∈ outside.quote, Chars.isBlank mark = false := by
  intro mark quoted
  cases quoted

def deeper (enclosure : Enclosure) (depth : Int32) : Enclosure :=
  { enclosure with depth := enclosure.depth + depth }

@[simp]
theorem deeper_zero (enclosure : Enclosure) : enclosure.deeper 0 = enclosure := by simp [deeper]

theorem next_deeper (enclosure : Enclosure) (depth : Int32) (c : Char) :
    (enclosure.deeper depth).next c = (enclosure.next c).deeper depth := by
  obtain ⟨own, quote⟩ := enclosure
  unfold next deeper
  dsimp only
  cases quote with
  | some mark => dsimp only; split <;> rfl
  | none =>
    dsimp only
    split_ifs
    · rfl
    · exact congrArg (Enclosure.mk · none) (by grind)
    · exact congrArg (Enclosure.mk · none) (by grind)
    · rfl

/-- Outside of quotes nothing but the depth matters. -/
theorem eq_deeper (unquoted : enclosure.quote = none) : enclosure = outside.deeper enclosure.depth := by
  obtain ⟨depth, quote⟩ := enclosure
  simp_all [deeper, outside]

/-- At most so many brackets are open. -/
def Within (enclosure : Enclosure) (most : Nat) : Prop :=
  0 ≤ enclosure.depth.toInt ∧ enclosure.depth.toInt ≤ most

theorem within_outside (most : Nat) : outside.Within most := ⟨le_refl 0, Int.natCast_nonneg most⟩

theorem Within.weaken (within : enclosure.Within most) (more : most ≤ total) : enclosure.Within total :=
  ⟨within.1, within.2.trans (Int.ofNat_le.mpr more)⟩

theorem within_deeper_outside : (outside.deeper depth).Within extra ↔ 0 ≤ depth.toInt ∧ depth.toInt ≤ extra := by
  have same : (outside.deeper depth).depth = depth := Int32.zero_add depth
  rw [Within, same]

/-- Depths add up as long as the sum is a machine number. -/
theorem toInt_deeper (within : enclosure.Within most) (inside : (outside.deeper depth).Within extra)
    (fits : most + extra < 2 ^ 31) :
    (enclosure.deeper depth).depth.toInt = enclosure.depth.toInt + depth.toInt := by
  obtain ⟨least, greatest⟩ := within
  obtain ⟨innerLeast, innerGreatest⟩ := within_deeper_outside.mp inside
  rw [Enclosure.deeper, Int32.toInt_add, Int.bmod_eq_of_le] <;> omega

theorem Within.deeper (within : enclosure.Within most) (inside : (outside.deeper depth).Within extra)
    (fits : most + extra < 2 ^ 31) : (enclosure.deeper depth).Within (most + extra) := by
  have sum := toInt_deeper within inside fits
  obtain ⟨least, greatest⟩ := within
  obtain ⟨innerLeast, innerGreatest⟩ := within_deeper_outside.mp inside
  exact ⟨by omega, by omega⟩

theorem eq_zero_of_deeper (within : enclosure.Within most) (inside : (outside.deeper depth).Within extra)
    (fits : most + extra < 2 ^ 31) (top : enclosure.deeper depth = outside) : depth = 0 := by
  have sum := toInt_deeper within inside fits
  have none : outside.depth.toInt = 0 := rfl
  rw [top, none] at sum
  obtain ⟨least, -⟩ := within
  obtain ⟨innerLeast, -⟩ := within_deeper_outside.mp inside
  apply Int32.toInt_inj.mp
  rw [Int32.toInt_zero]
  omega

/-- From the enclosure on, no bracket closes what is not open, no more are open than `most`, in quotes stands
only what is quotable, and in the end all is closed. -/
def Closed (quotable : Char → Prop) (most : Nat) : Enclosure → List Char → Prop
  | enclosure, [] => enclosure = outside
  | enclosure, c :: rest =>
    enclosure.Within most ∧ (enclosure.quote = none ∨ quotable c) ∧
      Closed quotable most (enclosure.next c) rest

theorem Closed.weaken {others : Char → Prop} (closed : enclosure.Closed quotable most text)
    (more : ∀ c, quotable c → others c) (deep : most ≤ total) : enclosure.Closed others total text := by
  induction text generalizing enclosure with
  | nil => exact closed
  | cons c rest ih =>
    obtain ⟨depth, quoted, closed⟩ := closed
    exact ⟨depth.weaken deep, quoted.imp_right (more c), ih closed⟩

theorem Closed.after_eq (closed : enclosure.Closed quotable most text) : enclosure.after text = outside := by
  induction text generalizing enclosure with
  | nil => exact closed
  | cons c rest ih => exact ih closed.2.2

/-- What is closed stays so inside of more brackets. -/
theorem Closed.append_deeper (closed : enclosure.Closed quotable most text)
    (deep : (outside.deeper depth).Within extra) (fits : most + extra < 2 ^ 31)
    (more : (outside.deeper depth).Closed quotable (most + extra) rest) :
    (enclosure.deeper depth).Closed quotable (most + extra) (text ++ rest) := by
  induction text generalizing enclosure with
  | nil =>
    obtain rfl : enclosure = outside := closed
    exact more
  | cons c text ih =>
    obtain ⟨least, quoted, closed⟩ := closed
    exact ⟨least.deeper deep fits, quoted, by rw [next_deeper]; exact ih closed⟩

theorem Closed.append (closed : enclosure.Closed quotable most text) (more : outside.Closed quotable most rest) :
    enclosure.Closed quotable most (text ++ rest) := by
  induction text generalizing enclosure with
  | nil =>
    obtain rfl : enclosure = outside := closed
    exact more
  | cons c text ih => exact ⟨closed.1, closed.2.1, ih closed.2.2⟩

/-- A part that leads back outside is closed itself. -/
theorem Closed.of_append (closed : enclosure.Closed quotable most (text ++ rest))
    (ends : enclosure.after text = outside) : enclosure.Closed quotable most text := by
  induction text generalizing enclosure with
  | nil => exact ends
  | cons c text ih => exact ⟨closed.1, closed.2.1, ih closed.2.2 ends⟩

end Enclosure

namespace Chars

open Enclosure (outside)

/-- No cut in a text. -/
def Uncut (separator : Char) (enclosure : Enclosure) (text : List Char) : Prop :=
  topLevelPieces separator enclosure text = [text]

def extendPiece (text : List Char) : List (List Char) → List (List Char)
  | [] => [text]
  | piece :: rest => (text ++ piece) :: rest

section Pieces

variable {separator : Char} {enclosure : Enclosure} {text rest : List Char} {c : Char}

theorem exists_topLevelPieces (separator : Char) (enclosure : Enclosure) (text : List Char) :
    ∃ first others, topLevelPieces separator enclosure text = first :: others := by
  cases text with
  | nil => exact ⟨[], [], rfl⟩
  | cons c rest =>
    rw [topLevelPieces]
    split
    · exact ⟨_, _, rfl⟩
    · cases topLevelPieces separator (enclosure.next c) rest <;> exact ⟨_, _, rfl⟩

theorem topLevelPieces_of_cut (cuts : enclosure.cutsAt separator c = true) (rest : List Char) :
    topLevelPieces separator enclosure (c :: rest) = [] :: topLevelPieces separator enclosure rest := by
  rw [topLevelPieces, if_pos cuts]

theorem topLevelPieces_of_uncut (uncut : enclosure.cutsAt separator c = false) (rest : List Char) :
    topLevelPieces separator enclosure (c :: rest) =
      extendFirst c (topLevelPieces separator (enclosure.next c) rest) := by
  rw [topLevelPieces, if_neg (by simp [uncut])]

theorem uncut_cons : Uncut separator enclosure (c :: text) ↔
    enclosure.cutsAt separator c = false ∧ Uncut separator (enclosure.next c) text := by
  obtain ⟨first, others, same⟩ := exists_topLevelPieces separator (enclosure.next c) text
  unfold Uncut
  rw [topLevelPieces, same]
  split
  · rename_i cuts
    simp [cuts]
  · rename_i uncut
    simp [uncut, extendFirst]

theorem topLevelPieces_append (uncut : Uncut separator enclosure text) (rest : List Char) :
    topLevelPieces separator enclosure (text ++ rest) =
      extendPiece text (topLevelPieces separator (enclosure.after text) rest) := by
  induction text generalizing enclosure with
  | nil =>
    obtain ⟨first, others, same⟩ := exists_topLevelPieces separator enclosure rest
    change topLevelPieces separator enclosure rest = extendPiece [] (topLevelPieces separator enclosure rest)
    rw [same]
    rfl
  | cons c text ih =>
    obtain ⟨here, behind⟩ := uncut_cons.mp uncut
    obtain ⟨first, others, same⟩ :=
      exists_topLevelPieces separator ((enclosure.next c).after text) rest
    have step : enclosure.after (c :: text) = (enclosure.next c).after text := rfl
    rw [List.cons_append, topLevelPieces, here, if_neg (by simp), ih behind, step, same]
    rfl

theorem Uncut.of_append (uncut : Uncut separator enclosure (text ++ rest)) :
    Uncut separator enclosure text := by
  induction text generalizing enclosure with
  | nil => rfl
  | cons c text ih =>
    obtain ⟨here, behind⟩ := uncut_cons.mp uncut
    exact uncut_cons.mpr ⟨here, ih behind⟩

/-- The first piece goes up to the first cut. -/
theorem topLevelPieces_first (separator : Char) (enclosure : Enclosure) (text : List Char) :
    ∃ first others, topLevelPieces separator enclosure text = first :: others ∧
      Uncut separator enclosure first ∧
      (text = first ∨ ∃ more, text = first ++ separator :: more ∧
        (enclosure.after first).cutsAt separator separator = true) := by
  induction text generalizing enclosure with
  | nil => exact ⟨[], [], rfl, rfl, .inl rfl⟩
  | cons c rest ih =>
    rw [topLevelPieces]
    split
    · rename_i cuts
      obtain rfl := Enclosure.eq_separator_of_cutsAt cuts
      exact ⟨[], _, rfl, rfl, .inr ⟨rest, rfl, cuts⟩⟩
    · rename_i whole
      obtain ⟨first, others, same, uncut, ends⟩ := ih (enclosure.next c)
      refine ⟨c :: first, others, by rw [same]; rfl, uncut_cons.mpr ⟨by simpa using whole, uncut⟩, ?_⟩
      rcases ends with rfl | ⟨more, rfl, cuts⟩
      · exact .inl rfl
      · exact .inr ⟨more, rfl, cuts⟩

theorem uncut_blanks {blanks : List Char} (blank : ∀ b ∈ blanks, isBlank b = true)
    (enclosure : Enclosure) : Uncut ',' enclosure blanks := by
  induction blanks generalizing enclosure with
  | nil => rfl
  | cons b blanks ih =>
    obtain ⟨here, behind⟩ := List.forall_mem_cons.mp blank
    exact uncut_cons.mpr ⟨Enclosure.cutsAt_of_blank here, ih behind _⟩

theorem after_blanks {blanks : List Char} (blank : ∀ b ∈ blanks, isBlank b = true)
    (visible : ∀ mark ∈ enclosure.quote, isBlank mark = false) : enclosure.after blanks = enclosure := by
  induction blanks with
  | nil => rfl
  | cons b blanks ih =>
    obtain ⟨here, behind⟩ := List.forall_mem_cons.mp blank
    change (enclosure.next b).after blanks = enclosure
    rw [Enclosure.next_of_blank visible here, ih behind]

/-- Cutting goes on behind a cut as it began. -/
theorem topLevelPieces_cut (cuts : (enclosure.after text).cutsAt separator separator = true) :
    topLevelPieces separator enclosure (text ++ separator :: rest) =
      topLevelPieces separator enclosure text ++ topLevelPieces separator outside rest := by
  induction text generalizing enclosure with
  | nil =>
    change enclosure.cutsAt separator separator = true at cuts
    rw [List.nil_append, topLevelPieces_of_cut cuts, Enclosure.eq_outside_of_cutsAt cuts]
    rfl
  | cons c text ih =>
    change ((enclosure.next c).after text).cutsAt separator separator = true at cuts
    rw [List.cons_append, topLevelPieces, topLevelPieces]
    split
    · rename_i here
      rw [Enclosure.next_of_cutsAt here] at cuts
      rw [ih cuts, List.cons_append]
    · obtain ⟨first, others, same⟩ := exists_topLevelPieces separator (enclosure.next c) text
      rw [ih cuts, same]
      rfl

/-- Blanks at its end only make the last piece longer. -/
theorem map_trimEnd_topLevelPieces {blanks : List Char} (blank : ∀ b ∈ blanks, isBlank b = true)
    (enclosure : Enclosure) (text : List Char) :
    (topLevelPieces ',' enclosure (text ++ blanks)).map trimEnd =
      (topLevelPieces ',' enclosure text).map trimEnd := by
  induction text generalizing enclosure with
  | nil =>
    rw [List.nil_append, uncut_blanks blank]
    exact congrArg (fun piece => [piece]) (trimEnd_blanks blank [])
  | cons c text ih =>
    rw [List.cons_append, topLevelPieces, topLevelPieces]
    split
    · rw [List.map_cons, List.map_cons, ih]
    · obtain ⟨first, others, whole⟩ := exists_topLevelPieces ',' (enclosure.next c) (text ++ blanks)
      obtain ⟨shorter, more, part⟩ := exists_topLevelPieces ',' (enclosure.next c) text
      have same := ih (enclosure.next c)
      rw [whole, part, List.map_cons, List.map_cons, List.cons.injEq] at same
      rw [whole, part]
      change trimEnd (c :: first) :: others.map trimEnd = trimEnd (c :: shorter) :: more.map trimEnd
      rw [← trimEnd_cons_trimEnd, same.1, trimEnd_cons_trimEnd, same.2]

/-- `collapse` done to pieces, of which the first stands behind a blank or not. -/
def collapsePieces (after : Bool) : List (List Char) → List (List Char)
  | [] => []
  | first :: others => collapseFrom after first :: others.map collapse

theorem topLevelPieces_collapseFrom (visible : ∀ mark ∈ enclosure.quote, isBlank mark = false)
    (after : Bool) (text : List Char) :
    topLevelPieces ',' enclosure (collapseFrom after text) =
      collapsePieces after (topLevelPieces ',' enclosure text) := by
  induction text generalizing enclosure after with
  | nil => rfl
  | cons c rest ih =>
    have later := ih (Enclosure.isBlank_quote enclosure visible [c])
    change ∀ after, topLevelPieces ',' (enclosure.next c) (collapseFrom after rest) =
      collapsePieces after (topLevelPieces ',' (enclosure.next c) rest) at later
    obtain ⟨first, others, same⟩ := exists_topLevelPieces ',' (enclosure.next c) rest
    rw [same] at later
    rw [collapseFrom]
    cases blank : isBlank c with
    | true =>
      have next : enclosure.next c = enclosure := Enclosure.next_of_blank visible blank
      have space : enclosure.next ' ' = enclosure := Enclosure.next_of_blank visible rfl
      rw [topLevelPieces_of_uncut (Enclosure.cutsAt_of_blank blank), same, if_pos rfl]
      rw [next] at later
      cases after with
      | true => rw [if_pos rfl, later true, extendFirst, collapsePieces, collapsePieces, collapseFrom, blank]; rfl
      | false =>
        rw [if_neg (by decide), topLevelPieces_of_uncut (Enclosure.cutsAt_of_blank rfl), space, later true,
          extendFirst, collapsePieces, collapsePieces, collapseFrom, blank]
        rfl
    | false =>
      rw [if_neg (by decide)]
      cases cuts : enclosure.cutsAt ',' c with
      | true =>
        rw [Enclosure.next_of_cutsAt cuts] at later same
        rw [topLevelPieces_of_cut cuts, topLevelPieces_of_cut cuts, later false, same]
        rfl
      | false =>
        rw [topLevelPieces_of_uncut cuts, topLevelPieces_of_uncut cuts, later false, same, extendFirst,
          collapsePieces, collapsePieces, collapseFrom, blank]
        rfl

end Pieces

section Parts

variable {quotable : Char → Prop} {enclosure : Enclosure} {text rest : List Char}

theorem splitTopLevel_cut (ends : outside.after text = outside) (rest : List Char) :
    splitTopLevel ',' (text ++ ',' :: rest) = splitTopLevel ',' text ++ splitTopLevel ',' rest := by
  rw [splitTopLevel, topLevelPieces_cut (by rw [ends]; decide), List.map_append]
  rfl

theorem splitTopLevel_of_blank {b : Char} (blank : isBlank b = true) (text : List Char) :
    splitTopLevel ',' (b :: text) = splitTopLevel ',' text := by
  obtain ⟨first, others, same⟩ := exists_topLevelPieces ',' outside text
  rw [splitTopLevel, topLevelPieces_of_uncut (Enclosure.cutsAt_of_blank blank),
    Enclosure.next_of_blank Enclosure.isBlank_quote_outside blank, splitTopLevel, same]
  have shorter : trim (b :: first) = trim first :=
    congrArg trimEnd (List.dropWhile_cons_of_pos blank)
  rw [extendFirst, List.map_cons, List.map_cons, shorter]

theorem splitTopLevel_trimStart (text : List Char) :
    splitTopLevel ',' (trimStart text) = splitTopLevel ',' text := by
  induction text with
  | nil => rfl
  | cons c rest ih =>
    cases blank : isBlank c with
    | true =>
      rw [splitTopLevel_of_blank blank, ← ih]
      exact congrArg (splitTopLevel ',') (List.dropWhile_cons_of_pos blank)
    | false => exact congrArg (splitTopLevel ',') (List.dropWhile_cons_of_neg (by simp [blank]))

theorem splitTopLevel_trimEnd (text : List Char) :
    splitTopLevel ',' (trimEnd text) = splitTopLevel ',' text := by
  have trims : trim = trim ∘ trimEnd := funext fun piece => (trim_trimEnd piece).symm
  obtain ⟨blanks, blank, whole⟩ := exists_blanks text
  nth_rewrite 2 [whole]
  rw [splitTopLevel, splitTopLevel, trims, ← List.map_map, ← List.map_map,
    map_trimEnd_topLevelPieces blank]

theorem splitTopLevel_trim (text : List Char) : splitTopLevel ',' (trim text) = splitTopLevel ',' text := by
  rw [trim, splitTopLevel_trimEnd, splitTopLevel_trimStart]

theorem splitTopLevel_collapse (text : List Char) :
    splitTopLevel ',' (collapse text) = (splitTopLevel ',' text).map collapse := by
  obtain ⟨first, others, same⟩ := exists_topLevelPieces ',' outside text
  rw [splitTopLevel, collapse, topLevelPieces_collapseFrom Enclosure.isBlank_quote_outside, splitTopLevel, same]
  simp [collapsePieces, collapse, trim_collapseFrom]

/-- Parts that are joined are cut apart again if each closes what it opens. -/
theorem splitTopLevel_intercalate {parts : List (List Char)} (some : parts ≠ [])
    (ends : ∀ part ∈ parts, outside.after part = outside) :
    splitTopLevel ',' ([',', ' '].intercalate parts) = parts.flatMap (splitTopLevel ',') := by
  induction parts with
  | nil => exact absurd rfl some
  | cons first rest ih =>
    obtain ⟨here, behind⟩ := List.forall_mem_cons.mp ends
    cases rest with
    | nil => simp
    | cons second rest =>
      rw [List.intercalate_cons_cons, List.append_assoc, List.cons_append, splitTopLevel_cut here,
        List.singleton_append, splitTopLevel_of_blank rfl, ih (List.cons_ne_nil _ _) behind]
      rfl

end Parts

section Groups

variable {quotable : Char → Prop} {enclosure : Enclosure} {text rest group : List Char}
  {most extra total : Nat} {depth : Int32}

theorem closed_intercalate {parts : List (List Char)}
    (closed : ∀ part ∈ parts, outside.Closed (fun _ => True) most part) :
    outside.Closed (fun _ => True) most ([',', ' '].intercalate parts) := by
  induction parts with
  | nil => rfl
  | cons first rest ih =>
    obtain ⟨here, behind⟩ := List.forall_mem_cons.mp closed
    cases rest with
    | nil => simpa using here
    | cons second rest =>
      rw [List.intercalate_cons_cons, List.append_assoc]
      have comma : outside.Closed (fun _ => True) most [',', ' '] :=
        ⟨Enclosure.within_outside most, .inl rfl, Enclosure.within_outside most, .inl rfl, rfl⟩
      exact here.append (comma.append (ih behind))

structure Group (quotable : Char → Prop) (most : Nat) (group : List Char) : Prop where
  closed : outside.Closed quotable most group
  uncut : Uncut ',' outside group
  flush : Flush group

theorem Group.split_eq (alone : Group quotable most group) : splitTopLevel ',' group = [group] := by
  rw [splitTopLevel, alone.uncut]
  exact congrArg (fun piece => [piece]) alone.flush.trim_eq

theorem Uncut.append_deeper (uncut : Uncut ',' enclosure text)
    (closed : enclosure.Closed quotable most text) (deep : (outside.deeper depth).Within extra)
    (fits : most + extra < 2 ^ 31) (more : Uncut ',' (outside.deeper depth) rest) :
    Uncut ',' (enclosure.deeper depth) (text ++ rest) := by
  induction text generalizing enclosure with
  | nil =>
    obtain rfl : enclosure = outside := closed
    exact more
  | cons c text ih =>
    obtain ⟨least, quoted, closed⟩ := closed
    obtain ⟨here, behind⟩ := uncut_cons.mp uncut
    refine uncut_cons.mpr ⟨Bool.eq_false_iff.mpr fun cuts => ?_, ?_⟩
    · have unbracketed := Enclosure.eq_zero_of_deeper least deep fits (Enclosure.eq_outside_of_cutsAt cuts)
      rw [unbracketed, Enclosure.deeper_zero, here] at cuts
      cases cuts
    · rw [Enclosure.next_deeper]
      exact ih behind closed

theorem Uncut.append (uncut : Uncut ',' enclosure text) (closed : enclosure.Closed quotable most text)
    (more : Uncut ',' outside rest) : Uncut ',' enclosure (text ++ rest) := by
  rw [Uncut, topLevelPieces_append uncut, closed.after_eq, more]
  rfl

theorem Group.trim (closed : outside.Closed quotable most text) (uncut : Uncut ',' outside text) :
    Group quotable most (trim text) := by
  have started : outside.Closed quotable most (trimStart text) ∧ Uncut ',' outside (trimStart text) := by
    induction text with
    | nil => exact ⟨closed, uncut⟩
    | cons c rest ih =>
      cases blank : isBlank c with
      | false =>
        rw [trimStart, List.dropWhile_cons_of_neg (by simp [blank])]
        exact ⟨closed, uncut⟩
      | true =>
        rw [trimStart, List.dropWhile_cons_of_pos blank]
        obtain ⟨-, -, closed⟩ := closed
        obtain ⟨-, uncut⟩ := uncut_cons.mp uncut
        rw [Enclosure.next_of_blank Enclosure.isBlank_quote_outside blank] at closed uncut
        exact ih closed uncut
  obtain ⟨closed, uncut⟩ := started
  obtain ⟨blanks, blank, whole⟩ := exists_blanks (trimStart text)
  have ends := closed.after_eq
  rw [whole, Enclosure.after_append, after_blanks blank
    (Enclosure.isBlank_quote outside Enclosure.isBlank_quote_outside _)] at ends
  rw [whole] at closed uncut
  exact ⟨closed.of_append ends, uncut.of_append, flush_trim text⟩

theorem closed_collapseFrom (closed : enclosure.Closed quotable most text) (space : quotable ' ')
    (visible : ∀ mark ∈ enclosure.quote, isBlank mark = false) (after : Bool) :
    enclosure.Closed quotable most (collapseFrom after text) := by
  induction text generalizing enclosure after with
  | nil => exact closed
  | cons c rest ih =>
    obtain ⟨least, quoted, closed⟩ := closed
    rw [Chars.collapseFrom]
    split
    · rename_i blank
      rw [Enclosure.next_of_blank visible blank] at closed
      split
      · exact ih closed visible true
      · refine ⟨least, .inr space, ?_⟩
        rw [Enclosure.next_of_blank visible rfl]
        exact ih closed visible true
    · exact ⟨least, quoted, ih closed (Enclosure.isBlank_quote enclosure visible [c]) false⟩

theorem Group.collapse (alone : Group quotable most group) (space : quotable ' ') :
    Group quotable most (collapse group) where
  closed := closed_collapseFrom alone.closed space Enclosure.isBlank_quote_outside false
  uncut := by
    rw [Uncut, Chars.collapse, topLevelPieces_collapseFrom Enclosure.isBlank_quote_outside, alone.uncut]
    rfl
  flush := alone.flush.collapse

theorem closed_topLevelPieces (closed : enclosure.Closed quotable most text) :
    ∃ first others, topLevelPieces ',' enclosure text = first :: others ∧
      (enclosure.Closed quotable most first ∧ Uncut ',' enclosure first) ∧
      ∀ piece ∈ others, outside.Closed quotable most piece ∧ Uncut ',' outside piece := by
  induction text generalizing enclosure with
  | nil => exact ⟨[], [], rfl, ⟨closed, rfl⟩, nofun⟩
  | cons c rest ih =>
    obtain ⟨least, quoted, closed⟩ := closed
    obtain ⟨first, others, same, start, later⟩ := ih closed
    cases cuts : enclosure.cutsAt ',' c with
    | true =>
      rw [Enclosure.next_of_cutsAt cuts, Enclosure.eq_outside_of_cutsAt cuts] at same start
      rw [topLevelPieces_of_cut cuts, Enclosure.eq_outside_of_cutsAt cuts, same]
      exact ⟨[], first :: others, rfl, ⟨rfl, rfl⟩, List.forall_mem_cons.mpr ⟨start, later⟩⟩
    | false =>
      rw [topLevelPieces_of_uncut cuts, same]
      exact ⟨c :: first, others, rfl, ⟨⟨least, quoted, start.1⟩, uncut_cons.mpr ⟨cuts, start.2⟩⟩, later⟩

/-- The parts of a closed text are closed, and no part is cut again. -/
theorem group_of_mem_splitTopLevel (closed : outside.Closed quotable most text)
    (member : group ∈ splitTopLevel ',' text) : Group quotable most group := by
  obtain ⟨piece, found, rfl⟩ := List.mem_map.mp member
  obtain ⟨first, others, same, start, later⟩ := closed_topLevelPieces closed
  have each : ∀ piece ∈ first :: others, outside.Closed quotable most piece ∧ Uncut ',' outside piece :=
    List.forall_mem_cons.mpr ⟨start, later⟩
  rw [same] at found
  exact .trim (each piece found).1 (each piece found).2

section Substitution

variable {sign : Char} {outer : List Char}

/-- Where a character stands in no quotes, as many brackets are open as the depth says. -/
theorem within_deeper (least : enclosure.Within most) (unquoted : enclosure.quote = none) :
    (outside.deeper enclosure.depth).Within most := by
  rwa [← Enclosure.eq_deeper unquoted]

/-- What replaces a character that stands in no quotes opens and closes nothing for the rest. -/
theorem closed_substitute (closed : enclosure.Closed (· ≠ sign) most text)
    (plain : sign ∉ ['"', '\'', '(', ')', '[', ']']) (around : outside.Closed (fun _ => True) extra outer)
    (fits : extra + most < 2 ^ 31) :
    enclosure.Closed (fun _ => True) (extra + most) (substitute sign outer text) := by
  induction text generalizing enclosure with
  | nil => exact closed
  | cons c rest ih =>
    obtain ⟨least, quoted, closed⟩ := closed
    rw [substitute, List.flatMap_cons]
    split
    · rename_i same
      have unquoted : enclosure.quote = none := quoted.resolve_right fun other => other same
      have place := Enclosure.eq_deeper unquoted
      rw [same, Enclosure.next_of_plain plain unquoted] at closed
      rw [place]
      exact around.append_deeper (within_deeper least unquoted) fits (place ▸ ih closed)
    · exact ⟨least.weaken (Nat.le_add_left _ _), .inr trivial, ih closed⟩

theorem uncut_substitute (uncut : Uncut ',' enclosure text) (closed : enclosure.Closed (· ≠ sign) most text)
    (plain : sign ∉ ['"', '\'', '(', ')', '[', ']']) (around : Group (fun _ => True) extra outer)
    (fits : extra + most < 2 ^ 31) : Uncut ',' enclosure (substitute sign outer text) := by
  induction text generalizing enclosure with
  | nil => exact uncut
  | cons c rest ih =>
    obtain ⟨here, behind⟩ := uncut_cons.mp uncut
    obtain ⟨least, quoted, closed⟩ := closed
    rw [substitute, List.flatMap_cons]
    split
    · rename_i same
      have unquoted : enclosure.quote = none := quoted.resolve_right fun other => other same
      have place := Enclosure.eq_deeper unquoted
      rw [same, Enclosure.next_of_plain plain unquoted] at closed behind
      rw [place]
      exact around.uncut.append_deeper around.closed (within_deeper least unquoted) fits
        (place ▸ ih behind closed)
    · exact uncut_cons.mpr ⟨here, ih behind closed⟩

theorem Group.substitute {inner : List Char} (inside : Group (· ≠ sign) most inner)
    (plain : sign ∉ ['"', '\'', '(', ')', '[', ']']) (around : Group (fun _ => True) extra outer)
    (fits : extra + most < 2 ^ 31) (some : outer ≠ []) :
    Group (fun _ => True) (extra + most) (substitute sign outer inner) where
  closed := closed_substitute inside.closed plain around.closed fits
  uncut := uncut_substitute inside.uncut inside.closed plain around fits
  flush := inside.flush.substitute around.flush some

end Substitution

/-- Quotes are closed and brackets are pairs. A quote ends at the next mark of its kind, and holds nothing
that is not quotable. -/
inductive WellNested (quotable : Char → Prop) : List Char → Prop where
  | nil : WellNested quotable []
  | letter {c : Char} {rest : List Char} (plain : c ∉ ['"', '\'', '(', ')', '[', ']'])
      (more : WellNested quotable rest) : WellNested quotable (c :: rest)
  | quoted {mark : Char} {inside rest : List Char} (quote : mark = '"' ∨ mark = '\'')
      (held : ∀ c ∈ inside, c ≠ mark ∧ quotable c) (more : WellNested quotable rest) :
      WellNested quotable (mark :: (inside ++ mark :: rest))
  | bracketed {opening closing : Char} {inside rest : List Char}
      (pair : (opening, closing) = ('(', ')') ∨ (opening, closing) = ('[', ']'))
      (within : WellNested quotable inside) (more : WellNested quotable rest) :
      WellNested quotable (opening :: (inside ++ closing :: rest))

theorem WellNested.letters {letters : List Char}
    (plain : letters.all (fun c => c ∉ ['"', '\'', '(', ')', '[', ']']) = true)
    (more : WellNested quotable rest) : WellNested quotable (letters ++ rest) := by
  induction letters with
  | nil => exact more
  | cons c letters ih =>
    rw [List.all_cons, Bool.and_eq_true, decide_eq_true_eq] at plain
    exact .letter plain.1 (ih plain.2)

theorem WellNested.string {mark : Char} {inside : List Char} (quote : mark = '"' ∨ mark = '\'')
    (absent : mark ∉ inside) (more : WellNested (fun _ => True) rest) :
    WellNested (fun _ => True) (mark :: (inside ++ mark :: rest)) :=
  .quoted quote (fun _ member => ⟨ne_of_mem_of_not_mem member absent, trivial⟩) more

def openings (text : List Char) : Nat := text.countP fun c => c = '(' ∨ c = '['

theorem openings_append (text rest : List Char) : openings (text ++ rest) = openings text + openings rest :=
  List.countP_append

theorem closed_quoted {mark : Char} {inside : List Char} (marked : quotable mark)
    (held : ∀ c ∈ inside, c ≠ mark ∧ quotable c)
    (closed : outside.Closed quotable most rest) :
    (⟨0, some mark⟩ : Enclosure).Closed quotable most (inside ++ mark :: rest) := by
  have unbracketed : (⟨0, some mark⟩ : Enclosure).Within most := Enclosure.within_outside most
  induction inside with
  | nil =>
    have shut : (⟨0, some mark⟩ : Enclosure).next mark = outside := by simp [Enclosure.next, outside]
    exact ⟨unbracketed, .inr marked, by rw [shut]; exact closed⟩
  | cons c inside ih =>
    obtain ⟨⟨other, here⟩, behind⟩ := List.forall_mem_cons.mp held
    have next : (⟨0, some mark⟩ : Enclosure).next c = ⟨0, some mark⟩ := by simp [Enclosure.next, other]
    exact ⟨unbracketed, .inr here, by rw [next]; exact ih behind⟩

theorem WellNested.closed (nested : WellNested quotable text)
    (marks : ∀ mark ∈ ['"', '\''], quotable mark) (few : openings text < 2 ^ 31) :
    outside.Closed quotable (openings text) text := by
  induction nested with
  | nil => rfl
  | @letter c rest plain _ ih =>
    have same : openings (c :: rest) = openings rest := by
      simp only [List.mem_cons, List.not_mem_nil, or_false, not_or] at plain
      exact List.countP_cons_of_neg (by simp [plain])
    rw [same] at few ⊢
    exact ⟨Enclosure.within_outside _, .inl rfl, by rw [Enclosure.next_of_plain plain rfl]; exact ih few⟩
  | @quoted mark inside rest quote held _ ih =>
    have next : outside.next mark = ⟨0, some mark⟩ := by simp [Enclosure.next, outside, quote]
    have fewer : openings rest ≤ openings (mark :: (inside ++ mark :: rest)) :=
      List.Sublist.countP_le (List.suffix_cons _ _ |>.trans (List.suffix_append _ _) |>.trans
        (List.suffix_cons _ _)).sublist
    have behind := (ih (fewer.trans_lt few)).weaken (fun _ held => held) fewer
    exact ⟨Enclosure.within_outside _, .inl rfl,
      by rw [next]; exact closed_quoted (marks mark (by simpa using quote)) held behind⟩
  | @bracketed opening closing inside rest pair _ _ within ih =>
    have opens : outside.next opening = outside.deeper 1 := by
      rcases pair with pair | pair <;> cases pair <;> decide
    have closes : (outside.deeper 1).next closing = outside := by
      rcases pair with pair | pair <;> cases pair <;> decide
    have deep : (outside.deeper 1).Within 1 := Enclosure.within_deeper_outside.mpr (by decide)
    have count : openings (opening :: (inside ++ closing :: rest)) = openings inside + 1 + openings rest := by
      have first : openings (opening :: (inside ++ closing :: rest)) =
          openings (inside ++ closing :: rest) + 1 :=
        List.countP_cons_of_pos (by rcases pair with pair | pair <;> cases pair <;> decide)
      have last : openings (closing :: rest) = openings rest :=
        List.countP_cons_of_neg (by rcases pair with pair | pair <;> cases pair <;> decide)
      rw [first, openings_append, last]
      omega
    rw [count] at few ⊢
    have held := (within (by omega)).weaken (fun _ held => held) (show _ ≤ openings inside + openings rest by omega)
    have behind := (ih (by omega)).weaken (fun _ held => held)
      (show _ ≤ openings inside + openings rest + 1 by omega)
    have whole : openings inside + 1 + openings rest = openings inside + openings rest + 1 := by omega
    rw [whole] at few ⊢
    refine ⟨Enclosure.within_outside _, .inl rfl, ?_⟩
    rw [opens]
    exact held.append_deeper deep few ⟨deep.weaken (by omega), .inl rfl, by rw [closes]; exact behind⟩

end Groups

end Chars

end Scss
