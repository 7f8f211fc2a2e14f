import Scss.Proofs.Cutting.Parts
import Scss.Proofs.Grammar.Numbers
import Scss.Reflow.Gradient

/-! Arguments of gradients put together again. A segment joins the text before it only if it looks like a
side, a position or an angle unit, and no text that came together looks like one of these. So nothing joins
any more when the arguments are put together a second time. -/
namespace Scss

namespace Chars

open Enclosure (outside)

section Words

variable {text : List Char} {c : Char}

theorem foldr_pushWord (word : List Char) (words : List (List Char)) (text : List Char) :
    ∃ first more, text.foldr pushWord [word] = first :: more ∧
      text.foldr pushWord (word :: words) = first :: more ++ words := by
  induction text with
  | nil => exact ⟨word, [], rfl, rfl⟩
  | cons c text ih =>
    obtain ⟨first, more, alone, whole⟩ := ih
    rw [List.foldr_cons, List.foldr_cons, alone, whole]
    cases blank : isBlank c with
    | true => exact ⟨[], first :: more, by simp [pushWord, blank], by simp [pushWord, blank]⟩
    | false => exact ⟨c :: first, more, by simp [pushWord, blank], by simp [pushWord, blank]⟩

/-- A blank ends a word. -/
theorem words_blank (blank : isBlank c = true) (text rest : List Char) :
    words (text ++ c :: rest) = words text ++ words rest := by
  obtain ⟨first, more, behind, -⟩ := foldr_pushWord [] [] rest
  obtain ⟨start, others, before, whole⟩ := foldr_pushWord [] (first :: more) text
  rw [words, words, words, List.foldr_append, List.foldr_cons, behind, before, ← List.filter_append, ← whole]
  simp [pushWord, blank]

/-- A text without blanks is a word. -/
theorem words_of_visible (visible : ∀ c ∈ text, isBlank c = false) (some : text ≠ []) : words text = [text] := by
  have whole : text.foldr pushWord [[]] = [text] := by
    clear some
    induction text with
    | nil => rfl
    | cons c text ih =>
      obtain ⟨here, behind⟩ := List.forall_mem_cons.mp visible
      rw [List.foldr_cons, ih behind]
      simp [pushWord, here]
  rw [words, whole]
  simp [some]

theorem head_words (visible : isBlank c = false) (text : List Char) :
    ∃ word more, words (c :: text) = (c :: word) :: more := by
  obtain ⟨first, more, whole, -⟩ := foldr_pushWord [] [] text
  rw [words, List.foldr_cons, whole]
  exact ⟨first, more.filter fun word => !word.isEmpty, by simp [pushWord, visible]⟩

/-- A word is part of its text. -/
theorem mem_of_mem_words {word : List Char} (found : word ∈ words text) (inside : c ∈ word) : c ∈ text := by
  have parts : ∀ word ∈ text.foldr pushWord [[]], ∀ c ∈ word, c ∈ text := by
    clear found inside
    induction text with
    | nil => simp
    | cons d text ih =>
      obtain ⟨first, more, whole, -⟩ := foldr_pushWord [] [] text
      rw [List.foldr_cons, whole]
      rw [whole, List.forall_mem_cons] at ih
      have later (word : List Char) (member : word ∈ more) (c : Char) (inside : c ∈ word) : c ∈ d :: text :=
        List.mem_cons_of_mem d (ih.2 word member c inside)
      have start (c : Char) (inside : c ∈ first) : c ∈ d :: text := List.mem_cons_of_mem d (ih.1 c inside)
      cases blank : isBlank d with
      | true =>
        simp only [pushWord, blank, if_true, List.forall_mem_cons]
        exact ⟨nofun, start, later⟩
      | false =>
        simp only [pushWord, blank, Bool.false_eq_true, if_false, List.forall_mem_cons]
        exact ⟨⟨List.mem_cons_self, start⟩, later⟩
  exact parts word (List.mem_of_mem_filter found) c inside

end Words

/-- A text without separators has no cut, wherever it stands. -/
theorem uncut_of_not_mem {separator : Char} {text : List Char} (absent : separator ∉ text)
    (enclosure : Enclosure) : Uncut separator enclosure text := by
  induction text generalizing enclosure with
  | nil => rfl
  | cons c text ih =>
    rw [List.mem_cons, not_or] at absent
    refine uncut_cons.mpr ⟨Bool.eq_false_iff.mpr fun cuts => absent.1 ?_, ih absent.2 _⟩
    exact (Enclosure.eq_separator_of_cutsAt cuts).symm

end Chars

namespace Gradient

open Enclosure (outside)

def IsNumeral (c : Char) : Prop := c = '-' ∨ c = '.' ∨ Chars.isDecimal c = true

instance (c : Char) : Decidable (IsNumeral c) := inferInstanceAs (Decidable (_ ∨ _ ∨ _))

theorem ascii_of_isAlpha {c : Char} (letter : c.isAlpha = true) : c.toNat < 128 := by
  have capital : 'Z'.val.toNat = 90 := rfl
  have small : 'z'.val.toNat = 122 := rfl
  have last : c.val.toNat ≤ 122 := by
    rcases (Bool.or_eq_true ..).mp letter with upper | lower
    · have bound := UInt32.le_iff_toNat_le.mp (of_decide_eq_true upper).2
      omega
    · have bound := UInt32.le_iff_toNat_le.mp (of_decide_eq_true (Bool.and_eq_true_iff.mp lower).2)
      omega
  exact Nat.lt_of_le_of_lt last (by decide)

theorem not_isAlpha_of_numeral {c : Char} (numeral : IsNumeral c) : c.isAlpha = false := by
  rcases numeral with rfl | rfl | decimal
  · rfl
  · rfl
  · refine Bool.eq_false_iff.mpr fun letter => ?_
    rw [Chars.isDecimal, if_pos (ascii_of_isAlpha letter), Decimal.not_isDigit_of_isAlpha letter] at decimal
    cases decimal

/-- A text goes on with the rest behind characters of numbers. -/
def Passes (text rest : List Char) : Prop := ∃ number, text = number ++ rest ∧ ∀ c ∈ number, IsNumeral c

theorem Passes.cons {c : Char} {text rest : List Char} (numeral : IsNumeral c) (passes : Passes text rest) :
    Passes (c :: text) rest := by
  obtain ⟨number, rfl, all⟩ := passes
  exact ⟨c :: number, rfl, List.forall_mem_cons.mpr ⟨numeral, all⟩⟩

/-- Digits are passed. -/
theorem passes_digits {text rest : List Char} (passes : Passes (text.dropWhile Chars.isDecimal) rest) :
    Passes text rest := by
  obtain ⟨number, whole, all⟩ := passes
  refine ⟨text.takeWhile Chars.isDecimal ++ number, ?_, fun c member => ?_⟩
  · rw [List.append_assoc, ← whole, List.takeWhile_append_dropWhile]
  · rcases List.mem_append.mp member with digit | behind
    · exact .inr (.inr (List.mem_takeWhile_imp digit))
    · exact all c behind

/-- What is taken for a number has no other characters. -/
theorem passes_of_afterNumber? {text unit : List Char} (found : afterNumber? text = some unit) :
    Passes text unit := by
  have here (part : List Char) : Passes part part := ⟨[], rfl, nofun⟩
  have point : IsNumeral '.' := .inr (.inl rfl)
  unfold afterNumber? at found
  extract_lets unsigned rest at found
  have signed : Passes rest unit → Passes text unit := by
    intro passes
    have passes : Passes unsigned unit := passes_digits passes
    unfold unsigned at passes
    split at passes
    · exact .cons (.inl rfl) passes
    · exact passes
  apply signed
  generalize rest = rest at found
  split at found
  · split at found
    · rw [← Option.some.inj found]
      exact .cons point (passes_digits (here _))
    · exact Option.some.inj found ▸ here _
  · split at found
    · split at found
      · rename_i digit
        rw [← Option.some.inj found]
        exact .cons point (.cons (.inr (.inr digit)) (passes_digits (here _)))
      · cases found
    · cases found

/-- Letters are no blanks. -/
theorem visible_of_isAlpha {c : Char} (letter : c.isAlpha = true) : Chars.isBlank c = false := by
  have each : ∀ n < 128, (Char.ofNat n).isAlpha = true → Chars.isBlank (Char.ofNat n) = false := by decide
  have visible := each c.toNat (ascii_of_isAlpha letter)
  rw [Char.ofNat_toNat] at visible
  exact visible letter

section Looks

variable {text last segment number unit color : String}

theorem numeral_of_bare (bare : isBareNumber number = true) :
    number.toList ≠ [] ∧ ∀ c ∈ number.toList, IsNumeral c := by
  have found : afterNumber? number.toList = some [] := of_decide_eq_true bare
  obtain ⟨characters, whole, all⟩ := passes_of_afterNumber? found
  rw [List.append_nil] at whole
  rw [whole] at found ⊢
  refine ⟨fun none => ?_, all⟩
  rw [none] at found
  cases found

/-- A position is a number and one of the units. -/
theorem exists_of_position (position : isPosition text = true) :
    ∃ number unit, text.toList = number ++ unit ∧ (∀ c ∈ number, IsNumeral c) ∧
      String.ofList unit ∈ positionUnits := by
  rw [isPosition] at position
  split at position
  · rename_i unit found
    obtain ⟨number, whole, all⟩ := passes_of_afterNumber? found
    exact ⟨number, unit, whole, all, by simpa using position⟩
  · cases position

/-- How a colour looks. -/
theorem isColor_cases (hue : isColor color = true) :
    (∃ digits, color.toList = '#' :: digits ∧ ∀ d ∈ digits, Chars.isHexDigit d = true) ∨
      (color.toList ≠ [] ∧ ∀ c ∈ color.toList, c.isAlpha = true) ∨
      (∃ name ∈ colorFunctions, (name ++ "(").toList <+: color.toList) ∧ color.toList.getLast? = some ')' := by
  rw [isColor] at hue
  split at hue
  · rename_i digits whole
    simp only [Bool.and_eq_true, List.all_eq_true] at hue
    exact .inl ⟨digits, whole, hue.2⟩
  · simp only [Bool.or_eq_true, Bool.and_eq_true, Bool.not_eq_true', List.isEmpty_eq_false_iff, List.all_eq_true,
      List.any_eq_true, Text.startsWith, List.isPrefixOf_iff_prefix, decide_eq_true_eq] at hue
    rcases hue with letters | ⟨⟨call, ends⟩, -⟩
    · exact .inr (.inl letters)
    · exact .inr (.inr ⟨call, ends⟩)

theorem forall_dividers {p : Char → Prop} : (∀ c ∈ [' ', ',', ')'], p c) ↔ p ' ' ∧ p ',' ∧ p ')' := by
  simp

/-- Nothing that joins has a space, a comma or a closing parenthesis. -/
theorem plain_of_joins (joins : segment ∈ sides ∨ isPosition segment = true ∨ segment ∈ angleUnits) :
    ∀ c ∈ [' ', ',', ')'], c ∉ segment.toList := by
  rcases joins with side | position | angle
  · rw [forall_dividers]
    revert segment
    decide
  · obtain ⟨number, unit, whole, numerals, known⟩ := exists_of_position position
    intro c special member
    rw [whole, List.mem_append] at member
    rcases member with inside | inside
    · have other : ∀ c ∈ [' ', ',', ')'], ¬ IsNumeral c := forall_dividers.mpr (by decide)
      exact other c special (numerals c inside)
    · have other : ∀ unit ∈ positionUnits, ∀ c ∈ [' ', ',', ')'], c ∉ unit.toList := by
        simp only [forall_dividers]
        decide
      exact other _ known c special (by simpa using inside)
  · rw [forall_dividers]
    revert segment
    decide

theorem words_space (text rest : String) : Text.words (text ++ " " ++ rest) = Text.words text ++ Text.words rest := by
  have whole : (text ++ " " ++ rest).toList = text.toList ++ ' ' :: rest.toList := by simp
  rw [Text.words, whole, Chars.words_blank rfl, List.map_append]
  rfl

/-- The first word of a text starts as the text does. -/
theorem first_of_word {c : Char} {rest : List Char} {word : String} (whole : text.toList = c :: rest)
    (visible : Chars.isBlank c = false) (first : (Text.words text).head? = some word) : word.toList.head? = some c := by
  obtain ⟨behind, more, start⟩ := Chars.head_words visible rest
  rw [Text.words, whole, start, List.map_cons, List.head?_cons, Option.some.injEq] at first
  rw [← first, String.toList_ofList, List.head?_cons]

theorem mem_of_first_word {c : Char} {word : String} (first : (Text.words text).head? = some word)
    (inside : c ∈ word.toList) : c ∈ text.toList := by
  obtain ⟨letters, found, same⟩ := List.mem_map.mp (List.mem_of_head? first)
  rw [← same, String.toList_ofList] at inside
  exact Chars.mem_of_mem_words found inside

/-- A colour starts with a hash or a letter. -/
theorem first_of_isColor (hue : isColor color = true) :
    ∃ c rest, color.toList = c :: rest ∧ (c = '#' ∨ c.isAlpha = true) := by
  rcases isColor_cases hue with ⟨digits, whole, -⟩ | ⟨some, letters⟩ | ⟨⟨name, known, rest, whole⟩, -⟩
  · exact ⟨'#', digits, whole, .inl rfl⟩
  · obtain ⟨c, rest, whole⟩ := List.exists_cons_of_ne_nil some
    exact ⟨c, rest, whole, .inr (letters c (by simp [whole]))⟩
  · have starts : ∀ name ∈ colorFunctions, (name ++ "(").toList.head?.any Char.isAlpha = true := by decide
    obtain ⟨c, first, letter⟩ := (Option.any_eq_true _ _).mp (starts name known)
    obtain ⟨call, same⟩ := List.head?_eq_some_iff.mp first
    rw [same, List.cons_append] at whole
    exact ⟨c, call ++ rest, whole.symm, .inr letter⟩

/-- The only colour that starts with the word `to` is that word. -/
theorem eq_to_of_isColor (hue : isColor color = true) (leads : (Text.words color).head? = some "to") :
    color = "to" := by
  rcases isColor_cases hue with ⟨digits, whole, -⟩ | ⟨some, letters⟩ | ⟨⟨name, known, rest, whole⟩, -⟩
  · cases first_of_word whole rfl leads
  · rw [Text.words, Chars.words_of_visible (fun c member => visible_of_isAlpha (letters c member)) some] at leads
    simpa using leads
  · have starts : ∀ name ∈ colorFunctions,
        (name ++ "(").toList.head?.any (fun c => !Chars.isBlank c && c ≠ 't') = true := by decide
    obtain ⟨c, first, other⟩ := (Option.any_eq_true _ _).mp (starts name known)
    obtain ⟨visible, different⟩ : Chars.isBlank c = false ∧ c ≠ 't' := by simpa using other
    obtain ⟨call, same⟩ := List.head?_eq_some_iff.mp first
    rw [same, List.cons_append] at whole
    have letter := first_of_word whole.symm visible leads
    exact absurd (Option.some.inj letter).symm different

theorem not_isColor_stop (position : isPosition segment = true) : isColor (last ++ " " ++ segment) = false := by
  refine Bool.eq_false_iff.mpr fun hue => ?_
  have whole : (last ++ " " ++ segment).toList = last.toList ++ ' ' :: segment.toList := by simp
  have space : ' ' ∈ (last ++ " " ++ segment).toList := by simp
  rcases isColor_cases hue with ⟨digits, start, hex⟩ | ⟨-, letters⟩ | ⟨-, ends⟩
  · rw [start] at space
    have digit := hex ' ' (by simpa using space)
    cases digit
  · cases letters ' ' space
  · rw [whole, List.getLast?_append_of_ne_nil _ (by simp)] at ends
    have member : ')' ∈ ' ' :: segment.toList := List.mem_of_getLast? ends
    exact plain_of_joins (.inr (.inl position)) ')' (by decide) (by simpa using member)

/-- A text that starts with a number is no colour. -/
theorem not_isColor_numeral {c : Char} {rest : List Char} (whole : text.toList = c :: rest)
    (numeral : IsNumeral c) : isColor text = false := by
  refine Bool.eq_false_iff.mpr fun hue => ?_
  obtain ⟨d, more, start, look⟩ := first_of_isColor hue
  obtain rfl : c = d := (List.cons.inj (whole.symm.trans start)).1
  rcases look with rfl | letter
  · exact absurd numeral (by decide)
  · rw [not_isAlpha_of_numeral numeral] at letter
    cases letter

end Looks

theorem continuesDirection_iff {last segment : String} : continuesDirection last segment = true ↔
    segment ∈ sides ∧ (Text.words last).head? = some "to" ∧ (Text.words last).length < 3 := by
  simp [continuesDirection, and_assoc]

theorem continuesStop_iff {last segment : String} : continuesStop last segment = true ↔
    last ≠ "to" ∧ isColor last = true ∧ isPosition segment = true := by
  simp [continuesStop, and_assoc]

/-- Segments that belong together, and the text they come to. -/
inductive Gathered : List String → String → Prop where
  | single (segment : String) : Gathered [segment] segment
  /-- A text that starts with `to` and sides, at most three words in all. -/
  | direction {first : String} {names : List String} (leads : (Text.words first).head? = some "to")
      (some : names ≠ []) (each : ∀ name ∈ names, name ∈ sides)
      (few : (Text.words first).length + names.length ≤ 3) :
      Gathered (first :: names) (Text.join " " (first :: names))
  /-- A colour and its position. -/
  | stop {color position : String} (other : color ≠ "to") (hue : isColor color = true)
      (place : isPosition position = true) : Gathered [color, position] (Text.join " " [color, position])
  /-- A number and its angle unit. -/
  | angle {number unit : String} (bare : isBareNumber number = true) (known : unit ∈ angleUnits) :
      Gathered [number, unit] (number ++ unit)

section Joining

variable {group : List String} {last segment number unit : String}

theorem join_pair (first second : String) : Text.join " " [first, second] = first ++ " " ++ second := by
  simp [Text.join]

theorem join_concat (some : group ≠ []) (segment : String) :
    Text.join " " (group ++ [segment]) = Text.join " " group ++ " " ++ segment := by
  induction group with
  | nil => exact absurd rfl some
  | cons first rest ih =>
    cases rest with
    | nil => exact join_pair first segment
    | cons second rest =>
      have behind := ih (List.cons_ne_nil _ _)
      simp only [Text.join, ← String.toList_inj, String.toList_append, String.toList_intercalate, List.map_cons,
        List.map_append, List.cons_append, List.intercalate_cons_cons] at behind ⊢
      rw [behind]
      simp

theorem words_join (some : group ≠ []) : Text.words (Text.join " " group) = group.flatMap Text.words := by
  induction group using List.reverseRecOn with
  | nil => exact absurd rfl some
  | append_singleton group segment ih =>
    by_cases none : group = []
    · subst none
      simp [Text.join]
    · rw [join_concat none, words_space, ih none, List.flatMap_append, List.flatMap_singleton]

theorem words_direction {first : String} {names : List String} (each : ∀ name ∈ names, name ∈ sides) :
    Text.words (Text.join " " (first :: names)) = Text.words first ++ names := by
  have word : ∀ name ∈ sides, Text.words name = [name] := by decide
  have alone : names.flatMap Text.words = names := by
    induction names with
    | nil => rfl
    | cons name names ih =>
      obtain ⟨here, behind⟩ := List.forall_mem_cons.mp each
      rw [List.flatMap_cons, word name here, ih behind]
      rfl
  rw [words_join (List.cons_ne_nil _ _), List.flatMap_cons, alone]

/-- No number has a space. -/
theorem not_isBareNumber_of_mem {c : Char} (member : c ∈ last.toList) (other : ¬ IsNumeral c) :
    isBareNumber last = false :=
  Bool.eq_false_iff.mpr fun bare => other ((numeral_of_bare bare).2 c member)

theorem Gathered.side (gathered : Gathered group last) (joins : continuesDirection last segment = true) :
    Gathered (group ++ [segment]) (last ++ " " ++ segment) := by
  obtain ⟨side, leads, few⟩ := continuesDirection_iff.mp joins
  cases gathered with
  | single =>
    rw [← join_pair]
    exact .direction leads (List.cons_ne_nil _ _) (List.forall_mem_singleton.mpr side) few
  | @direction first names start some each _ =>
    rw [words_direction each, List.length_append] at few
    rw [← join_concat (List.cons_ne_nil _ _)]
    refine .direction start (by simp) (fun name member => ?_) (by simp; omega)
    rcases List.mem_append.mp member with before | here
    · exact each name before
    · exact List.mem_singleton.mp here ▸ side
  | @stop color position other hue _ =>
    -- The colour would be the word itself.
    obtain ⟨c, rest, whole, look⟩ := first_of_isColor hue
    have visible : Chars.isBlank c = false := by
      rcases look with rfl | letter
      · rfl
      · exact visible_of_isAlpha letter
    obtain ⟨word, more, start⟩ := Chars.head_words visible rest
    refine absurd (eq_to_of_isColor hue ?_) other
    rw [join_pair, words_space, Text.words, whole, start] at leads
    rw [Text.words, whole, start]
    exact leads
  | @angle number unit bare known =>
    -- No angle unit has the second letter of the word.
    have member : 'o' ∈ (number ++ unit).toList := mem_of_first_word leads (by decide)
    rw [String.toList_append, List.mem_append] at member
    rcases member with inside | inside
    · exact absurd ((numeral_of_bare bare).2 'o' inside) (by decide)
    · have other : ∀ unit ∈ angleUnits, 'o' ∉ unit.toList := by decide
      exact absurd inside (other unit known)

theorem Gathered.position (gathered : Gathered group last) (joins : continuesStop last segment = true) :
    Gathered (group ++ [segment]) (last ++ " " ++ segment) := by
  obtain ⟨other, hue, place⟩ := continuesStop_iff.mp joins
  cases gathered with
  | single =>
    rw [← join_pair]
    exact .stop other hue place
  | direction leads _ each _ =>
    refine absurd (eq_to_of_isColor hue ?_) other
    rw [words_direction each, List.head?_append, leads]
    rfl
  | stop _ _ before =>
    rw [join_pair, not_isColor_stop before] at hue
    cases hue
  | @angle number unit bare known =>
    obtain ⟨some, numerals⟩ := numeral_of_bare bare
    obtain ⟨c, rest, whole⟩ := List.exists_cons_of_ne_nil some
    have start : (number ++ unit).toList = c :: (rest ++ unit.toList) := by simp [whole]
    rw [not_isColor_numeral start (numerals c (by simp [whole]))] at hue
    cases hue

theorem Gathered.angleUnit (gathered : Gathered group last) (bare : isBareNumber last = true)
    (known : segment ∈ angleUnits) : Gathered (group ++ [segment]) (last ++ segment) := by
  cases gathered with
  | single => exact .angle bare known
  | @direction first names leads _ each _ =>
    have start : (Text.words (Text.join " " (first :: names))).head? = some "to" := by
      rw [words_direction each, List.head?_append, leads]
      rfl
    rw [not_isBareNumber_of_mem (c := 't') (mem_of_first_word start (by decide)) (by decide)] at bare
    cases bare
  | stop _ _ before =>
    rw [join_pair, not_isBareNumber_of_mem (c := ' ') (by simp) (by decide)] at bare
    cases bare
  | @angle number unit _ before =>
    have letter : ∀ unit ∈ angleUnits, unit.toList.any (fun c => !decide (IsNumeral c)) = true := by decide
    obtain ⟨c, member, other⟩ := List.any_eq_true.mp (letter unit before)
    rw [Bool.not_eq_true', decide_eq_false_iff_not] at other
    rw [not_isBareNumber_of_mem (by simp [member]) other] at bare
    cases bare

/-- Whether a segment joins the text before it. -/
def Joins (last segment : String) : Prop :=
  continuesDirection last segment = true ∨ continuesStop last segment = true ∨
    isBareNumber last = true ∧ segment ∈ angleUnits

theorem Joins.plain (joins : Joins last segment) : ∀ c ∈ [' ', ',', ')'], c ∉ segment.toList := by
  rcases joins with direction | stop | ⟨-, known⟩
  · exact plain_of_joins (.inl (continuesDirection_iff.mp direction).1)
  · exact plain_of_joins (.inr (.inl (continuesStop_iff.mp stop).2.2))
  · exact plain_of_joins (.inr (.inr known))

/-- A number with its angle unit is no side, no position and no angle unit. -/
theorem not_joins_angle (bare : isBareNumber number = true) (known : unit ∈ angleUnits) :
    ¬ Joins last (number ++ unit) := by
  obtain ⟨some, numerals⟩ := numeral_of_bare bare
  have dropped {number : List Char} (numerals : ∀ c ∈ number, IsNumeral c) :
      number.filter Char.isAlpha = [] :=
    List.filter_eq_nil_iff.mpr fun c member => by simp [not_isAlpha_of_numeral (numerals c member)]
  have letters : ∀ word ∈ sides ++ angleUnits, word.toList.filter Char.isAlpha = word.toList := by decide
  have own : (number ++ unit).toList.filter Char.isAlpha = unit.toList := by
    rw [String.toList_append, List.filter_append, dropped numerals, letters unit (List.mem_append_right _ known)]
    rfl
  have word (member : number ++ unit ∈ sides ++ angleUnits) : False := by
    rw [letters _ member, String.toList_append] at own
    exact some (List.append_left_eq_self.mp own)
  rintro (direction | stop | ⟨-, same⟩)
  · exact word (List.mem_append_left _ (continuesDirection_iff.mp direction).1)
  · obtain ⟨digits, other, whole, all, position⟩ := exists_of_position (continuesStop_iff.mp stop).2.2
    rw [whole, List.filter_append, dropped all] at own
    have apart : ∀ unit ∈ angleUnits, ∀ other ∈ positionUnits, other.toList.filter Char.isAlpha ≠ unit.toList := by
      decide
    exact apart unit known _ position (by simpa using own)
  · exact word (List.mem_append_right _ same)

theorem addSegment_spaced (joins : continuesDirection last segment = true ∨ continuesStop last segment = true)
    (rest : List String) : addSegment (last :: rest) segment = (last ++ " " ++ segment) :: rest := by
  rw [addSegment, if_pos (by simpa using joins)]

theorem addSegment_unit (apart : ¬ (continuesDirection last segment = true ∨ continuesStop last segment = true))
    (bare : isBareNumber last = true) (known : segment ∈ angleUnits) (rest : List String) :
    addSegment (last :: rest) segment = (last ++ segment) :: rest := by
  rw [addSegment, if_neg (by simpa using apart), if_pos (by simp [bare, known])]

theorem addSegment_apart (apart : ¬ Joins last segment) (rest : List String) :
    addSegment (last :: rest) segment = segment :: last :: rest := by
  rw [Joins, ← or_assoc, not_or] at apart
  rw [addSegment, if_neg (by simpa using apart.1), if_neg (by simpa using apart.2)]

end Joining

/-- A segment as cutting gives it: it is not empty, is not cut again and has no blanks around. -/
structure Whole (text : String) : Prop where
  uncut : Chars.Uncut ',' outside text.toList
  flush : Chars.Flush text.toList
  some : text.toList ≠ []

section Grouping

variable {groups : List (List String)} {texts pieces : List String} {text last segment : String}

theorem Whole.split_eq (whole : Whole text) : Text.splitTopLevel ',' text = [text] := by
  rw [Text.splitTopLevel, Chars.splitTopLevel, whole.uncut, List.map_singleton, whole.flush.trim_eq,
    List.map_singleton, String.ofList_toList]

theorem Whole.extend (whole : Whole last) (more : Whole segment) {gap : String} (gapless : ',' ∉ gap.toList)
    (plain : ',' ∉ segment.toList) : Whole (last ++ gap ++ segment) where
  uncut := by
    have behind : ',' ∉ gap.toList ++ segment.toList := by simp [gapless, plain]
    rw [Chars.Uncut, String.toList_append, String.toList_append, List.append_assoc,
      Chars.topLevelPieces_append whole.uncut, Chars.uncut_of_not_mem behind]
    rfl
  flush := by
    rw [String.toList_append, String.toList_append]
    exact whole.flush.append more.flush whole.some more.some gap.toList
  some := by simp [whole.some]

/-- The texts so far, the last one first, with the segments of each. -/
structure Grouping (groups : List (List String)) (texts : List String) : Prop where
  gathered : List.Forall₂ Gathered groups texts
  apart : texts.IsChain fun segment last => ¬ Joins last segment
  whole : ∀ text ∈ texts, Whole text

theorem Grouping.joined {group : List String} (grouping : Grouping (group :: groups) (last :: texts))
    (gathered : Gathered (group ++ [segment]) text) (apart : ∀ last, ¬ Joins last text) (whole : Whole text) :
    Grouping ((group ++ [segment]) :: groups) (text :: texts) where
  gathered := by
    cases grouping.gathered with
    | cons _ rest => exact .cons gathered rest
  apart := List.isChain_cons.mpr ⟨fun last _ => apart last, (List.isChain_cons.mp grouping.apart).2⟩
  whole := List.forall_mem_cons.mpr ⟨whole, (List.forall_mem_cons.mp grouping.whole).2⟩

/-- One more segment is used once, behind the others. -/
theorem Grouping.step (grouping : Grouping groups texts) (whole : Whole segment) :
    ∃ more, Grouping more (addSegment texts segment) ∧
      more.reverse.flatten = groups.reverse.flatten ++ [segment] := by
  obtain ⟨gathered, apart, wholes⟩ := grouping
  cases gathered with
  | nil =>
    refine ⟨[[segment]], ⟨.cons (.single segment) .nil, .singleton _, ?_⟩, rfl⟩
    exact List.forall_mem_singleton.mpr whole
  | @cons group last groups texts here rest =>
    have grouping : Grouping (group :: groups) (last :: texts) := ⟨.cons here rest, apart, wholes⟩
    have before := wholes last List.mem_cons_self
    have used : ((group ++ [segment]) :: groups).reverse.flatten = (group :: groups).reverse.flatten ++ [segment] := by
      simp
    by_cases joins : Joins last segment
    · have comma : ',' ∉ segment.toList := joins.plain ',' (by decide)
      by_cases spaced : continuesDirection last segment = true ∨ continuesStop last segment = true
      · rw [addSegment_spaced spaced]
        refine ⟨_, grouping.joined (spaced.elim here.side here.position) (fun before joins => ?_)
          (before.extend whole (by decide) comma), used⟩
        exact joins.plain ' ' (by decide) (by simp)
      · obtain ⟨bare, known⟩ := (or_assoc.mpr joins).resolve_left spaced
        rw [addSegment_unit spaced bare known]
        refine ⟨_, grouping.joined (here.angleUnit bare known) (fun _ => not_joins_angle bare known) ?_, used⟩
        simpa using before.extend whole (by decide : ',' ∉ "".toList) comma
    · rw [addSegment_apart joins]
      refine ⟨[segment] :: group :: groups, ⟨.cons (.single segment) (.cons here rest), ?_, ?_⟩, by simp⟩
      · exact .cons_cons joins apart
      · exact List.forall_mem_cons.mpr ⟨whole, wholes⟩

/-- All segments are used once, in order. -/
theorem Grouping.run (grouping : Grouping groups texts) (wholes : ∀ piece ∈ pieces, Whole piece) :
    ∃ more, Grouping more (pieces.foldl addSegment texts) ∧
      more.reverse.flatten = groups.reverse.flatten ++ pieces := by
  induction pieces generalizing groups texts with
  | nil => exact ⟨groups, grouping, by simp⟩
  | cons segment pieces ih =>
    obtain ⟨here, behind⟩ := List.forall_mem_cons.mp wholes
    obtain ⟨next, grouping, used⟩ := grouping.step here
    obtain ⟨more, grouping, all⟩ := ih grouping behind
    exact ⟨more, grouping, by rw [all, used, List.append_assoc]; rfl⟩

/-- Texts that do not join stay as they are. -/
theorem foldl_apart (apart : (pieces.reverse ++ texts).IsChain fun segment last => ¬ Joins last segment) :
    pieces.foldl addSegment texts = pieces.reverse ++ texts := by
  induction pieces generalizing texts with
  | nil => rfl
  | cons segment pieces ih =>
    rw [List.reverse_cons, List.append_assoc, List.singleton_append] at apart ⊢
    have added : addSegment texts segment = segment :: texts := by
      cases texts with
      | nil => rfl
      | cons last texts =>
        have behind := (List.isChain_append.mp apart).2.1
        exact addSegment_apart (List.isChain_cons_cons.mp behind).1 texts
    rw [List.foldl_cons, added, ih apart]

end Grouping

def pieces (args : List String) : List String :=
  (args.flatMap (Text.splitTopLevel ',')).filter fun piece => !piece.isEmpty

theorem whole_of_mem_pieces {args : List String} {piece : String} (member : piece ∈ pieces args) : Whole piece := by
  obtain ⟨found, some⟩ := List.mem_filter.mp member
  obtain ⟨arg, -, inside⟩ := List.mem_flatMap.mp found
  obtain ⟨part, cut, rfl⟩ := List.mem_map.mp inside
  obtain ⟨raw, among, rfl⟩ := List.mem_map.mp cut
  refine ⟨?_, ?_, ?_⟩
  · rw [String.toList_ofList]
    exact (Chars.uncut_of_mem_topLevelPieces among).trim
  · rw [String.toList_ofList]
    exact Chars.flush_trim raw
  · simpa using some

theorem pieces_eq {texts : List String} (wholes : ∀ text ∈ texts, Whole text) : pieces texts = texts := by
  have cut : texts.flatMap (Text.splitTopLevel ',') = texts := by
    induction texts with
    | nil => rfl
    | cons text texts ih =>
      obtain ⟨here, behind⟩ := List.forall_mem_cons.mp wholes
      rw [List.flatMap_cons, here.split_eq, ih behind]
      rfl
  rw [pieces, cut, List.filter_eq_self]
  intro text member
  simpa using (wholes text member).some

/-- Putting arguments together loses nothing and is stable. The texts are groups of the segments that are cut
out of the arguments, in order, each group of a kind of its own; and the texts themselves stay as they are. -/
theorem segments_regroup (args : List String) :
    (∃ groups, List.Forall₂ Gathered groups (segments args) ∧ groups.flatten = pieces args) ∧
      segments (segments args) = segments args := by
  have whole : ∀ piece ∈ pieces args, Whole piece := fun piece => whole_of_mem_pieces
  obtain ⟨groups, grouping, used⟩ := Grouping.run ⟨.nil, .nil, nofun⟩ whole
  have wholes : ∀ text ∈ segments args, Whole text := fun text member =>
    grouping.whole text (List.mem_reverse.mp member)
  refine ⟨⟨groups.reverse, List.rel_reverse grouping.gathered, used⟩, ?_⟩
  have again : segments (segments args) = ((segments args).foldl addSegment []).reverse :=
    congrArg (fun pieces : List String => (pieces.foldl addSegment []).reverse) (pieces_eq wholes)
  rw [again, foldl_apart, List.append_nil, List.reverse_reverse]
  rw [List.append_nil, segments, List.reverse_reverse]
  exact grouping.apart

end Gradient

end Scss
