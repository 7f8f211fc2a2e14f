import Scss.Proofs.Cutting
import Scss.Selector
import Scss.Token.Lexer

/-! Selectors inside selectors. A nested selector is written as one text, which the rules inside of it cut
into groups again. They find what was crossed, group by group, however deep the rules are, unless a quote
holds its own mark: behind a backslash this ends no string of the language, but it ends one here. Depths of
brackets are machine numbers, so the selectors together may not open too many. -/
namespace Scss.Selector

open Chars (Group)
open Enclosure (outside)

/-- One group inside another, which stands in place of every ampersand, or in front if there is none. -/
def within (outer inner : String) : String :=
  if '&' ∈ inner.toList then String.ofList (Chars.substitute '&' outer.toList inner.toList)
  else outer ++ " " ++ inner

/-- Every group inside every other, the inner ones with single blanks and varying fastest. -/
def cross (outer inner : List String) : List String :=
  outer.flatMap fun around => inner.map fun group => within around (Text.collapse group)

/-- A selector without empty groups. Its quotes are closed, its brackets are pairs, and only what is
quotable stands in quotes. -/
structure Proper (quotable : Char → Prop) (selector : String) : Prop where
  nested : Chars.WellNested quotable selector.toList
  filled : "" ∉ groups selector

def openings (selector : String) : Nat := Chars.openings selector.toList

/-- A selector as nesting leaves it, with brackets at most so deep. -/
structure Settled (most : Nat) (selector : String) : Prop where
  closed : outside.Closed (fun _ => True) most selector.toList
  filled : "" ∉ groups selector

theorem Proper.settled {selector : String} (proper : Proper (fun _ => True) selector)
    (few : openings selector < 2 ^ 31) : Settled (openings selector) selector :=
  ⟨proper.nested.closed (fun _ _ => trivial) few, proper.filled⟩

section Groups

variable {selector outer inner : String} {most : Nat}

theorem map_toList_groups (selector : String) :
    (groups selector).map String.toList = Chars.splitTopLevel ',' selector.toList := by
  simp [groups, Text.splitTopLevel, Function.comp_def]

theorem groups_eq_iff {texts : List String} :
    groups selector = texts ↔ Chars.splitTopLevel ',' selector.toList = texts.map String.toList := by
  rw [← map_toList_groups]
  exact (List.map_injective_iff.mpr fun _ _ => String.toList_injective).eq_iff.symm

theorem mem_groups : inner ∈ groups selector ↔ inner.toList ∈ Chars.splitTopLevel ',' selector.toList := by
  rw [← map_toList_groups]
  exact (List.mem_map_of_injective fun _ _ => String.toList_injective).symm

theorem groups_ne_nil (selector : String) : groups selector ≠ [] := by
  obtain ⟨first, others, same⟩ := Chars.exists_topLevelPieces ',' outside selector.toList
  simp [groups, Text.splitTopLevel, Chars.splitTopLevel, same]

theorem toList_ne_nil (filled : "" ∉ groups selector) (member : inner ∈ groups selector) :
    inner.toList ≠ [] := by
  intro empty
  rw [String.toList_eq_nil_iff] at empty
  exact filled (empty ▸ member)

theorem Settled.group (settled : Settled most selector) (member : inner ∈ groups selector) :
    Group (fun _ => True) most inner.toList ∧ inner.toList ≠ [] :=
  ⟨Chars.group_of_mem_splitTopLevel settled.closed (mem_groups.mp member), toList_ne_nil settled.filled member⟩

theorem groups_collapse (selector : String) :
    groups (Text.collapse (Text.trim selector)) = (groups selector).map Text.collapse := by
  rw [groups_eq_iff, List.map_map, Text.collapse, Text.toList_mapChars, Chars.splitTopLevel_collapse,
    Text.trim, Text.toList_mapChars, Chars.splitTopLevel_trim, ← map_toList_groups, List.map_map]
  simp [Function.comp_def]

theorem nestGroup_eq (outer inner : String) : nestGroup outer inner = within outer inner := by
  unfold nestGroup within
  simp only [List.contains_eq_mem, decide_eq_true_eq, Text.replace]
  rw [show "&".toList = ['&'] from rfl, Chars.replace_singleton]

theorem nest_collapse (parent own : String) :
    nest parent (Text.collapse (Text.trim own)) = Text.join ", " (cross (groups parent) (groups own)) := by
  rw [nest, groups_collapse, cross]
  simp only [List.map_map]
  simp [Function.comp_def, nestGroup_eq]

end Groups

section Nesting

variable {parent own outer inner : String} {most extra : Nat}

theorem group_within (around : Group (fun _ => True) extra outer.toList) (some : outer.toList ≠ [])
    (inside : Group (· ≠ '&') most inner.toList) (more : inner.toList ≠ []) (fits : extra + most < 2 ^ 31) :
    Group (fun _ => True) (extra + most) (within outer inner).toList ∧ (within outer inner).toList ≠ [] := by
  unfold within
  split
  · rw [String.toList_ofList]
    exact ⟨inside.substitute (by decide) around fits some, Chars.substitute_ne_nil some more⟩
  · have apart : (outer ++ " " ++ inner).toList = outer.toList ++ ' ' :: inner.toList := by simp
    have front : outside.Closed (fun _ => True) (extra + most) outer.toList :=
      around.closed.weaken (fun _ held => held) (Nat.le_add_right _ _)
    have closed : outside.Closed (fun _ => True) (extra + most) (' ' :: inner.toList) :=
      ⟨Enclosure.within_outside _, .inl rfl,
        inside.closed.weaken (fun _ _ => trivial) (Nat.le_add_left _ _)⟩
    have uncut : Chars.Uncut ',' outside (' ' :: inner.toList) :=
      Chars.uncut_cons.mpr ⟨by decide, inside.uncut⟩
    rw [apart]
    refine ⟨⟨front.append closed, ?_, ?_⟩, by simp⟩
    · exact around.uncut.append around.closed uncut
    · simpa using around.flush.append inside.flush some more [' ']

/-- Texts that are joined are cut into groups one by one. -/
theorem groups_join {texts : List String} (some : texts ≠ [])
    (ends : ∀ text ∈ texts, outside.after text.toList = outside) :
    groups (Text.join ", " texts) = texts.flatMap groups := by
  have parts : ∀ part ∈ texts.map String.toList, outside.after part = outside := by simpa using ends
  rw [groups_eq_iff, Text.join, String.toList_intercalate]
  calc
    Chars.splitTopLevel ',' (", ".toList.intercalate (texts.map String.toList)) =
        (texts.map String.toList).flatMap (Chars.splitTopLevel ',') :=
      Chars.splitTopLevel_intercalate (by simpa using some) parts
    _ = (texts.flatMap groups).map String.toList := by
      simp only [List.flatMap_map, List.map_flatMap, map_toList_groups]

/-- Groups that are joined are found again. -/
theorem groups_join_groups {texts : List String} (some : texts ≠ [])
    (each : ∀ text ∈ texts, Group (fun _ => True) most text.toList) : groups (Text.join ", " texts) = texts := by
  have alone : ∀ text ∈ texts, groups text = [text] := fun text member =>
    groups_eq_iff.mpr (each text member).split_eq
  rw [groups_join some fun text member => (each text member).closed.after_eq, List.flatMap_congr alone]
  exact List.flatMap_singleton' texts

/-- What is crossed are groups again, and none of them is empty. -/
theorem group_of_mem_cross (around : Settled extra parent) (inside : Proper (· ≠ '&') own)
    (fits : extra + openings own < 2 ^ 31) {text : String}
    (member : text ∈ cross (groups parent) (groups own)) :
    Group (fun _ => True) (extra + openings own) text.toList ∧ text.toList ≠ [] := by
  obtain ⟨outer, first, rest⟩ := List.mem_flatMap.mp member
  obtain ⟨inner, second, rfl⟩ := List.mem_map.mp rest
  have few : openings own < 2 ^ 31 := (Nat.le_add_left _ _).trans_lt fits
  have alone : Group (· ≠ '&') (openings own) inner.toList :=
    Chars.group_of_mem_splitTopLevel (inside.nested.closed (by simp) few) (mem_groups.mp second)
  have group : Group (· ≠ '&') (openings own) (Text.collapse inner).toList := by
    rw [Text.collapse, Text.toList_mapChars]
    exact alone.collapse (by decide)
  have some : (Text.collapse inner).toList ≠ [] := by
    rw [Text.collapse, Text.toList_mapChars]
    exact alone.flush.collapse_ne_nil (toList_ne_nil inside.filled second)
  obtain ⟨apart, filled⟩ := around.group first
  exact group_within apart filled group some fits

/-- One selector inside another, which can be nested in again. -/
theorem resolve_settled (around : Settled extra parent) (inside : Proper (· ≠ '&') own)
    (fits : extra + openings own < 2 ^ 31) :
    groups (resolve (some parent) own) = cross (groups parent) (groups own) ∧
      Settled (extra + openings own) (resolve (some parent) own) := by
  have present : parent ≠ "" := by
    rintro rfl
    exact around.filled (by decide)
  have whole : resolve (some parent) own = Text.join ", " (cross (groups parent) (groups own)) := by
    rw [← nest_collapse, resolve]
    simp only [if_neg present]
  have each : ∀ text ∈ cross (groups parent) (groups own),
      Group (fun _ => True) (extra + openings own) text.toList ∧ text.toList ≠ [] :=
    fun _ => group_of_mem_cross around inside fits
  have nonempty : cross (groups parent) (groups own) ≠ [] := by
    obtain ⟨outer, _, first⟩ := List.exists_cons_of_ne_nil (groups_ne_nil parent)
    obtain ⟨inner, _, second⟩ := List.exists_cons_of_ne_nil (groups_ne_nil own)
    simp [cross, first, second]
  have found := groups_join_groups nonempty fun text member => (each text member).1
  refine ⟨by rw [whole, found], ?_, ?_⟩
  · rw [whole, Text.join, String.toList_intercalate]
    refine Chars.closed_intercalate fun part member => ?_
    obtain ⟨text, found, rfl⟩ := List.mem_map.mp member
    exact (each text found).1.closed
  · rw [whole, found]
    exact fun member => (each "" member).2 rfl

/-- Each further selector crosses its groups with those found so far. -/
theorem groups_foldl_resolve (around : Settled extra parent) {owns : List String}
    (inside : ∀ own ∈ owns, Proper (· ≠ '&') own) (fits : extra + (owns.map openings).sum < 2 ^ 31) :
    groups (owns.foldl (fun outer own => resolve (some outer) own) parent) =
      (owns.map groups).foldl cross (groups parent) := by
  induction owns generalizing parent extra with
  | nil => rfl
  | cons own owns ih =>
    obtain ⟨here, behind⟩ := List.forall_mem_cons.mp inside
    rw [List.map_cons, List.sum_cons, ← Nat.add_assoc] at fits
    obtain ⟨crossed, settled⟩ := resolve_settled around here ((Nat.le_add_right _ _).trans_lt fits)
    rw [List.foldl_cons, ih settled behind fits, crossed]
    rfl

/-- Selectors inside selectors, however deep, are crossed group by group, unless they open too many brackets
for a depth. -/
theorem nesting_crosses_groups (around : Proper (fun _ => True) parent) :
    (∀ own, Proper (· ≠ '&') own → openings parent + openings own < 2 ^ 31 →
      groups (resolve (some parent) own) = cross (groups parent) (groups own)) ∧
    ∀ owns : List String, (∀ own ∈ owns, Proper (· ≠ '&') own) →
      openings parent + (owns.map openings).sum < 2 ^ 31 →
      groups (owns.foldl (fun outer own => resolve (some outer) own) parent) =
        (owns.map groups).foldl cross (groups parent) := by
  refine ⟨fun own inside fits => ?_, fun owns inside fits => ?_⟩
  · exact (resolve_settled (around.settled ((Nat.le_add_right _ _).trans_lt fits)) inside fits).1
  · exact groups_foldl_resolve (around.settled ((Nat.le_add_right _ _).trans_lt fits)) inside fits

/-- Commas inside of brackets and quotes stay where they are, also where an ampersand stands in brackets. -/
theorem nesting_crosses_groups_brackets :
    let parent := ".a, :is(.b, [c=\"d, e\"])"
    let own := "&.f, .g  :not(&)"
    Proper (fun _ => True) parent ∧ Proper (· ≠ '&') own ∧ openings parent + openings own < 2 ^ 31 ∧
      groups (resolve (some parent) own) =
        [".a.f", ".g :not(.a)", ":is(.b, [c=\"d, e\"]).f", ".g :not(:is(.b, [c=\"d, e\"]))"] ∧
      groups ([own, "&:h"].foldl (fun outer own => resolve (some outer) own) parent) =
        [".a.f:h", ".g :not(.a):h", ":is(.b, [c=\"d, e\"]).f:h",
          ".g :not(:is(.b, [c=\"d, e\"])):h"] := by
  intro parent own
  have list : Chars.WellNested (fun _ => True) (".b, ".toList ++ '[' :: ("c=".toList ++
      '"' :: ("d, e".toList ++ '"' :: []) ++ ']' :: [])) :=
    .letters (by decide +kernel) (.bracketed (.inr rfl)
      (.letters (by decide +kernel) (.string (.inl rfl) (by decide +kernel) .nil)) .nil)
  have around : Proper (fun _ => True) parent := by
    refine ⟨?_, by decide +kernel⟩
    have same : parent.toList = ".a, :is".toList ++ '(' :: (".b, ".toList ++ '[' :: ("c=".toList ++
      '"' :: ("d, e".toList ++ '"' :: []) ++ ']' :: []) ++ ')' :: []) := by decide +kernel
    rw [same]
    exact .letters (by decide +kernel) (.bracketed (.inl rfl) list .nil)
  have inside : Proper (· ≠ '&') own := by
    refine ⟨?_, by decide +kernel⟩
    have same : own.toList = "&.f, .g  :not".toList ++ '(' :: (['&'] ++ ')' :: []) := by decide +kernel
    rw [same]
    exact .letters (by decide +kernel) (.bracketed (.inl rfl) (.letter (by decide) .nil) .nil)
  have deeper : Proper (· ≠ '&') "&:h" := by
    refine ⟨?_, by decide +kernel⟩
    rw [← List.append_nil "&:h".toList]
    exact .letters (by decide +kernel) .nil
  obtain ⟨once, often⟩ := nesting_crosses_groups around
  have few : openings parent + openings own < 2 ^ 31 := by decide +kernel
  refine ⟨around, inside, few, (once own inside few).trans (by decide +kernel), ?_⟩
  refine (often [own, "&:h"] ?_ (by decide +kernel)).trans (by decide +kernel)
  simpa using ⟨inside, deeper⟩

/-- The lexer reads one string, whose mark stands behind a backslash; the groups around it are merged. -/
theorem groups_merge_behind_escape :
    (Lexer.tokens "[a=\"\\\"\"], .b").toOption.map (List.map Token.text) =
        some ["[", "a", "=", "\"\\\"\"", "]", ",", " ", ".", "b", ""] ∧
      resolve (some "[a=\"\\\"\"], .b") ".c" = "[a=\"\\\"\"], .b .c" := by
  decide +kernel

end Nesting

end Scss.Selector
