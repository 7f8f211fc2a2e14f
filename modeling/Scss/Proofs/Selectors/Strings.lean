import Scss.Proofs.Characters
import Scss.Proofs.Selectors

/-! Quoted strings of a nested selector. Nesting does not tell them from the rest: their blanks are collapsed
and their ampersands replaced as anywhere else. A string is carried over as it is if it has no ampersands and
no blanks but single spaces. -/
namespace Scss

namespace Chars

variable {part text : List Char}

/-- What stands between two quotes of one kind, and these. Every string is such a part. -/
def IsQuoted (part : List Char) : Prop :=
  ∃ mark inside, (mark = '"' ∨ mark = '\'') ∧ part = mark :: (inside ++ [mark])

/-- Blanks around a string do not matter inside of it. -/
theorem IsQuoted.collapse_infix (quoted : IsQuoted part) (member : part <:+: text) :
    collapse part <:+: collapse text := by
  obtain ⟨mark, inside, quote, rfl⟩ := quoted
  obtain ⟨before, after, rfl⟩ := member
  have visible : isBlank mark = false := by rcases quote with rfl | rfl <;> decide
  have alone : collapse (mark :: (inside ++ [mark])) = mark :: (collapse inside ++ [mark]) := by
    have start := collapseFrom_append visible false [] (inside ++ [mark])
    have last := collapseFrom_append visible false inside []
    exact start.trans (congrArg (mark :: ·) last)
  have whole : collapse (before ++ mark :: (inside ++ mark :: after)) =
      collapse before ++ (mark :: (collapse inside ++ [mark])) ++ collapse after := by
    have start := collapseFrom_append visible false before (inside ++ mark :: after)
    have last := collapseFrom_append visible false inside after
    rw [collapse, start, ← collapse, collapse.eq_def (inside ++ _), last]
    simp [collapse]
  have same : before ++ (mark :: (inside ++ [mark])) ++ after = before ++ mark :: (inside ++ mark :: after) := by
    simp
  rw [alone, same, whole]
  exact ⟨_, _, rfl⟩

theorem substitute_infix (sign : Char) (replacement : List Char) (member : part <:+: text) :
    substitute sign replacement part <:+: substitute sign replacement text := by
  obtain ⟨before, after, rfl⟩ := member
  rw [substitute_append, substitute_append]
  exact ⟨_, _, rfl⟩

end Chars

namespace Selector

open Chars (IsQuoted)

/-- The groups that a selector is nested in: those of the selector around it, if there is one. -/
def surrounding : Option String → List (Option String)
  | none => [none]
  | some outer => if outer = "" then [none] else (groups outer).map some

def derived : Option String → String → String
  | none, group => Text.collapse group
  | some outer, group => within outer (Text.collapse group)

def carried : Option String → List Char → List Char
  | none, part => Chars.collapse part
  | some outer, part => Chars.substitute '&' outer.toList (Chars.collapse part)

variable {part : List Char} {group : String}

theorem resolve_eq_join (outer : Option String) (own : String) :
    resolve outer own =
      Text.join ", " ((surrounding outer).flatMap fun around => (groups own).map (derived around)) := by
  have alone : Text.join ", " (groups (Text.collapse (Text.trim own))) =
      Text.join ", " ([none].flatMap fun around => (groups own).map (derived around)) := by
    rw [groups_collapse, List.flatMap_singleton]
    rfl
  cases outer with
  | none => exact alone
  | some outer =>
    rw [resolve, surrounding]
    split
    · exact alone
    · rw [nest_collapse, List.flatMap_map]
      rfl

theorem mem_of_mem_collapse {c : Char} (visible : c ≠ ' ') (member : c ∈ (Text.collapse group).toList) :
    c ∈ group.toList := by
  by_contra absent
  have clean : Text.Free (· == c) group := by
    intro d inside
    rw [beq_eq_false_iff_ne]
    rintro rfl
    exact absent inside
  have kept := clean.collapse (by simpa using Ne.symm visible) c member
  simp at kept

/-- A string is carried over into each group that is written for the group it stands in. -/
theorem carried_infix (quoted : IsQuoted part) (member : part <:+: group.toList) (around : Option String) :
    carried around part <:+: (derived around group).toList := by
  have collapsed : Chars.collapse part <:+: (Text.collapse group).toList := by
    rw [Text.collapse, Text.toList_mapChars]
    exact quoted.collapse_infix member
  cases around with
  | none => exact collapsed
  | some outer =>
    rw [carried, derived, within]
    split
    · rw [String.toList_ofList]
      exact Chars.substitute_infix '&' outer.toList collapsed
    · rename_i absent
      rw [Chars.substitute_of_not_mem fun inside => absent (collapsed.subset inside)]
      rw [String.toList_append]
      exact collapsed.trans (List.suffix_append _ _).isInfix

theorem carried_eq (absent : '&' ∉ part) (single : Chars.collapse part = part) (around : Option String) :
    carried around part = part := by
  cases around with
  | none => exact single
  | some outer => rw [carried, single, Chars.substitute_of_not_mem absent]

/-- The groups that are written for a selector, and the strings in them. -/
theorem strings_carried (outer : Option String) (own : String) :
    resolve outer own =
      Text.join ", " ((surrounding outer).flatMap fun around => (groups own).map (derived around)) ∧
    ∀ around ∈ surrounding outer, ∀ group ∈ groups own,
      (∀ part, IsQuoted part → part <:+: group.toList →
        carried around part <:+: (derived around group).toList ∧
          ('&' ∉ part → Chars.collapse part = part → part <:+: (derived around group).toList)) ∧
      ∀ parent, around = some parent → '&' ∉ group.toList →
        derived around group = parent ++ " " ++ Text.collapse group := by
  refine ⟨resolve_eq_join outer own, fun around _ group _ => ⟨fun part quoted member => ?_, ?_⟩⟩
  · have whole := carried_infix quoted member around
    exact ⟨whole, fun absent single => carried_eq absent single around ▸ whole⟩
  · rintro parent rfl absent
    exact if_neg fun member => absent (mem_of_mem_collapse (by decide) member)

/-- A comma in a string, and the string in the second of two groups. -/
theorem strings_carried_attribute :
    let own := "[t=\"x, y\"]  .c, &.d"
    let group := "[t=\"x, y\"]  .c"
    let part := "\"x, y\"".toList
    some ".b" ∈ surrounding (some ".a, .b") ∧ group ∈ groups own ∧ IsQuoted part ∧ part <:+: group.toList ∧
      ('&' ∉ part ∧ Chars.collapse part = part) ∧
      part <:+: (derived (some ".b") group).toList ∧ derived (some ".b") group = ".b [t=\"x, y\"] .c" := by
  intro own group part
  have around : some ".b" ∈ surrounding (some ".a, .b") := by decide +kernel
  have member : group ∈ groups own := by decide +kernel
  have quoted : IsQuoted part := ⟨'"', "x, y".toList, .inl rfl, by decide +kernel⟩
  have inside : part <:+: group.toList := ⟨"[t=".toList, "]  .c".toList, by decide +kernel⟩
  have plain : '&' ∉ part ∧ Chars.collapse part = part := by decide +kernel
  obtain ⟨strings, behind⟩ := (strings_carried (some ".a, .b") own).2 _ around group member
  refine ⟨around, member, quoted, inside, plain, (strings part quoted inside).2 plain.1 plain.2, ?_⟩
  exact (behind ".b" rfl (by decide +kernel)).trans (by decide +kernel)

/-- An ampersand in a string is replaced, and the group is not put behind the one around it. -/
theorem ampersand_replaced_in_string :
    resolve (some ".a") "[b=\"c & d\"]" = "[b=\"c .a d\"]" ∧
      resolve none "[b=\"c  d\"]" = "[b=\"c d\"]" := by
  decide +kernel

end Selector

end Scss
