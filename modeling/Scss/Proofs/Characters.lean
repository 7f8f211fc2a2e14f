import Mathlib.Tactic
import Scss.Selector

/-! Texts without certain characters, and what the functions on texts make of them. None of these makes
a character of its own, but for the blanks and commas that it puts between texts. -/
namespace Scss

namespace Chars

/-- No character of the text is one of the bad ones. -/
def Free (bad : Char → Bool) (text : List Char) : Prop := ∀ c ∈ text, bad c = false

namespace Free

variable {bad : Char → Bool} {text : List Char}

theorem of_subset {part : List Char} (clean : Free bad text) (within : part ⊆ text) : Free bad part :=
  fun c member => clean c (within member)

theorem nil : Free bad [] := nofun

theorem cons_iff {c : Char} : Free bad (c :: text) ↔ bad c = false ∧ Free bad text :=
  List.forall_mem_cons

theorem append {other : List Char} (first : Free bad text) (second : Free bad other) :
    Free bad (text ++ other) :=
  List.forall_mem_append.mpr ⟨first, second⟩

theorem trim (clean : Free bad text) : Free bad (Chars.trim text) := by
  apply clean.of_subset
  intro c member
  have kept := (List.dropWhile_sublist _).subset (List.mem_reverse.mp member)
  exact (List.dropWhile_sublist _).subset (List.mem_reverse.mp kept)

theorem collapseFrom (blank : bad ' ' = false) (clean : Free bad text) (after : Bool) :
    Free bad (Chars.collapseFrom after text) := by
  induction text generalizing after with
  | nil => exact clean
  | cons c rest ih =>
    obtain ⟨here, behind⟩ := cons_iff.mp clean
    rw [Chars.collapseFrom]
    split
    · split
      · exact ih behind true
      · exact cons_iff.mpr ⟨blank, ih behind true⟩
    · exact cons_iff.mpr ⟨here, ih behind false⟩

theorem replaceFrom {pattern replacement : List Char} (clean : Free bad text)
    (added : Free bad replacement) (skip : Nat) :
    Free bad (Chars.replaceFrom pattern replacement skip text) := by
  induction text generalizing skip with
  | nil => exact clean
  | cons c rest ih =>
    obtain ⟨here, behind⟩ := cons_iff.mp clean
    cases skip with
    | succ skip => exact ih behind skip
    | zero =>
      rw [Chars.replaceFrom]
      split
      · exact added.append (ih behind _)
      · exact cons_iff.mpr ⟨here, ih behind 0⟩

theorem extendFirst {c : Char} {pieces : List (List Char)} (start : bad c = false)
    (clean : ∀ piece ∈ pieces, Free bad piece) :
    ∀ piece ∈ Chars.extendFirst c pieces, Free bad piece := by
  cases pieces with
  | nil => exact List.forall_mem_singleton.mpr (cons_iff.mpr ⟨start, nil⟩)
  | cons piece rest =>
    obtain ⟨first, others⟩ := List.forall_mem_cons.mp clean
    exact List.forall_mem_cons.mpr ⟨cons_iff.mpr ⟨start, first⟩, others⟩

theorem topLevelPieces (separator : Char) (clean : Free bad text) (enclosure : Enclosure) :
    ∀ piece ∈ Chars.topLevelPieces separator enclosure text, Free bad piece := by
  induction text generalizing enclosure with
  | nil => exact List.forall_mem_singleton.mpr nil
  | cons c rest ih =>
    obtain ⟨here, behind⟩ := cons_iff.mp clean
    rw [Chars.topLevelPieces]
    split
    · exact List.forall_mem_cons.mpr ⟨nil, ih behind _⟩
    · exact extendFirst here (ih behind _)

theorem splitTopLevel (separator : Char) (clean : Free bad text) :
    ∀ piece ∈ Chars.splitTopLevel separator text, Free bad piece := by
  intro piece member
  obtain ⟨whole, found, rfl⟩ := List.mem_map.mp member
  exact (clean.topLevelPieces separator _ whole found).trim

theorem intercalate {separator : List Char} {parts : List (List Char)}
    (between : Free bad separator) (clean : ∀ part ∈ parts, Free bad part) :
    Free bad (separator.intercalate parts) := by
  induction parts with
  | nil => exact nil
  | cons first rest ih =>
    obtain ⟨here, behind⟩ := List.forall_mem_cons.mp clean
    cases rest with
    | nil => simpa using here
    | cons second rest =>
      rw [List.intercalate_cons_cons]
      exact (here.append between).append (ih behind)

end Free

end Chars

namespace Text

/-- No character of the text is one of the bad ones. -/
def Free (bad : Char → Bool) (text : String) : Prop := Chars.Free bad text.toList

instance (bad : Char → Bool) (text : String) : Decidable (Free bad text) :=
  List.decidableBAll (fun c => bad c = false) text.toList

namespace Free

variable {bad : Char → Bool} {text : String}

theorem ofList {text : List Char} (clean : Chars.Free bad text) : Free bad (String.ofList text) := by
  rwa [Free, String.toList_ofList]

theorem append {other : String} (first : Free bad text) (second : Free bad other) :
    Free bad (text ++ other) := by
  rw [Free, String.toList_append]
  exact Chars.Free.append first second

theorem trim (clean : Free bad text) : Free bad (Text.trim text) := ofList (Chars.Free.trim clean)

theorem collapse (blank : bad ' ' = false) (clean : Free bad text) : Free bad (Text.collapse text) :=
  ofList (Chars.Free.collapseFrom blank clean false)

theorem replace {replacement : String} (clean : Free bad text) (pattern : String)
    (added : Free bad replacement) : Free bad (Text.replace pattern replacement text) :=
  ofList (Chars.Free.replaceFrom clean added 0)

theorem splitTopLevel (clean : Free bad text) (separator : Char) :
    ∀ piece ∈ Text.splitTopLevel separator text, Free bad piece := by
  intro piece member
  obtain ⟨part, found, rfl⟩ := List.mem_map.mp member
  exact ofList (Chars.Free.splitTopLevel separator clean part found)

theorem join {separator : String} {texts : List String} (between : Free bad separator)
    (clean : ∀ text ∈ texts, Free bad text) : Free bad (Text.join separator texts) := by
  rw [Free, Text.join, String.toList_intercalate]
  apply Chars.Free.intercalate between
  intro part member
  obtain ⟨text, found, rfl⟩ := List.mem_map.mp member
  exact clean text found

end Free

end Text

open Text (Free)

namespace Selector

variable {bad : Char → Bool} {outer inner : String}

theorem free_nestGroup (blank : Free bad " ") (around : Free bad outer) (within : Free bad inner) :
    Free bad (nestGroup outer inner) := by
  unfold nestGroup
  split
  · exact within.replace "&" around
  · exact (around.append blank).append within

theorem free_nest (blank : Free bad " ") (comma : Free bad ", ") (around : Free bad outer)
    (within : Free bad inner) : Free bad (nest outer inner) := by
  apply Free.join comma
  intro group member
  obtain ⟨first, found, rest⟩ := List.mem_flatMap.mp member
  obtain ⟨second, inside, rfl⟩ := List.mem_map.mp rest
  exact free_nestGroup blank (around.splitTopLevel ',' first found)
    (within.splitTopLevel ',' second inside)

theorem free_resolve (blank : Free bad " ") (comma : Free bad ", ") {outer : Option String}
    {own : String} (around : ∀ text ∈ outer, Free bad text) (clean : Free bad own) :
    Free bad (resolve outer own) := by
  have own := clean.trim.collapse (blank ' ' (by decide))
  have alone : Free bad (Text.join ", " (groups (Text.collapse (Text.trim _)))) :=
    .join comma (own.splitTopLevel ',')
  cases outer with
  | none => exact alone
  | some outer =>
    rw [resolve]
    split
    · exact alone
    · exact free_nest blank comma (around outer rfl) own

end Selector

end Scss
