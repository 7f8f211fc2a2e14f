import Scss.Builtin.Registry
import Scss.Proofs.Characters

/-! Text without braces, and what the functions on texts make of it: none of them makes a brace. All
of them take characters from what they are given, or add characters that can be listed. -/
namespace Scss

def isBrace (c : Char) : Bool := c = '\x7b' || c = '\x7d'

namespace Chars

def Braceless (text : List Char) : Prop := Free isBrace text

theorem Braceless.of_mem {text part : List Char} (clean : Braceless text)
    (within : ∀ c ∈ part, c ∈ text) : Braceless part :=
  fun c member => clean c (within c member)

@[simp]
theorem braceless_nil : Braceless [] := .nil

@[simp]
theorem braceless_cons (c : Char) (text : List Char) :
    Braceless (c :: text) ↔ isBrace c = false ∧ Braceless text :=
  Free.cons_iff

@[simp]
theorem braceless_append (first second : List Char) :
    Braceless (first ++ second) ↔ Braceless first ∧ Braceless second :=
  List.forall_mem_append

instance (text : List Char) : Decidable (Braceless text) :=
  List.decidableBAll (fun c => isBrace c = false) text

namespace Braceless

variable {text : List Char}

theorem take (clean : Braceless text) (count : Nat) : Braceless (text.take count) :=
  clean.of_mem fun _ => List.mem_of_mem_take

theorem drop (clean : Braceless text) (count : Nat) : Braceless (text.drop count) :=
  clean.of_mem fun _ => List.mem_of_mem_drop

theorem takeWhile (clean : Braceless text) (p : Char → Bool) : Braceless (text.takeWhile p) :=
  clean.of_mem fun _ member => (List.takeWhile_sublist p).subset member

theorem dropWhile (clean : Braceless text) (p : Char → Bool) : Braceless (text.dropWhile p) :=
  clean.of_mem fun _ member => (List.dropWhile_sublist p).subset member

theorem reverse (clean : Braceless text) : Braceless text.reverse :=
  clean.of_mem fun _ => List.mem_reverse.mp

theorem trim (clean : Braceless text) : Braceless (Chars.trim text) := Free.trim clean

theorem splitTopLevel (separator : Char) (clean : Braceless text) :
    ∀ piece ∈ Chars.splitTopLevel separator text, Braceless piece :=
  Free.splitTopLevel separator clean

theorem pushWord {c : Char} {words : List (List Char)} (start : isBrace c = false)
    (clean : ∀ word ∈ words, Braceless word) : ∀ word ∈ Chars.pushWord c words, Braceless word := by
  cases words with
  | nil => cases blank : isBlank c <;> simp [Chars.pushWord, blank, start]
  | cons word rest =>
    rw [List.forall_mem_cons] at clean
    cases blank : isBlank c <;> simpa [Chars.pushWord, blank, start] using clean

theorem words (clean : Braceless text) : ∀ word ∈ Chars.words text, Braceless word := by
  have pushed : ∀ word ∈ text.foldr Chars.pushWord [[]], Braceless word := by
    induction text with
    | nil => simp
    | cons c rest ih =>
      rw [braceless_cons] at clean
      exact pushWord clean.1 (ih clean.2)
  exact fun word member => pushed word (List.mem_of_mem_filter member)

theorem map {change : Char → Char} (harmless : ∀ c, isBrace c = false → isBrace (change c) = false)
    (clean : Braceless text) : Braceless (text.map change) := by
  intro c member
  obtain ⟨original, found, rfl⟩ := List.mem_map.mp member
  exact harmless original (clean original found)

end Braceless

end Chars

/-- Both braces stand behind the last letter. -/
theorem isBrace_of_le {c : Char} (below : c.val.toNat ≤ 122) : isBrace c = false := by
  simp only [isBrace, Bool.or_eq_false_iff, decide_eq_false_iff_not]
  constructor
  · rintro rfl
    exact absurd below (by decide)
  · rintro rfl
    exact absurd below (by decide)

theorem isBrace_toLower {c : Char} (other : isBrace c = false) : isBrace c.toLower = false := by
  unfold Char.toLower
  split
  · rename_i upper
    have below : c.val.toNat ≤ 90 := UInt32.le_iff_toNat_le.mp upper.2
    have apart : ('a'.val - 'A'.val).toNat = 32 := rfl
    apply isBrace_of_le
    rw [UInt32.toNat_add, apart]
    omega
  · exact other

theorem isBrace_toUpper {c : Char} (other : isBrace c = false) : isBrace c.toUpper = false := by
  unfold Char.toUpper
  split
  · rename_i lower
    have above : 97 ≤ c.val.toNat := UInt32.le_iff_toNat_le.mp lower.1
    have below : c.val.toNat ≤ 122 := UInt32.le_iff_toNat_le.mp lower.2
    have apart : ('A'.val - 'a'.val).toNat = 4294967264 := rfl
    apply isBrace_of_le
    rw [UInt32.toNat_add, apart]
    omega
  · exact other

namespace Text

def Braceless (text : String) : Prop := Chars.Braceless text.toList

instance (text : String) : Decidable (Braceless text) :=
  inferInstanceAs (Decidable (Chars.Braceless text.toList))

@[simp]
theorem braceless_ofList (text : List Char) : Braceless (String.ofList text) ↔ Chars.Braceless text := by
  rw [Braceless, String.toList_ofList]

@[simp]
theorem braceless_append (first second : String) :
    Braceless (first ++ second) ↔ Braceless first ∧ Braceless second := by
  rw [Braceless, String.toList_append, Chars.braceless_append]
  rfl

@[simp]
theorem braceless_toString (text : String) : Braceless (toString text) ↔ Braceless text := Iff.rfl

theorem braceless_join {texts : List String} (clean : ∀ text ∈ texts, Braceless text) :
    Braceless (String.join texts) := by
  intro c member
  rw [String.toList_join] at member
  obtain ⟨text, found, inside⟩ := List.mem_flatMap.mp member
  exact clean text found c inside

theorem braceless_intercalate {separator : String} {texts : List String}
    (between : Braceless separator) (clean : ∀ text ∈ texts, Braceless text) :
    Braceless (Text.join separator texts) :=
  Free.join between clean

namespace Braceless

variable {text : String}

theorem trim (clean : Braceless text) : Braceless (Text.trim text) :=
  Free.trim clean

theorem replace {replacement : String} (clean : Braceless text) (pattern : String)
    (added : Braceless replacement) : Braceless (Text.replace pattern replacement text) :=
  Free.replace clean pattern added

theorem splitTopLevel (clean : Braceless text) (separator : Char) :
    ∀ piece ∈ Text.splitTopLevel separator text, Braceless piece :=
  Free.splitTopLevel clean separator

theorem lower (clean : Braceless text) : Braceless (Text.lower text) :=
  (braceless_ofList _).mpr (Chars.Braceless.map (fun _ => isBrace_toLower) clean)

theorem upper (clean : Braceless text) : Braceless (Text.upper text) :=
  (braceless_ofList _).mpr (Chars.Braceless.map (fun _ => isBrace_toUpper) clean)

theorem dropFirst (clean : Braceless text) (count : Nat) : Braceless (Text.dropFirst count text) :=
  (braceless_ofList _).mpr (Chars.Braceless.drop clean count)

theorem interior (clean : Braceless text) : Braceless (Text.interior text) := by
  refine (braceless_ofList _).mpr (Chars.Braceless.of_mem clean fun c member => ?_)
  exact List.mem_of_mem_tail (List.mem_of_mem_dropLast member)

theorem normalizeName (clean : Braceless text) : Braceless (normalizeName text) := by
  refine (braceless_ofList _).mpr (Chars.Braceless.map (fun c other => ?_) clean)
  split
  · rfl
  · exact other

end Braceless

end Text

open Text (Braceless)

namespace Selector

theorem braceless_nest {outer inner : String} (around : Braceless outer) (within : Braceless inner) :
    Braceless (nest outer inner) :=
  free_nest (by decide) (by decide) around within

theorem braceless_resolve {outer : Option String} {own : String}
    (around : ∀ text ∈ outer, Braceless text) (clean : Braceless own) :
    Braceless (resolve outer own) :=
  free_resolve (by decide) (by decide) around clean

theorem braceless_visible {selector : String} (clean : Braceless selector) :
    Braceless (visible selector) :=
  Text.braceless_intercalate (by decide) fun group member =>
    clean.splitTopLevel ',' group (List.mem_of_mem_filter member)

end Selector

end Scss
