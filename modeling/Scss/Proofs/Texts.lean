import Mathlib.Data.List.DropRight
import Scss.Text.Blank
import Scss.Text.Cut

/-! Trimming, collapsing and replacing, part by part: what of a longer text they do to a part of it alone, and
in which order they can be done. -/
namespace Scss

namespace Chars

variable {text other : List Char} {c : Char}

@[mk_iff flush_iff]
structure Flush (text : List Char) : Prop where
  head : ∀ c ∈ text.head?, isBlank c = false
  last : ∀ c ∈ text.getLast?, isBlank c = false

instance : Decidable (Flush text) :=
  decidable_of_iff ((text.head?.all fun c => !isBlank c) = true ∧ (text.getLast?.all fun c => !isBlank c) = true)
    (by simp [flush_iff, Option.all_eq_true])

theorem Flush.nil : Flush [] := ⟨nofun, nofun⟩

theorem Flush.append (first : Flush text) (second : Flush other) (some : text ≠ []) (more : other ≠ [])
    (gap : List Char) : Flush (text ++ gap ++ other) where
  head c member := first.head c (by
    rwa [List.append_assoc, List.head?_append_of_ne_nil _ some] at member)
  last c member := second.last c (by rwa [List.getLast?_append_of_ne_nil _ more] at member)

theorem trimStart_of_head (visible : ∀ c ∈ text.head?, isBlank c = false) : trimStart text = text := by
  cases text with
  | nil => rfl
  | cons c rest => exact List.dropWhile_cons_of_neg (by simp [visible c rfl])

theorem trimEnd_of_last (visible : ∀ c ∈ text.getLast?, isBlank c = false) : trimEnd text = text := by
  refine List.rdropWhile_eq_self_iff.mpr fun some => ?_
  rw [visible _ (List.getLast?_eq_some_getLast some)]
  decide

theorem trimEnd_space (text : List Char) : trimEnd (text ++ [' ']) = trimEnd text :=
  List.rdropWhile_concat_pos isBlank text ' ' rfl

theorem mem_trimStart (visible : isBlank c = false) : c ∈ trimStart text ↔ c ∈ text := by
  unfold trimStart
  induction text with
  | nil => rfl
  | cons d rest ih =>
    cases blank : isBlank d with
    | false => rw [List.dropWhile_cons_of_neg (by simp [blank])]
    | true =>
      have differs : c ≠ d := fun same => by simp [same, blank] at visible
      rw [List.dropWhile_cons_of_pos blank, ih, List.mem_cons, or_iff_right differs]

theorem mem_trimEnd (visible : isBlank c = false) : c ∈ trimEnd text ↔ c ∈ text := by
  rw [trimEnd, List.mem_reverse, ← trimStart, mem_trimStart visible, List.mem_reverse]

theorem trimStart_append (shows : ∃ c ∈ text, isBlank c = false) :
    trimStart (text ++ other) = trimStart text ++ other := by
  obtain ⟨c, member, visible⟩ := shows
  have kept : ¬ (text.dropWhile isBlank).isEmpty = true := by
    intro empty
    have blank := List.dropWhile_eq_nil_iff.mp (List.isEmpty_iff.mp empty) c member
    rw [visible] at blank
    cases blank
  rw [trimStart, List.dropWhile_append, if_neg kept]
  rfl

theorem trimEnd_append (shows : ∃ c ∈ other, isBlank c = false) :
    trimEnd (text ++ other) = text ++ trimEnd other := by
  obtain ⟨c, member, visible⟩ := shows
  have start : ∃ c ∈ other.reverse, isBlank c = false := ⟨c, List.mem_reverse.mpr member, visible⟩
  calc
    trimEnd (text ++ other) = (trimStart (other.reverse ++ text.reverse)).reverse := by
      rw [trimEnd, List.reverse_append]
      rfl
    _ = (trimStart other.reverse ++ text.reverse).reverse := by rw [trimStart_append start]
    _ = text ++ trimEnd other := by
      rw [List.reverse_append, List.reverse_reverse]
      rfl

/-- What is left of a text, if anything, has something to see. -/
theorem shows_trimEnd (some : trimEnd text ≠ []) : ∃ c ∈ trimEnd text, isBlank c = false :=
  ⟨_, List.getLast_mem some, Bool.eq_false_iff.mpr (List.rdropWhile_last_not isBlank text some)⟩

theorem trimEnd_ne_nil (shows : ∃ c ∈ text, isBlank c = false) : trimEnd text ≠ [] := by
  obtain ⟨c, member, visible⟩ := shows
  intro empty
  have blank := List.rdropWhile_eq_nil_iff.mp empty c member
  rw [visible] at blank
  cases blank

section Ends

variable {blanks : List Char}

theorem trimEnd_blanks (blank : ∀ b ∈ blanks, isBlank b = true) (text : List Char) :
    trimEnd (text ++ blanks) = trimEnd text := by
  unfold trimEnd
  rw [List.reverse_append, List.dropWhile_append_of_pos fun b member => blank b (List.mem_reverse.mp member)]

theorem trimEnd_behind (before : List Char) (visible : isBlank c = false) (text : List Char) :
    trimEnd (before ++ c :: text) = before ++ trimEnd (c :: text) :=
  trimEnd_append ⟨c, List.mem_cons_self, visible⟩

/-- What is trimmed off the end is blank. -/
theorem exists_blanks (text : List Char) :
    ∃ blanks, (∀ b ∈ blanks, isBlank b = true) ∧ text = trimEnd text ++ blanks :=
  ⟨text.rtakeWhile isBlank, fun _ => List.mem_rtakeWhile_imp, List.rdropWhile_append_rtakeWhile.symm⟩

theorem trimEnd_trimEnd (text : List Char) : trimEnd (trimEnd text) = trimEnd text := by
  obtain ⟨blanks, blank, whole⟩ := exists_blanks text
  nth_rewrite 2 [whole]
  rw [trimEnd_blanks blank]

theorem exists_trimEnd_cons (visible : isBlank c = false) (text : List Char) :
    ∃ kept, trimEnd (c :: text) = c :: kept := by
  obtain ⟨blanks, blank, whole⟩ := exists_blanks (c :: text)
  cases cut : trimEnd (c :: text) with
  | nil =>
    rw [cut, List.nil_append] at whole
    have first := blank c (by simp [← whole])
    simp [visible] at first
  | cons d kept =>
    rw [cut] at whole
    exact ⟨kept, by rw [(List.cons.inj whole).1]⟩

theorem trim_of_visible (visible : isBlank c = false) (text : List Char) :
    trim (c :: text) = trimEnd (c :: text) := by
  rw [trim, trimStart, List.dropWhile_cons_of_neg (by simp [visible])]

theorem trim_blanks (blank : ∀ b ∈ blanks, isBlank b = true) (text : List Char) :
    trim (text ++ blanks) = trim text := by
  by_cases shows : ∃ c ∈ text, isBlank c = false
  · rw [trim, trimStart_append shows, trimEnd_blanks blank, ← trim]
  · have hidden : ∀ c ∈ text, isBlank c = true := fun c member => by
      by_contra visible
      exact shows ⟨c, member, Bool.eq_false_iff.mpr visible⟩
    have nothing : trimStart (text ++ blanks) = [] :=
      List.dropWhile_eq_nil_iff.mpr (List.forall_mem_append.mpr ⟨hidden, blank⟩)
    rw [trim, nothing, trim, trimStart, List.dropWhile_eq_nil_iff.mpr hidden]

theorem trim_trimEnd (text : List Char) : trim (trimEnd text) = trim text := by
  obtain ⟨blanks, blank, whole⟩ := exists_blanks text
  nth_rewrite 2 [whole]
  rw [trim_blanks blank]

theorem trimEnd_cons_trimEnd (c : Char) (text : List Char) : trimEnd (c :: trimEnd text) = trimEnd (c :: text) := by
  obtain ⟨blanks, blank, whole⟩ := exists_blanks text
  nth_rewrite 2 [whole]
  rw [← List.cons_append, trimEnd_blanks blank]

end Ends

section Flush

theorem Flush.trim_eq (flush : Flush text) : trim text = text := by
  rw [trim, trimStart_of_head flush.head, trimEnd_of_last flush.last]

theorem Flush.single (visible : isBlank c = false) : Flush [c] :=
  ⟨fun _ first => (Option.some.inj first) ▸ visible, fun _ last => (Option.some.inj last) ▸ visible⟩

theorem last_trimEnd (text : List Char) : ∀ c ∈ (trimEnd text).getLast?, isBlank c = false := by
  intro c member
  have kept : trimEnd text ≠ [] := fun empty => by simp [empty] at member
  rw [List.getLast?_eq_some_getLast kept] at member
  obtain rfl := Option.some.inj member
  exact Bool.eq_false_iff.mpr (List.rdropWhile_last_not isBlank text kept)

theorem flush_trim (text : List Char) : Flush (trim text) where
  head c member := by
    obtain ⟨blanks, -, whole⟩ := exists_blanks (trimStart text)
    have first : (text.dropWhile isBlank).head? = some c := by
      change (trimEnd (trimStart text)).head? = some c at member
      change (trimStart text).head? = some c
      rw [whole, List.head?_append, member]
      rfl
    simpa [first] using List.head?_dropWhile_not isBlank text
  last := last_trimEnd _

end Flush

section Collapse

theorem blank_collapseFrom (after : Bool) (blank : ∀ b ∈ text, isBlank b = true) :
    ∀ b ∈ collapseFrom after text, isBlank b = true := by
  induction text generalizing after with
  | nil => exact blank
  | cons c rest ih =>
    obtain ⟨here, behind⟩ := List.forall_mem_cons.mp blank
    rw [collapseFrom, if_pos here]
    split
    · exact ih true behind
    · exact List.forall_mem_cons.mpr ⟨rfl, ih true behind⟩

/-- A visible character starts afresh. -/
theorem collapseFrom_append (visible : isBlank c = false) (after : Bool) (text rest : List Char) :
    collapseFrom after (text ++ c :: rest) = collapseFrom after text ++ c :: collapse rest := by
  induction text generalizing after with
  | nil =>
    change collapseFrom after (c :: rest) = c :: collapse rest
    rw [collapseFrom, if_neg (by simp [visible])]
    rfl
  | cons d text ih =>
    rw [List.cons_append, collapseFrom, collapseFrom]
    split
    · split
      · exact ih true
      · rw [ih true]
        rfl
    · rw [ih false]
      rfl

theorem trimStart_collapseFrom (after : Bool) (text : List Char) :
    trimStart (collapseFrom after text) = collapse (trimStart text) := by
  induction text generalizing after with
  | nil => rfl
  | cons c rest ih =>
    rw [collapseFrom]
    cases blank : isBlank c with
    | false => simp [trimStart, blank, collapse, collapseFrom]
    | true =>
      have start : trimStart (c :: rest) = trimStart rest := List.dropWhile_cons_of_pos blank
      rw [start, if_pos rfl, ← ih true]
      split <;> rfl

theorem trimEnd_collapseFrom (after : Bool) (text : List Char) :
    trimEnd (collapseFrom after text) = collapseFrom after (trimEnd text) := by
  obtain ⟨blanks, blank, whole⟩ := exists_blanks text
  rcases List.eq_nil_or_concat' (trimEnd text) with empty | ⟨front, c, kept⟩
  · rw [empty, List.nil_append] at whole
    rw [empty, whole, ← List.nil_append (collapseFrom after blanks),
      trimEnd_blanks (blank_collapseFrom after blank)]
    rfl
  · have visible : isBlank c = false := last_trimEnd text c (by rw [kept]; simp)
    have ends : trimEnd (c :: collapse blanks) = [c] := by
      have more : ∀ b ∈ collapse blanks, isBlank b = true := blank_collapseFrom false blank
      rw [← List.singleton_append, trimEnd_blanks more, trimEnd_of_last (Flush.single visible).last]
    rw [kept, List.append_assoc] at whole
    rw [kept, whole]
    change trimEnd (collapseFrom after (front ++ c :: blanks)) = collapseFrom after (front ++ c :: [])
    rw [collapseFrom_append visible, collapseFrom_append visible, trimEnd_behind _ visible, ends]
    rfl

theorem trim_collapseFrom (after : Bool) (text : List Char) :
    trim (collapseFrom after text) = collapse (trim text) := by
  rw [trim, trimStart_collapseFrom, collapse, trimEnd_collapseFrom]
  rfl

theorem Flush.collapse (flush : Flush text) : Flush (Chars.collapse text) := by
  rw [← flush.trim_eq, ← trim_collapseFrom false]
  exact flush_trim _

theorem Flush.collapse_ne_nil (flush : Flush text) (some : text ≠ []) : Chars.collapse text ≠ [] := by
  obtain ⟨c, rest, rfl⟩ := List.exists_cons_of_ne_nil some
  have start := collapseFrom_append (flush.head c rfl) false [] rest
  rw [Chars.collapse]
  exact start ▸ List.cons_ne_nil _ _

end Collapse

section Replace

def substitute (sign : Char) (replacement text : List Char) : List Char :=
  text.flatMap fun c => if c = sign then replacement else [c]

theorem replace_singleton (sign : Char) (replacement text : List Char) :
    replace [sign] replacement text = substitute sign replacement text := by
  rw [replace]
  induction text with
  | nil => rfl
  | cons c text ih =>
    rw [replaceFrom, substitute, List.flatMap_cons]
    by_cases same : c = sign
    · subst same
      simp [ih, substitute]
    · simp [same, ih, substitute, Ne.symm same]

theorem substitute_append (sign : Char) (replacement text rest : List Char) :
    substitute sign replacement (text ++ rest) =
      substitute sign replacement text ++ substitute sign replacement rest :=
  List.flatMap_append

theorem substitute_of_not_mem {sign : Char} (absent : sign ∉ text) (replacement : List Char) :
    substitute sign replacement text = text := by
  induction text with
  | nil => rfl
  | cons c rest ih =>
    rw [List.mem_cons, not_or] at absent
    rw [substitute, List.flatMap_cons, if_neg (Ne.symm absent.1)]
    exact congrArg (c :: ·) (ih absent.2)

theorem substitute_ne_nil {sign : Char} {replacement : List Char} (some : replacement ≠ []) (more : text ≠ []) :
    substitute sign replacement text ≠ [] := by
  obtain ⟨c, rest, rfl⟩ := List.exists_cons_of_ne_nil more
  rw [substitute, List.flatMap_cons]
  split <;> simp [some]

theorem Flush.substitute {sign : Char} {replacement : List Char} (flush : Flush text)
    (inserted : Flush replacement) (some : replacement ≠ []) : Flush (substitute sign replacement text) where
  head := by
    cases text with
    | nil => exact flush.head
    | cons c rest =>
      rw [Chars.substitute, List.flatMap_cons]
      split
      · rw [List.head?_append_of_ne_nil _ some]
        exact inserted.head
      · exact flush.head
  last := by
    rcases List.eq_nil_or_concat' text with rfl | ⟨front, c, rfl⟩
    · exact flush.last
    · rw [substitute_append]
      by_cases same : c = sign
      · rw [same, Chars.substitute, Chars.substitute, List.flatMap_singleton, if_pos rfl,
          List.getLast?_append_of_ne_nil _ some]
        exact inserted.last
      · rw [Chars.substitute, Chars.substitute, List.flatMap_singleton, if_neg same,
          List.getLast?_append_of_ne_nil _ (List.cons_ne_nil _ _)]
        simpa using flush.last

end Replace

end Chars

end Scss
