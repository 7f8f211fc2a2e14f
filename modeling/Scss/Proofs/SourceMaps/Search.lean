import Mathlib.Data.List.DropRight
import Mathlib.Tactic
import Scss.SourceMap

/-! Heads in finished text, and what the search for them finds. A place is told by the text before it.
Whatever is found is a place where a head stands; and a head that stands at the start of its line is
found there, if it stands nowhere between the head before and there. -/
namespace Scss

namespace Chars

def lineAt (text : List Char) : Nat := text.count '\n' + 1

def columnAt (text : List Char) : Nat := ((text.rtakeWhile (· ≠ '\n')).map Char.utf8Size).sum

/-- A brace or a comma comes next, with or without blanks. -/
def Closes (text : List Char) : Prop :=
  (text.dropWhile isBlank).head? = some '\x7b' ∨ (text.dropWhile isBlank).head? = some ','

instance (text : List Char) : Decidable (Closes text) := inferInstanceAs (Decidable (_ ∨ _))

def Starts (head text : List Char) : Prop := head <+: text ∧ Closes (text.drop head.length)

instance (head text : List Char) : Decidable (Starts head text) := inferInstanceAs (Decidable (_ ∧ _))

/-- Nothing but blanks in the line in which a text ends. -/
def Indents (text : List Char) : Prop := ∀ c ∈ text.rtakeWhile (· ≠ '\n'), isBlank c = true

instance (text : List Char) : Decidable (Indents text) :=
  List.decidableBAll (fun c => isBlank c = true) _

theorem starts_append {head rest : List Char} (closes : Closes rest) : Starts head (head ++ rest) :=
  ⟨List.prefix_append head rest, by rwa [List.drop_left]⟩

/-- An end of an indented text without a line feed is blank. -/
theorem Indents.of_suffix {text part : List Char} (indents : Indents text) (within : part <:+ text)
    (single : '\n' ∉ part) : ∀ c ∈ part, isBlank c = true := by
  obtain ⟨before, rfl⟩ := within
  intro c member
  apply indents
  have all : ∀ d ∈ part.reverse, decide (d ≠ '\n') = true := by
    intro d found
    apply decide_eq_true
    rintro rfl
    exact single (List.mem_reverse.mp found)
  rw [List.rtakeWhile, List.reverse_append, List.takeWhile_append_of_pos all]
  simp [member]

end Chars

namespace Spot

open Chars (lineAt columnAt Closes Starts)

def behind (before rest : List Char) : Spot := ⟨lineAt before, columnAt before, rest⟩

theorem next_behind (before : List Char) (c : Char) (rest : List Char) :
    (behind before (c :: rest)).next = behind (before ++ [c]) rest := by
  unfold next behind
  dsimp only
  split
  · rename_i newline
    subst newline
    simp [lineAt, columnAt]
  · rename_i other
    simp [lineAt, columnAt, other]

theorem advance_behind (before part rest : List Char) :
    (behind before (part ++ rest)).advance part.length = behind (before ++ part) rest := by
  induction part generalizing before with
  | nil => simp [advance]
  | cons c part ih =>
    rw [List.cons_append, List.length_cons, advance, next_behind, ih]
    simp

theorem endsHead_iff (spot : Spot) : spot.endsHead = true ↔ Closes spot.rest := by
  unfold endsHead Closes
  split
  · rename_i same
    simp [same]
  · rename_i same
    simp [same]

theorem starts_iff (head past rest : List Char) :
    head.isPrefixOf rest = true ∧ ((behind past rest).advance head.length).endsHead = true ↔
      Starts head rest := by
  rw [List.isPrefixOf_iff_prefix, Starts, and_congr_right_iff]
  rintro ⟨after, rfl⟩
  rw [advance_behind, endsHead_iff, List.drop_left]
  rfl

variable {head : List Char}

/-- What is found is a place where the head stands. -/
theorem findWithin_some {left skip : Nat} {past rest : List Char} {found : Spot}
    (bound : left ≤ rest.length) (find : findWithin head left skip (behind past rest) = some found) :
    ∃ part after, rest = part ++ after ∧ found = behind (past ++ part) after ∧ Starts head after := by
  induction left generalizing skip past rest with
  | zero => cases find
  | succ left ih =>
    cases rest with
    | nil => simp at bound
    | cons c rest =>
      have later {skip : Nat} (find : findWithin head left skip (behind past (c :: rest)).next = some found) :
          ∃ part after, c :: rest = part ++ after ∧ found = behind (past ++ part) after ∧
            Starts head after := by
        rw [next_behind] at find
        obtain ⟨part, after, rfl, rfl, starts⟩ := ih (Nat.le_of_succ_le_succ bound) find
        exact ⟨c :: part, after, rfl, by simp, starts⟩
      cases skip with
      | succ skip => exact later find
      | zero =>
        rw [findWithin] at find
        split at find
        · rename_i begins
          split at find
          · rename_i ends
            obtain rfl := Option.some.inj find
            exact ⟨[], c :: rest, rfl, by simp, (starts_iff head past (c :: rest)).mp ⟨begins, ends⟩⟩
          · exact later find
        · exact later find

/-- The first place where the head stands is found, if no other occurrence of the head reaches over
its start. -/
theorem findWithin_of_clear {before rest : List Char} (starts : Starts head rest)
    (clear : ∀ part, part <:+ before → part ≠ [] → ¬ Starts head (part ++ rest))
    (apart : ∀ part, part <:+ before → part ≠ [] → head <+: part ++ rest → head.length ≤ part.length)
    {left skip : Nat} (bound : before.length < left) (inside : skip ≤ before.length)
    (past : List Char) :
    findWithin head left skip (behind past (before ++ rest)) = some (behind (past ++ before) rest) := by
  induction before generalizing left skip past with
  | nil =>
    obtain ⟨left, rfl⟩ := Nat.exists_eq_succ_of_ne_zero (Nat.ne_of_gt bound)
    obtain rfl := Nat.le_zero.mp inside
    obtain ⟨begins, ends⟩ := (starts_iff head past rest).mpr starts
    rw [List.nil_append, List.append_nil, findWithin]
    exact (if_pos begins).trans (if_pos ends)
  | cons c before ih =>
    obtain ⟨left, rfl⟩ := Nat.exists_eq_succ_of_ne_zero (Nat.ne_of_gt (Nat.zero_lt_of_lt bound))
    have later {skip : Nat} (inside : skip ≤ before.length) :
        findWithin head left skip (behind past (c :: before ++ rest)).next =
          some (behind (past ++ c :: before) rest) := by
      have within {part : List Char} (suffix : part <:+ before) : part <:+ c :: before :=
        suffix.trans (List.suffix_cons c before)
      rw [List.cons_append, next_behind,
        ih (fun part suffix => clear part (within suffix)) (fun part suffix => apart part (within suffix))
          (Nat.lt_of_succ_lt_succ bound) inside]
      simp
    cases skip with
    | succ skip => exact later (Nat.le_of_succ_le_succ inside)
    | zero =>
      have whole : c :: before <:+ c :: before := List.suffix_rfl
      rw [findWithin]
      split
      · rename_i begins
        split
        · rename_i ends
          have stands := (starts_iff head past (c :: before ++ rest)).mp ⟨begins, ends⟩
          exact absurd stands (clear _ whole (List.cons_ne_nil c before))
        · have short := apart _ whole (List.cons_ne_nil c before) (List.isPrefixOf_iff_prefix.mp begins)
          exact later (Nat.sub_le_of_le_add short)
      · exact later (Nat.zero_le _)

end Spot

/-- A mapping tells where the head of a note stands in a text, and where the note is from. -/
def Mapping.Locates (css : List Char) (note : PendingMapping) (mapping : Mapping) : Prop :=
  ∃ before after, css = before ++ after ∧ Chars.Starts note.head after ∧
    mapping = ⟨Chars.lineAt before, Chars.columnAt before, note.line, note.source⟩

namespace PendingMapping

open Spot (behind)

theorem resolveFrom_cons {note : PendingMapping} (named : note.head ≠ []) (spot : Spot)
    (rest : List PendingMapping) :
    resolveFrom spot (note :: rest) =
      match spot.find? note.head with
      | none => resolveFrom spot rest
      | some found =>
        ⟨found.line, found.column, note.line, note.source⟩ ::
          resolveFrom (found.advance note.head.length) rest := by
  rw [resolveFrom]
  split
  · contradiction
  · rfl

theorem resolveFrom_locates (notes : List PendingMapping) (past rest : List Char) :
    ∃ kept, kept.Sublist notes ∧
      List.Forall₂ (Mapping.Locates (past ++ rest)) kept (resolveFrom (behind past rest) notes) := by
  induction notes generalizing past rest with
  | nil => exact ⟨[], .slnil, .nil⟩
  | cons note notes ih =>
    have skipped : ∃ kept, kept.Sublist (note :: notes) ∧
        List.Forall₂ (Mapping.Locates (past ++ rest)) kept (resolveFrom (behind past rest) notes) := by
      obtain ⟨kept, sub, locates⟩ := ih past rest
      exact ⟨kept, sub.cons note, locates⟩
    by_cases named : note.head = []
    · simpa only [resolveFrom, named] using skipped
    rw [resolveFrom_cons named]
    cases find : (behind past rest).find? note.head with
    | none => exact skipped
    | some found =>
      obtain ⟨part, after, rfl, rfl, starts⟩ := Spot.findWithin_some (Nat.le_refl _) find
      obtain ⟨follows, -⟩ := id starts
      obtain ⟨more, rfl⟩ := follows
      obtain ⟨kept, sub, locates⟩ := ih (past ++ part ++ note.head) more
      refine ⟨note :: kept, sub.cons_cons note, ?_⟩
      dsimp only
      rw [Spot.advance_behind]
      refine .cons ⟨past ++ part, note.head ++ more, by simp, starts, rfl⟩ ?_
      simpa using locates

/-- Every mapping is one of a note of its own, and tells where its head stands. -/
theorem resolve_locates (css : String) (notes : List PendingMapping) :
    ∃ kept, kept.Sublist notes ∧ List.Forall₂ (Mapping.Locates css.toList) kept (resolve css notes) :=
  resolveFrom_locates notes [] css.toList

end PendingMapping

/-- A text that is cut at the heads of rules, from the first to the last. -/
inductive Headings where
  | last (rest : List Char)
  | head (before : List Char) (note : PendingMapping) (behind : Headings)

namespace Headings

open Chars (Closes Starts Indents lineAt columnAt)

def text : Headings → List Char
  | last rest => rest
  | head before note behind => before ++ (note.head ++ behind.text)

def tagged (tag : PendingMapping → String) : Headings → List Char
  | last rest => rest
  | head before note behind => before ++ ((tag note).toList ++ (note.head ++ behind.tagged tag))

def notes : Headings → List PendingMapping
  | last _ => []
  | head _ note behind => note :: behind.notes

def places (past : List Char) : Headings → List Mapping
  | last _ => []
  | head before note behind =>
    ⟨lineAt (past ++ before), columnAt (past ++ before), note.line, note.source⟩ ::
      behind.places (past ++ before ++ note.head)

/-- A head of one line, which does not begin with a blank. -/
def Named (note : PendingMapping) : Prop :=
  (∃ c ∈ note.head.head?, Chars.isBlank c = false) ∧ '\n' ∉ note.head

/-- Every head stands at the start of its line, and a brace or a comma follows it. -/
inductive Proper : Headings → Prop where
  | last (rest : List Char) : Proper (last rest)
  | head {before : List Char} {note : PendingMapping} {behind : Headings} (indents : Indents before)
      (named : Named note) (closes : Closes behind.text) (proper : Proper behind) :
      Proper (head before note behind)

/-- No head stands between the head before and itself. -/
def Clear : Headings → Prop
  | last _ => True
  | head before note behind =>
    (∀ part ∈ before.tails, part ≠ [] → ¬ Starts note.head (part ++ (note.head ++ behind.text))) ∧
      behind.Clear

/-- An occurrence of a head that begins before the line of the head ends there too. -/
theorem length_le_of_indents {before part rest : List Char} {note : PendingMapping}
    (named : Named note) (indents : Indents before) (suffix : part <:+ before) (nonempty : part ≠ [])
    (occurs : note.head <+: part ++ rest) : note.head.length ≤ part.length := by
  by_contra long
  -- Else the part is the start of the head, so it is no blank, but in the line of the head.
  have start : part <+: note.head :=
    List.prefix_of_prefix_length_le (List.prefix_append part rest) occurs (Nat.le_of_not_le long)
  obtain ⟨⟨c, first, visible⟩, single⟩ := named
  obtain ⟨d, part, rfl⟩ := List.exists_cons_of_ne_nil nonempty
  have same : d = c := by
    obtain ⟨more, whole⟩ := start
    rw [← whole] at first
    exact Option.some.inj first
  have blank := indents.of_suffix suffix (fun member => single (start.subset member)) d (by simp)
  rw [same, visible] at blank
  cases blank

/-- Heads that nothing stands for before their turn are found, one behind the other. -/
theorem resolveFrom_notes {headings : Headings} (proper : headings.Proper) (clear : headings.Clear)
    (past : List Char) :
    PendingMapping.resolveFrom (Spot.behind past headings.text) headings.notes =
      headings.places past := by
  induction proper generalizing past with
  | last rest => rfl
  | @head before note behind indents named closes proper ih =>
    obtain ⟨unseen, later⟩ := clear
    have nonempty : note.head ≠ [] := by
      intro empty
      obtain ⟨⟨c, first, -⟩, -⟩ := named
      simp [empty] at first
    have found : (Spot.behind past (before ++ (note.head ++ behind.text))).find? note.head =
        some (Spot.behind (past ++ before) (note.head ++ behind.text)) := by
      refine Spot.findWithin_of_clear (Chars.starts_append closes) ?_ ?_ ?_ (Nat.zero_le _) past
      · exact fun part suffix => unseen part (List.mem_tails _ _ |>.mpr suffix)
      · exact fun part suffix => length_le_of_indents named indents suffix
      · have positive := List.length_pos_iff.mpr nonempty
        simp only [Spot.behind, List.length_append]
        omega
    rw [notes, text, PendingMapping.resolveFrom_cons nonempty, found]
    dsimp only
    rw [Spot.advance_behind, ih later]
    rfl

/-- So they are mapped to where they stand. -/
theorem resolve_notes {headings : Headings} (proper : headings.Proper) (clear : headings.Clear) :
    PendingMapping.resolve (String.ofList headings.text) headings.notes = headings.places [] := by
  rw [PendingMapping.resolve, String.toList_ofList]
  exact resolveFrom_notes proper clear []

end Headings

end Scss
