import Scss.Proofs.Braces.Marks
import Scss.Proofs.Cutting
import Scss.Proofs.SourceMaps.Search

/-! Tagged text: the same text twice, without and with tags before the heads of rules. A head has a row
to itself, or the first of its rows if they were split; all else is whole rows without tags. Nothing that
is done to finished text moves a tag away from its head. -/
namespace Scss

def isSyntax (c : Char) : Bool := Chars.isBlank c || "@,\x7b\x7d\"'()[]".toList.contains c

/-- A head that can be told from other text: of one line, and not empty. -/
def PendingMapping.isRegular (note : PendingMapping) : Bool :=
  match note.selector.toList with
  | [] => false
  | c :: rest => !Chars.isBlank c && c ≠ ',' && c ≠ '@' && !rest.contains '\n'

namespace Enclosure

theorem next_outside {c : Char} (plain : isSyntax c = false) : outside.next c = outside := by
  refine next_of_plain (fun member => ?_) rfl
  simp only [List.mem_cons, List.not_mem_nil, or_false] at member
  rcases member with rfl | rfl | rfl | rfl | rfl | rfl <;> revert plain <;> decide

theorem after_of_plain {tag : List Char} (plain : Chars.Free isSyntax tag) (text : List Char) :
    outside.after (tag ++ text) = outside.after text := by
  induction tag with
  | nil => rfl
  | cons c tag ih =>
    obtain ⟨here, behind⟩ := Chars.Free.cons_iff.mp plain
    rw [← ih behind]
    exact congrArg (List.foldl next · (tag ++ text)) (next_outside here)

end Enclosure

namespace Chars

open Enclosure (outside)

theorem uncut_of_plain {tag text : List Char} (plain : Free isSyntax tag) (uncut : Uncut ',' outside text) :
    Uncut ',' outside (tag ++ text) := by
  induction tag with
  | nil => exact uncut
  | cons c tag ih =>
    obtain ⟨here, behind⟩ := Free.cons_iff.mp plain
    have other : c ≠ ',' := by
      rintro rfl
      revert here
      decide
    have next : outside.next c = outside := Enclosure.next_outside here
    exact uncut_cons.mpr ⟨by simp [Enclosure.cutsAt, other], by rw [next]; exact ih behind⟩

/-- The front of a row: it begins as a selector does, and has no cut and no blank at its end. -/
structure Front (front : List Char) : Prop where
  first : ∃ c rest, front = c :: rest ∧ isBlank c = false ∧ c ≠ ',' ∧ c ≠ '@'
  trimmed : trimEnd front = front
  uncut : Uncut ',' outside front

/-- What is in a row behind its front, up to the brace: blanks, and a comma that cuts. -/
def Cuts (enclosure : Enclosure) (tail : List Char) : Prop :=
  ∃ blanks rest, (∀ b ∈ blanks, isBlank b = true) ∧ tail = blanks ++ rest ∧
    (rest = [] ∨ rest.head? = some ',' ∧ enclosure.cutsAt ',' ',' = true)

theorem Cuts.space {enclosure : Enclosure} {tail : List Char} (cuts : Cuts enclosure tail) :
    Cuts enclosure (tail ++ [' ']) := by
  obtain ⟨blanks, rest, blank, rfl, ends⟩ := cuts
  rcases ends with rfl | ⟨comma, cuts⟩
  · refine ⟨blanks ++ [' '], [], List.forall_mem_append.mpr ⟨blank, List.forall_mem_singleton.mpr rfl⟩, by simp,
      .inl rfl⟩
  · refine ⟨blanks, rest ++ [' '], blank, List.append_assoc _ _ _, .inr ⟨?_, cuts⟩⟩
    rw [List.head?_append, comma]
    rfl

theorem Front.tag {tag front : List Char} (front_ : Front front) (plain : Free isSyntax tag) :
    Front (tag ++ front) := by
  obtain ⟨⟨c, rest, rfl, visible, comma, sign⟩, trimmed, uncut⟩ := front_
  refine ⟨?_, ?_, uncut_of_plain plain uncut⟩
  · cases tag with
    | nil => exact ⟨c, rest, rfl, visible, comma, sign⟩
    | cons d tag =>
      have syntaxless := plain d (by simp)
      simp only [isSyntax, Bool.or_eq_false_iff] at syntaxless
      refine ⟨d, _, rfl, syntaxless.1, ?_, ?_⟩
      · rintro rfl
        simp at syntaxless
      · rintro rfl
        simp at syntaxless
  · rw [trimEnd_behind _ visible, trimmed]

/-- The pieces of a row: the front, and the others, which do not depend on it. -/
theorem splitTopLevel_front {enclosure : Enclosure} {tail : List Char} (cuts : Cuts enclosure tail) :
    ∃ others, (others ≠ [] → enclosure.cutsAt ',' ',' = true) ∧
      ∀ front, Front front → outside.after front = enclosure →
        splitTopLevel ',' (trimEnd (front ++ tail)) = front :: others := by
  obtain ⟨blanks, rest, blank, rfl, ends⟩ := cuts
  rcases ends with rfl | ⟨comma, cuts⟩
  · refine ⟨[], fun some => absurd rfl some, fun front fronts _ => ?_⟩
    obtain ⟨⟨c, rest, rfl, visible, -, -⟩, trimmed, uncut⟩ := fronts
    rw [List.append_nil, trimEnd_blanks blank, trimmed, splitTopLevel, uncut]
    simp [trim_of_visible visible, trimmed]
  · obtain ⟨more, rfl⟩ : ∃ more, rest = ',' :: more := by
      cases rest with
      | nil => simp at comma
      | cons d more => exact ⟨more, by rw [Option.some.inj comma]⟩
    have visible : isBlank ',' = false := by decide
    obtain ⟨kept, same⟩ := exists_trimEnd_cons visible more
    refine ⟨(topLevelPieces ',' enclosure kept).map trim, fun _ => cuts, fun front fronts behind => ?_⟩
    have unquoted : enclosure.quote = none := by
      simp only [Enclosure.cutsAt, Bool.and_eq_true, Option.isNone_iff_eq_none] at cuts
      exact cuts.1.1.1
    have pieces : topLevelPieces ',' outside (front ++ (blanks ++ ',' :: kept)) =
        (front ++ blanks) :: topLevelPieces ',' enclosure kept := by
      rw [topLevelPieces_append fronts.uncut, behind, topLevelPieces_append (uncut_blanks blank _),
        after_blanks blank (by simp [unquoted]), topLevelPieces, if_pos cuts]
      simp [extendPiece]
    obtain ⟨⟨c, rest, rfl, shown, -, -⟩, trimmed, -⟩ := fronts
    rw [← List.append_assoc, trimEnd_behind _ visible, same, List.append_assoc, splitTopLevel, pieces,
      List.map_cons, List.cons_append, trim_of_visible shown, ← List.cons_append, trimEnd_blanks blank,
      trimmed]

/-- How the first row of a head ends: with the brace, or with the comma behind the first selector. -/
inductive Ending (enclosure : Enclosure) : List Char → Prop where
  | brace {tail : List Char} (cuts : Cuts enclosure tail) (single : '\n' ∉ tail) :
      Ending enclosure (tail ++ ['\x7b'])
  | comma (cuts : enclosure.cutsAt ',' ',' = true) : Ending enclosure [',']

end Chars

namespace SelectorList

open Chars (Free Front Cuts Ending isBlank)
open Enclosure (outside)

variable {indent front tail tag : List Char}

theorem header?_front (blank : ∀ c ∈ indent, isBlank c = true) (fronts : Front front) (tail : List Char) :
    header? (indent ++ (front ++ (tail ++ ['\x7b']))) =
      if ',' ∈ front ++ tail ∧ '\x7b' ∉ front ++ tail ∧ '\x7d' ∉ front ++ tail then
        some (indent, Chars.trimEnd (front ++ tail))
      else none := by
  obtain ⟨⟨c, rest, rfl, visible, comma, sign⟩, -, -⟩ := fronts
  have start : (indent ++ (c :: rest ++ (tail ++ ['\x7b']))).takeWhile isBlank = indent := by
    rw [List.takeWhile_append_of_pos blank, List.cons_append, List.takeWhile_cons_of_neg (by simp [visible])]
    simp
  have whole : c :: rest ++ (tail ++ ['\x7b']) = (c :: rest ++ tail) ++ ['\x7b'] := by simp
  unfold header?
  dsimp only
  rw [start, List.drop_left, whole, List.dropLast_concat, List.getLast?_concat]
  simp [sign, comma.symm, and_assoc]

theorem splitLine_comma (line : List Char) : splitLine (line ++ [',']) = line ++ [','] := by
  unfold splitLine
  split
  · rename_i header
    obtain ⟨head, same, -⟩ := header_eq header
    obtain ⟨-, last⟩ := List.append_inj' same rfl
    simp at last
  · rfl

theorem mem_tagged {c : Char} (syntactic : isSyntax c = true) (plain : Free isSyntax tag)
    (text : List Char) : c ∈ tag ++ text ↔ c ∈ text := by
  have absent : c ∉ tag := by
    intro member
    rw [plain c member] at syntactic
    cases syntactic
  rw [List.mem_append, or_iff_right absent]

/-- Splitting keeps the front of a row where it is, with a tag or without one. -/
theorem splitLine_brace (blank : ∀ c ∈ indent, isBlank c = true) (fronts : Front front)
    (cuts : Cuts (outside.after front) tail) (single : '\n' ∉ tail) :
    ∃ ending rows, Ending (outside.after front) ending ∧ (rows = [] ∨ rows.head? = some '\n') ∧
      ∀ tag, Free isSyntax tag →
        splitLine (indent ++ (tag ++ (front ++ (tail ++ ['\x7b'])))) =
          indent ++ (tag ++ (front ++ (ending ++ rows))) := by
  obtain ⟨others, proper, pieces⟩ := Chars.splitTopLevel_front cuts
  have header (tag : List Char) (plain : Free isSyntax tag) :
      header? (indent ++ (tag ++ (front ++ (tail ++ ['\x7b'])))) =
        if ',' ∈ front ++ tail ∧ '\x7b' ∉ front ++ tail ∧ '\x7d' ∉ front ++ tail then
          some (indent, Chars.trimEnd (tag ++ front ++ tail))
        else none := by
    have tagged := header?_front blank (fronts.tag plain) tail
    simp only [List.append_assoc, mem_tagged _ plain, show isSyntax ',' = true by decide,
      show isSyntax '\x7b' = true by decide, show isSyntax '\x7d' = true by decide] at tagged ⊢
    exact tagged
  by_cases split : ',' ∈ front ++ tail ∧ '\x7b' ∉ front ++ tail ∧ '\x7d' ∉ front ++ tail
  · have line (tag : List Char) (plain : Free isSyntax tag) :
        splitLine (indent ++ (tag ++ (front ++ (tail ++ ['\x7b'])))) =
          indent ++ List.intercalate (",\n".toList ++ indent) ((tag ++ front) :: others) ++
            " \x7b".toList := by
      unfold splitLine
      rw [header tag plain, if_pos split]
      dsimp only
      rw [pieces (tag ++ front) (fronts.tag plain) (Enclosure.after_of_plain plain front)]
    cases others with
    | nil =>
      refine ⟨[' '] ++ ['\x7b'], [], .brace ⟨[' '], [], List.forall_mem_singleton.mpr rfl, rfl, .inl rfl⟩ (by decide),
        .inl rfl, ?_⟩
      intro tag plain
      rw [line tag plain, List.intercalate_singleton]
      simp
    | cons second others =>
      refine ⟨[','], '\n' :: (indent ++ (List.intercalate (",\n".toList ++ indent) (second :: others) ++
        " \x7b".toList)), .comma (proper (List.cons_ne_nil _ _)), .inr rfl, ?_⟩
      intro tag plain
      rw [line tag plain, List.intercalate_cons_cons]
      simp
  · refine ⟨tail ++ ['\x7b'], [], .brace cuts single, .inl rfl, fun tag plain => ?_⟩
    unfold splitLine
    rw [header tag plain, if_neg split, List.append_nil]

theorem splitLine_row (blank : ∀ c ∈ indent, isBlank c = true) (fronts : Front front)
    {own : List Char} (ends : Ending (outside.after front) own) :
    ∃ ending rows, Ending (outside.after front) ending ∧ (rows = [] ∨ rows.head? = some '\n') ∧
      ∀ tag, Free isSyntax tag →
        splitLine (indent ++ (tag ++ (front ++ own))) = indent ++ (tag ++ (front ++ (ending ++ rows))) := by
  cases ends with
  | brace cuts single => exact splitLine_brace blank fronts cuts single
  | comma cuts =>
    refine ⟨[','], [], .comma cuts, .inl rfl, fun tag _ => ?_⟩
    simpa using splitLine_comma (indent ++ (tag ++ front))

end SelectorList

end Scss
