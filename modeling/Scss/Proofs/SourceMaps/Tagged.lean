import Scss.Eval.Sheet
import Scss.Proofs.SourceMaps.Rows

/-! Finished text beside the same text with tags before the heads of style rules. Both are made of whole
rows; a head has a row to itself, or the first of its rows once they are split. What is done to finished
text goes along with the tags, and in the end the heads stand where the tags are. -/
namespace Scss

open Enclosure (outside)

namespace PendingMapping

open Chars (Front Cuts isBlank)

variable {note : PendingMapping}

/-- The selector with a tag, if its head can be told from other text. -/
def tagged (tag : PendingMapping → String) (note : PendingMapping) : String :=
  if note.isRegular then tag note ++ note.selector else note.selector

/-- A regular selector is its head, and then nothing or a comma that cuts. -/
theorem exists_tail (regular : note.isRegular = true) :
    Front note.head ∧ ∃ tail, note.selector.toList = note.head ++ tail ∧
      Cuts (outside.after note.head) tail ∧ '\n' ∉ note.head ∧ '\n' ∉ tail := by
  unfold isRegular at regular
  split at regular
  · cases regular
  rename_i c rest text
  simp only [Bool.and_eq_true, Bool.not_eq_true', decide_eq_true_eq] at regular
  obtain ⟨⟨⟨visible, comma⟩, sign⟩, single⟩ := regular
  obtain ⟨piece, others, pieces, uncut, ends⟩ := Chars.topLevelPieces_first ',' outside (c :: rest)
  obtain ⟨more, rfl⟩ : ∃ more, piece = c :: more := by
    cases piece with
    | nil =>
      rcases ends with same | ⟨more, same, -⟩
      · cases same
      · exact absurd (List.cons.inj same).1 comma
    | cons d more =>
      rcases ends with same | ⟨_, same, -⟩ <;> exact ⟨more, by rw [(List.cons.inj same).1]⟩
  have head : note.head = Chars.trimEnd (c :: more) := by
    simp [PendingMapping.head, Chars.splitTopLevel, text, pieces, Chars.trim_of_visible visible]
  obtain ⟨blanks, blank, whole⟩ := Chars.exists_blanks (c :: more)
  rw [← head] at whole
  have kept : outside.after (c :: more) = outside.after note.head := by
    have marks := Enclosure.isBlank_quote outside (by simp [outside]) note.head
    rw [whole, Enclosure.after, List.foldl_append]
    exact Chars.after_blanks blank marks
  have unbroken : '\n' ∉ note.selector.toList := by
    rw [text, List.mem_cons, not_or]
    refine ⟨?_, by simpa using single⟩
    rintro rfl
    revert visible
    decide
  obtain ⟨tail, same, cuts⟩ : ∃ tail, c :: rest = note.head ++ tail ∧ Cuts (outside.after note.head) tail := by
    rcases ends with same | ⟨after, same, cut⟩
    · exact ⟨blanks, same.trans whole, blanks, [], blank, (List.append_nil _).symm, .inl rfl⟩
    · rw [kept] at cut
      exact ⟨blanks ++ ',' :: after, by rw [same, whole, List.append_assoc], blanks, ',' :: after, blank,
        rfl, .inr ⟨rfl, cut⟩⟩
  rw [← text] at same
  rw [same, List.mem_append, not_or] at unbroken
  have front : Front note.head := by
    rw [whole] at uncut
    obtain ⟨more, start⟩ := Chars.exists_trimEnd_cons visible more
    refine ⟨⟨c, more, head.trans start, visible, comma, sign⟩, ?_, uncut.of_append⟩
    rw [head, Chars.trimEnd_trimEnd]
  exact ⟨front, tail, same, cuts, unbroken⟩

end PendingMapping

namespace Chars

/-- Nothing, or rows that end with a line feed. -/
def Whole (text : List Char) : Prop := text = [] ∨ ∃ rows, text = rows ++ ['\n']

structure Row (indent : List Char) (note : PendingMapping) (ending : List Char) : Prop where
  spaces : ∀ c ∈ indent, c = ' '
  regular : note.isRegular = true
  ending : Ending (outside.after note.head) ending

/-- The second text is the first one with tags before heads, and these are the heads. -/
inductive Laid (tag : PendingMapping → String) :
    List Char → List Char → List PendingMapping → Prop where
  | nil : Laid tag [] [] []
  | rows {part text twin : List Char} {notes : List PendingMapping} (whole : Whole part)
      (rest : Laid tag text twin notes) : Laid tag (part ++ text) (part ++ twin) notes
  | head {indent ending text twin : List Char} {note : PendingMapping} {notes : List PendingMapping}
      (row : Row indent note ending) (rest : Laid tag text twin notes) :
      Laid tag (indent ++ (note.head ++ (ending ++ '\n' :: text)))
        (indent ++ ((tag note).toList ++ (note.head ++ (ending ++ '\n' :: twin)))) (note :: notes)

theorem Row.visible {indent ending : List Char} {note : PendingMapping} (row : Row indent note ending) :
    ∃ c rest, note.head = c :: rest ∧ isBlank c = false := by
  obtain ⟨⟨⟨c, rest, same, visible, -⟩, -, -⟩, -⟩ := PendingMapping.exists_tail row.regular
  exact ⟨c, rest, same, visible⟩

theorem Row.blank {indent ending : List Char} {note : PendingMapping} (row : Row indent note ending) :
    ∀ c ∈ indent, isBlank c = true := by
  intro c member
  rw [row.spaces c member]
  rfl

namespace Ending

variable {enclosure : Enclosure} {ending : List Char}

theorem single (ends : Ending enclosure ending) : '\n' ∉ ending := by
  cases ends with
  | brace cuts single => simpa using single
  | comma => decide

theorem exists_last (ends : Ending enclosure ending) :
    ∃ init c, ending = init ++ [c] ∧ c ≠ '\n' := by
  cases ends with
  | brace => exact ⟨_, _, rfl, by decide⟩
  | comma => exact ⟨[], ',', rfl, by decide⟩

/-- The end of a row closes its head. -/
theorem closes (ends : Ending enclosure ending) (rest : List Char) : Closes (ending ++ rest) := by
  cases ends with
  | comma => exact .inr rfl
  | brace cuts =>
    obtain ⟨blanks, more, blank, rfl, cut⟩ := cuts
    have kept (text : List Char) : (blanks ++ text).dropWhile isBlank = text.dropWhile isBlank :=
      List.dropWhile_append_of_pos blank
    rcases cut with rfl | ⟨comma, -⟩
    · left
      rw [List.append_nil, List.append_assoc, kept]
      rfl
    · right
      cases more with
      | nil => cases comma
      | cons c more =>
        obtain rfl := Option.some.inj comma
        rw [List.append_assoc, List.append_assoc, kept]
        rfl

end Ending

theorem whole_nil : Whole [] := .inl rfl

theorem whole_concat (rows : List Char) : Whole (rows ++ ['\n']) := .inr ⟨rows, rfl⟩

theorem Whole.append {first second : List Char} (whole : Whole first) (also : Whole second) :
    Whole (first ++ second) := by
  rcases also with rfl | ⟨rows, rfl⟩
  · rwa [List.append_nil]
  · rw [← List.append_assoc]
    exact whole_concat _

theorem Whole.indents {text indent : List Char} (whole : Whole text) (spaces : ∀ c ∈ indent, c = ' ') :
    Indents (text ++ indent) := by
  have other : ∀ c ∈ indent.reverse, decide (c ≠ '\n') = true := by
    intro c member
    rw [spaces c (List.mem_reverse.mp member)]
    decide
  intro c member
  rw [List.rtakeWhile, List.reverse_append, List.takeWhile_append_of_pos other] at member
  have within : c ∈ indent := by
    rcases whole with rfl | ⟨rows, rfl⟩ <;> simpa using member
  rw [spaces c within]
  rfl

namespace Laid

variable {tag : PendingMapping → String} {text twin other also : List Char}
  {notes more : List PendingMapping}

theorem ofWhole (whole : Whole text) : Laid tag text text [] := by
  simpa using rows whole (nil : Laid tag [] [] [])

theorem append (first : Laid tag text twin notes) (second : Laid tag other also more) :
    Laid tag (text ++ other) (twin ++ also) (notes ++ more) := by
  induction first with
  | nil => exact second
  | rows whole _ ih => simpa only [List.append_assoc] using rows whole ih
  | head row _ ih => simpa only [List.append_assoc, List.cons_append] using head row ih

/-- Heads are no blanks, so both texts are blank or none is. -/
theorem all_eq {p : Char → Bool} (blank : ∀ c, p c = true → isBlank c = true)
    (laid : Laid tag text twin notes) : twin.all p = text.all p := by
  induction laid with
  | nil => rfl
  | rows _ _ ih => simp only [List.all_append, ih]
  | head row _ ih =>
    obtain ⟨c, rest, same, visible⟩ := row.visible
    have shown : p c = false := by
      rw [Bool.eq_false_iff]
      intro holds
      rw [blank c holds] at visible
      cases visible
    simp [same, shown]

/-- Blank text has no heads. -/
theorem eq_of_all {p : Char → Bool} (blank : ∀ c, p c = true → isBlank c = true)
    (laid : Laid tag text twin notes) (all : text.all p = true) : twin = text ∧ notes = [] := by
  induction laid with
  | nil => exact ⟨rfl, rfl⟩
  | rows _ _ ih =>
    simp only [List.all_append, Bool.and_eq_true] at all
    obtain ⟨rfl, rfl⟩ := ih all.2
    exact ⟨rfl, rfl⟩
  | head row _ _ =>
    obtain ⟨c, rest, same, visible⟩ := row.visible
    simp only [same, List.all_append, List.all_cons, Bool.and_eq_true] at all
    rw [blank c all.2.1.1] at visible
    cases visible

theorem eq_nil_iff (laid : Laid tag text twin notes) : twin = [] ↔ text = [] := by
  have same := laid.all_eq (p := fun _ => false) nofun
  cases text <;> cases twin <;> simp_all

end Laid

/-- Only line feeds at the end are touched. -/
theorem terminated_behind (before : List Char) {text : List Char} (some : text.all (· = '\n') = false) :
    terminated (before ++ text) = before ++ terminated text := by
  have kept : text.reverse.dropWhile (· = '\n') ≠ [] := by
    intro empty
    have all : text.all (· = '\n') = true := by simpa using List.dropWhile_eq_nil_iff.mp empty
    rw [all] at some
    cases some
  unfold terminated List.rdropWhile
  rw [List.reverse_append, List.dropWhile_append, List.isEmpty_eq_false_iff.mpr kept]
  simp

theorem blank_newline (c : Char) (newline : decide (c = '\n') = true) : isBlank c = true := by
  rw [of_decide_eq_true newline]
  rfl

/-- Tags stay where they are when the line feeds at the end are made one. -/
theorem Laid.terminated {tag : PendingMapping → String} {text twin : List Char}
    {notes : List PendingMapping} (laid : Laid tag text twin notes) :
    Laid tag (terminated text) (terminated twin) notes := by
  induction laid with
  | nil => exact .ofWhole (whole_concat [])
  | @rows part text twin notes whole rest ih =>
    cases blank : text.all (· = '\n') with
    | true =>
      obtain ⟨rfl, rfl⟩ := rest.eq_of_all blank_newline blank
      exact .ofWhole (whole_concat _)
    | false =>
      rw [terminated_behind part blank, terminated_behind part (rest.all_eq blank_newline ▸ blank)]
      exact .rows whole ih
  | @head indent ending text twin note notes row rest ih =>
    obtain ⟨init, c, rfl, other⟩ := row.ending.exists_last
    have plain := terminated_append (indent ++ (note.head ++ init)) other text
    have tagged := terminated_append (indent ++ ((tag note).toList ++ (note.head ++ init))) other twin
    rw [rest.all_eq blank_newline] at tagged
    simp only [List.append_assoc, List.cons_append, List.nil_append] at plain tagged ⊢
    rw [plain, tagged]
    have behind : Laid tag (if text.all (· = '\n') then [] else Chars.terminated text)
        (if text.all (· = '\n') then [] else Chars.terminated twin) notes := by
      split
      · rename_i blank
        obtain ⟨rfl, rfl⟩ := rest.eq_of_all blank_newline blank
        exact .nil
      · exact ih
    simpa only [List.append_assoc, List.cons_append, List.nil_append] using Laid.head row behind

end Chars

namespace SelectorList

open Chars (Free Whole Laid)

theorem lineCut_row {line : List Char} (single : '\n' ∉ line) :
    Chars.lineCut (line ++ ['\n']) = [⟨line, true⟩] := by
  induction line with
  | nil => rfl
  | cons c line ih =>
    obtain ⟨other, behind⟩ := not_or.mp (mt List.mem_cons.mpr single)
    have step : Chars.lineCut (c :: line ++ ['\n']) = Chars.pushLine c (Chars.lineCut (line ++ ['\n'])) := rfl
    rw [step, ih behind, Chars.pushLine, if_neg fun same => other same.symm]

theorem splitChars_row {line : List Char} (single : '\n' ∉ line) (rest : List Char) :
    splitChars (line ++ '\n' :: rest) = splitLine line ++ '\n' :: splitChars rest := by
  rw [splitChars_append]
  unfold splitChars
  rw [lineCut_row single]
  simp [Chars.Line.whole]

theorem lineCut_ended (rows : List Char) :
    ∃ init body, Chars.lineCut (rows ++ ['\n']) = init ++ [⟨body, true⟩] := by
  induction rows with
  | nil => exact ⟨[], [], rfl⟩
  | cons c rows ih =>
    obtain ⟨init, body, cut⟩ := ih
    have step : Chars.lineCut (c :: rows ++ ['\n']) = Chars.pushLine c (init ++ [⟨body, true⟩]) := by
      rw [← cut]
      rfl
    rw [step]
    unfold Chars.pushLine
    split
    · exact ⟨⟨[], true⟩ :: init, body, rfl⟩
    · cases init with
      | nil => exact ⟨[], c :: body, rfl⟩
      | cons line more => exact ⟨⟨c :: line.body, line.ended⟩ :: more, body, rfl⟩

theorem whole_splitChars {text : List Char} (whole : Whole text) : Whole (splitChars text) := by
  rcases whole with rfl | ⟨rows, rfl⟩
  · exact .inl rfl
  · obtain ⟨init, body, cut⟩ := lineCut_ended rows
    rw [splitChars, cut, List.flatMap_append, List.flatMap_singleton]
    exact .inr ⟨_, (List.append_assoc _ (splitLine body) ['\n']).symm⟩

theorem splitChars_whole {part : List Char} (whole : Whole part) (rest : List Char) :
    splitChars (part ++ rest) = splitChars part ++ splitChars rest := by
  rcases whole with rfl | ⟨rows, rfl⟩
  · rfl
  · rw [← splitChars_append, List.append_assoc]
    rfl

/-- Tags stay where they are when heads are split. -/
theorem laid_splitChars {tag : PendingMapping → String} (plain : ∀ note, Text.Free isSyntax (tag note))
    {text twin : List Char} {notes : List PendingMapping} (laid : Laid tag text twin notes) :
    Laid tag (splitChars text) (splitChars twin) notes := by
  induction laid with
  | nil => exact .nil
  | rows whole rest ih =>
    rw [splitChars_whole whole, splitChars_whole whole]
    exact .rows (whole_splitChars whole) ih
  | @head indent ending text twin note notes row rest ih =>
    obtain ⟨fronts, -, -, -, single, -⟩ := PendingMapping.exists_tail row.regular
    obtain ⟨kept, rows, ends, started, split⟩ := splitLine_row row.blank fronts row.ending
    have line (tag : List Char) (plain : Free isSyntax tag) (text : List Char) :
        splitChars (indent ++ (tag ++ (note.head ++ (ending ++ '\n' :: text)))) =
          indent ++ (tag ++ (note.head ++ (kept ++ (rows ++ '\n' :: splitChars text)))) := by
      have unbroken : '\n' ∉ indent ++ (tag ++ (note.head ++ ending)) := by
        have spaces : '\n' ∉ indent := fun member => absurd (row.spaces _ member) (by decide)
        have tags : '\n' ∉ tag := fun member => absurd (plain _ member) (by decide)
        simp [spaces, tags, single, row.ending.single]
      have whole := splitChars_row unbroken text
      rw [split tag plain] at whole
      simpa only [List.append_assoc] using whole
    have bare := line [] nofun text
    rw [List.nil_append, List.nil_append] at bare
    rw [bare, line _ (plain note) twin]
    have first : Chars.Row indent note kept := ⟨row.spaces, row.regular, ends⟩
    rcases started with rfl | started
    · exact .head first ih
    · obtain ⟨more, rfl⟩ : ∃ more, rows = '\n' :: more := by
        cases rows with
        | nil => cases started
        | cons c more => exact ⟨more, by rw [Option.some.inj started]⟩
      have others := Laid.head first (Laid.rows (Chars.whole_concat more) ih)
      simpa only [List.append_assoc, List.cons_append, List.nil_append] using others

end SelectorList

namespace Chars.Laid

variable {tag : PendingMapping → String} {text twin : List Char} {notes : List PendingMapping}

/-- Heads stand where the tags are. -/
theorem exists_headings (laid : Laid tag text twin notes) {past : List Char} (whole : Whole past) :
    ∃ headings : Headings, headings.Proper ∧ headings.text = past ++ text ∧
      headings.tagged tag = past ++ twin ∧ headings.notes = notes := by
  induction laid generalizing past with
  | nil => exact ⟨.last past, .last past, (List.append_nil past).symm, (List.append_nil past).symm, rfl⟩
  | rows also _ ih => simpa only [List.append_assoc] using ih (whole.append also)
  | @head indent ending text twin note notes row rest ih =>
    obtain ⟨behind, proper, shown, tagged, rfl⟩ := ih (whole_concat ending)
    obtain ⟨⟨⟨c, more, same, visible, -⟩, -, -⟩, -, -, -, single, -⟩ :=
      PendingMapping.exists_tail row.regular
    have named : Headings.Named note := ⟨⟨c, by rw [same]; rfl, visible⟩, single⟩
    have closes : Closes behind.text := by
      rw [shown, List.append_assoc]
      exact row.ending.closes _
    refine ⟨.head (past ++ indent) note behind, .head (whole.indents row.spaces) named closes proper,
      ?_, ?_, rfl⟩
    · simp [Headings.text, shown]
    · simp [Headings.tagged, tagged]

end Chars.Laid

namespace Text

/-- Nothing, or rows that end with a line feed. -/
def Whole (text : String) : Prop := Chars.Whole text.toList

/-- What ends with a line feed is whole. -/
theorem whole_ended (before : String) {last : String} (ended : last.toList.getLast? = some '\n') :
    Whole (before ++ last) := by
  obtain ⟨rows, same⟩ := List.getLast?_eq_some_iff.mp ended
  rw [Whole, String.toList_append, same, ← List.append_assoc]
  exact Chars.whole_concat _

theorem Whole.append {first second : String} (whole : Whole first) (also : Whole second) :
    Whole (first ++ second) := by
  rw [Whole, String.toList_append]
  exact Chars.Whole.append whole also

theorem whole_join {texts : List String} (whole : ∀ text ∈ texts, Whole text) :
    Whole (String.join texts) := by
  induction texts with
  | nil => exact .inl rfl
  | cons text rest ih =>
    obtain ⟨here, behind⟩ := List.forall_mem_cons.mp whole
    rw [String.join_cons]
    exact here.append (ih behind)

theorem whole_block (head contents : String) (level : Nat) : Whole (block head contents level) :=
  whole_ended _ (by decide)

theorem whole_formatDeclarations (lines : List String) (level : Nat) :
    Whole (formatDeclarations lines level) := by
  apply whole_join
  intro text member
  obtain ⟨line, -, rfl⟩ := List.mem_map.mp member
  exact whole_ended _ (by decide)

/-- The second text is the first one with tags before heads, and these are the heads. -/
def Laid (tag : PendingMapping → String) (text twin : String) (heads : Multiset PendingMapping) : Prop :=
  ∃ notes, Chars.Laid tag text.toList twin.toList notes ∧ ↑notes = heads

variable {tag : PendingMapping → String} {text twin : String} {heads : Multiset PendingMapping}

theorem Whole.laid (whole : Whole text) : Laid tag text text 0 := ⟨[], .ofWhole whole, rfl⟩

namespace Laid

theorem empty : Laid tag "" "" 0 := Whole.laid (.inl rfl)

theorem append {other also : String} {more : Multiset PendingMapping} (first : Laid tag text twin heads)
    (second : Laid tag other also more) : Laid tag (text ++ other) (twin ++ also) (heads + more) := by
  obtain ⟨notes, laid, rfl⟩ := first
  obtain ⟨others, behind, rfl⟩ := second
  refine ⟨notes ++ others, ?_, rfl⟩
  rw [String.toList_append, String.toList_append]
  exact laid.append behind

theorem isEmpty (laid : Laid tag text twin heads) : twin.isEmpty = text.isEmpty := by
  obtain ⟨notes, laid, -⟩ := laid
  have empty := laid.eq_nil_iff
  simp only [String.toList_eq_nil_iff] at empty
  rw [Bool.eq_iff_iff, String.isEmpty_iff, String.isEmpty_iff, empty]

theorem isBlank (laid : Laid tag text twin heads) : Text.isBlank twin = Text.isBlank text := by
  obtain ⟨notes, laid, -⟩ := laid
  exact laid.all_eq fun _ blank => blank

theorem eq_zero (laid : Laid tag text twin heads) (blank : Text.isBlank text = true) : heads = 0 := by
  obtain ⟨notes, laid, rfl⟩ := laid
  obtain ⟨-, rfl⟩ := laid.eq_of_all (fun _ blank => blank) blank
  rfl

theorem eq_zero_of_isEmpty (laid : Laid tag text twin heads) (empty : text.isEmpty = true) :
    heads = 0 := by
  apply laid.eq_zero
  rw [String.isEmpty_iff.mp empty]
  rfl

theorem split (plain : ∀ note, Free isSyntax (tag note)) (laid : Laid tag text twin heads) :
    Laid tag (SelectorList.split text) (SelectorList.split twin) heads := by
  obtain ⟨notes, laid, rfl⟩ := laid
  refine ⟨notes, ?_, rfl⟩
  rw [SelectorList.split, SelectorList.split, String.toList_ofList, String.toList_ofList]
  exact SelectorList.laid_splitChars plain laid

theorem wrapBlock (head : String) (laid : Laid tag text twin heads) (level : Nat) :
    Laid tag (wrapBlock head text level) (wrapBlock head twin level) heads := by
  have first : Laid tag (indent level ++ head ++ " \x7b\n") (indent level ++ head ++ " \x7b\n") 0 :=
    (whole_ended _ (by decide)).laid
  have last : Laid tag (indent level ++ "\x7d\n") (indent level ++ "\x7d\n") 0 :=
    (whole_ended _ (by decide)).laid
  obtain ⟨notes, laid, rfl⟩ := laid
  have ended : Laid tag (dropNewlines text ++ "\n") (dropNewlines twin ++ "\n") ↑notes := by
    refine ⟨notes, ?_, rfl⟩
    simpa [dropNewlines, Chars.terminated, List.rdropWhile] using laid.terminated
  have whole := (first.append ended).append last
  rw [zero_add, add_zero] at whole
  simpa only [Scss.wrapBlock, block, String.append_assoc] using whole

end Laid

/-- The head of a rule gets a tag if it is regular. -/
theorem laid_rule (tag : PendingMapping → String) (note : PendingMapping) (contents : String) (level : Nat) :
    ∃ heads ≤ {note}, Laid tag (block note.selector contents level) (block (note.tagged tag) contents level)
      heads := by
  cases regular : note.isRegular with
  | false =>
    rw [PendingMapping.tagged, regular]
    exact ⟨0, Multiset.zero_le _, (whole_block _ _ _).laid⟩
  | true =>
    obtain ⟨-, tail, whole, cuts, -, single⟩ := PendingMapping.exists_tail regular
    have spaces : ∀ c ∈ (indent level).toList, c = ' ' := by simp [indent]
    have ending : Chars.Ending (outside.after note.head) (tail ++ [' '] ++ ['\x7b']) :=
      .brace cuts.space (by simpa using single)
    have last : Whole (contents ++ indent level ++ "\x7d\n") := whole_ended _ (by decide)
    have laid := Chars.Laid.head (⟨spaces, regular, ending⟩ : Chars.Row _ note _)
      (.ofWhole last : Chars.Laid tag _ _ [])
    refine ⟨{note}, le_rfl, [note], ?_, rfl⟩
    simpa [PendingMapping.tagged, regular, block, whole] using laid

/-- Texts beside texts with tags, one by one, and all heads of theirs. -/
inductive AllLaid (tag : PendingMapping → String) :
    List String → List String → Multiset PendingMapping → Prop where
  | nil : AllLaid tag [] [] 0
  | cons {text twin : String} {heads : Multiset PendingMapping} {texts twins : List String}
      {more : Multiset PendingMapping} (first : Laid tag text twin heads)
      (rest : AllLaid tag texts twins more) : AllLaid tag (text :: texts) (twin :: twins) (heads + more)

namespace AllLaid

variable {texts twins : List String}

theorem singleton (laid : Laid tag text twin heads) : AllLaid tag [text] [twin] heads := by
  simpa using cons laid nil

/-- The lines of a body as one text. -/
theorem ofLines (lines : List String) :
    AllLaid tag (if lines.isEmpty then [] else [formatDeclarations lines 0])
      (if lines.isEmpty then [] else [formatDeclarations lines 0]) 0 := by
  split
  · exact nil
  · exact singleton (whole_formatDeclarations _ _).laid

theorem append {others also : List String} {more : Multiset PendingMapping}
    (first : AllLaid tag texts twins heads) (second : AllLaid tag others also more) :
    AllLaid tag (texts ++ others) (twins ++ also) (heads + more) := by
  induction first with
  | nil => simpa using second
  | cons here _ ih =>
    rw [add_assoc]
    exact cons here ih

theorem join (laid : AllLaid tag texts twins heads) :
    Laid tag (String.join texts) (String.join twins) heads := by
  induction laid with
  | nil => exact Laid.empty
  | cons here _ ih =>
    rw [String.join_cons, String.join_cons]
    exact here.append ih

/-- Empty texts have no heads. -/
theorem filter (laid : AllLaid tag texts twins heads) :
    AllLaid tag (texts.filter fun text => !text.isEmpty) (twins.filter fun text => !text.isEmpty) heads := by
  induction laid with
  | nil => exact nil
  | @cons text twin own texts twins more here _ ih =>
    cases empty : text.isEmpty with
    | true =>
      rw [here.eq_zero_of_isEmpty empty, zero_add]
      simpa [here.isEmpty, empty] using ih
    | false => simpa [here.isEmpty, empty] using cons here ih

theorem lines (laid : AllLaid tag texts twins heads) :
    Laid tag (Text.join "\n" texts) (Text.join "\n" twins) heads := by
  unfold Text.join
  induction laid with
  | nil => exact Laid.empty
  | cons here rest ih =>
    cases rest with
    | nil => simpa using here
    | cons second rest =>
      have line : Laid tag "\n" "\n" 0 := Whole.laid (.inr ⟨[], rfl⟩)
      rw [String.intercalate_cons_cons, String.intercalate_cons_cons]
      simpa using (here.append line).append ih

end AllLaid

end Text

end Scss
