import Scss.Proofs.Braces.Layout

/-! Marked text. A mark tells the block of a style rule from the blocks of at-rules, which read the
same; it stands where the lines of the block begin. Nothing that is done to finished text moves a mark
out of its block, or text into the block. -/
namespace Scss

/-- What stands before the lines of a marked block. -/
def ruleMark : Char := '¶'

namespace Chars

/-- The second text is the first one with marks in blocks that hold no brace. -/
inductive Marks : List Char → List Char → Prop where
  | plain (text : List Char) : Marks text text
  | block (before : List Char) {contents text marked : List Char} (clean : Braceless contents)
      (rest : Marks text marked) :
      Marks (before ++ '\x7b' :: '\n' :: (contents ++ '\x7d' :: '\n' :: text))
        (before ++ '\x7b' :: '\n' :: ruleMark :: (contents ++ '\x7d' :: '\n' :: marked))

namespace Marks

variable {text marked other also : List Char}

theorem behind (before : List Char) (marks : Marks text marked) :
    Marks (before ++ text) (before ++ marked) := by
  cases marks with
  | plain => exact .plain _
  | block middle clean rest =>
    rw [← List.append_assoc, ← List.append_assoc]
    exact .block (before ++ middle) clean rest

theorem append (first : Marks text marked) (second : Marks other also) :
    Marks (text ++ other) (marked ++ also) := by
  induction first with
  | plain text => exact second.behind text
  | block before clean _ ih =>
    have joined := Marks.block before clean ih
    simpa only [List.append_assoc, List.cons_append] using joined

theorem eq_of_braceless (marks : Marks text marked) (clean : Braceless text) : marked = text := by
  cases marks with
  | plain => rfl
  | block before => simp [isBrace] at clean

theorem eq_nil_iff (marks : Marks text marked) : marked = [] ↔ text = [] := by
  cases marks with
  | plain => rfl
  | block before => simp

theorem all_isBlank (marks : Marks text marked) : marked.all isBlank = text.all isBlank := by
  have visible : isBlank '\x7b' = false := by decide
  cases marks with
  | plain => rfl
  | block before => simp [visible]

end Marks

/-- The text with one line feed at its end in place of those it has there. -/
def terminated (text : List Char) : List Char := text.rdropWhile (· = '\n') ++ ['\n']

theorem terminated_append (before : List Char) {c : Char} (other : c ≠ '\n') (text : List Char) :
    terminated (before ++ c :: '\n' :: text) =
      before ++ c :: '\n' :: if text.all (· = '\n') then [] else terminated text := by
  unfold terminated
  induction text using List.reverseRecOn with
  | nil =>
    have last : before ++ [c, '\n'] = before ++ [c] ++ ['\n'] := by simp
    rw [last, List.rdropWhile_concat_pos _ _ _ (by simp),
      List.rdropWhile_concat_neg _ _ _ (by simpa using other)]
    simp
  | append_singleton text d ih =>
    have whole : before ++ c :: '\n' :: (text ++ [d]) = before ++ c :: '\n' :: text ++ [d] := by simp
    rw [whole]
    by_cases newline : d = '\n'
    · rw [List.rdropWhile_concat_pos _ _ _ (by simpa using newline),
        List.rdropWhile_concat_pos _ _ _ (by simpa using newline), ih]
      simp only [newline, List.all_append, List.all_cons, List.all_nil, decide_true, Bool.and_true]
    · rw [List.rdropWhile_concat_neg _ _ _ (by simpa using newline),
        List.rdropWhile_concat_neg _ _ _ (by simpa using newline)]
      simp [newline]

theorem Marks.all_newlines {text marked : List Char} (marks : Marks text marked) :
    marked.all (· = '\n') = text.all (· = '\n') := by
  cases marks with
  | plain => rfl
  | block before => simp only [List.all_append, List.all_cons]; simp

theorem marks_terminated {text marked : List Char} (marks : Marks text marked) :
    Marks (terminated text) (terminated marked) := by
  induction marks with
  | plain text => exact .plain _
  | @block before contents text marked clean rest ih =>
    have cut := terminated_append (before ++ '\x7b' :: '\n' :: contents) (c := '\x7d') (by decide) text
    have also := terminated_append (before ++ '\x7b' :: '\n' :: ruleMark :: contents) (c := '\x7d')
      (by decide) marked
    simp only [List.append_assoc, List.cons_append] at cut also
    rw [cut, also, rest.all_newlines]
    refine .block before clean ?_
    split
    · exact .plain []
    · exact ih

end Chars

namespace SelectorList

theorem lineCut_append (first second : List Char) :
    Chars.lineCut (first ++ '\n' :: second) =
      Chars.lineCut (first ++ ['\n']) ++ Chars.lineCut second := by
  induction first with
  | nil => rfl
  | cons c rest ih =>
    have step : Chars.lineCut (c :: (rest ++ '\n' :: second)) =
        Chars.pushLine c (Chars.lineCut (rest ++ ['\n']) ++ Chars.lineCut second) := by rw [← ih]; rfl
    have alone : Chars.lineCut (c :: (rest ++ ['\n'])) =
        Chars.pushLine c (Chars.lineCut (rest ++ ['\n'])) := rfl
    rw [List.cons_append, List.cons_append, step, alone]
    unfold Chars.pushLine
    split
    · rfl
    · cases cut : Chars.lineCut (rest ++ ['\n']) with
      | nil =>
        have empty := Chars.flatMap_whole_lineCut (rest ++ ['\n'])
        simp [cut] at empty
      | cons line more => rfl

theorem splitChars_append (first second : List Char) :
    splitChars (first ++ '\n' :: second) = splitChars (first ++ ['\n']) ++ splitChars second := by
  rw [splitChars, lineCut_append, List.flatMap_append]
  rfl

/-- Only lines that open a block are split. -/
theorem splitLine_of_unopened {line : List Char} (unopened : '\x7b' ∉ line) : splitLine line = line := by
  unfold splitLine
  split
  · rename_i header
    obtain ⟨head, rfl, -⟩ := header_eq header
    simp at unopened
  · rfl

theorem splitChars_of_unopened {text : List Char} (unopened : '\x7b' ∉ text) :
    splitChars text = text := by
  have lines : ∀ line ∈ Chars.lineCut text,
      Chars.Line.whole { line with body := splitLine line.body } = line.whole := by
    intro line member
    have inside : ∀ c ∈ line.body, c ∈ text := by
      intro c within
      rw [← Chars.flatMap_whole_lineCut text]
      refine List.mem_flatMap.mpr ⟨line, member, ?_⟩
      unfold Chars.Line.whole
      split <;> simp [within]
    rw [splitLine_of_unopened fun found => unopened (inside _ found)]
  rw [splitChars, List.flatMap_congr lines, Chars.flatMap_whole_lineCut]

/-- A line that opens a block still opens it when it is split. -/
theorem splitLine_open (line : List Char) :
    ∃ head, splitLine (line ++ ['\x7b']) = head ++ ['\x7b'] := by
  unfold splitLine
  split
  · rename_i indent selectors _
    exact ⟨indent ++ List.intercalate (",\n".toList ++ indent) (Chars.splitTopLevel ',' selectors) ++
      [' '], by simp⟩
  · exact ⟨line, rfl⟩

theorem lineCut_open (before : List Char) :
    ∃ init body, Chars.lineCut (before ++ ['\x7b', '\n']) = init ++ [⟨body ++ ['\x7b'], true⟩] := by
  induction before with
  | nil => exact ⟨[], [], rfl⟩
  | cons c rest ih =>
    obtain ⟨init, body, cut⟩ := ih
    have step : Chars.lineCut (c :: (rest ++ ['\x7b', '\n'])) =
        Chars.pushLine c (init ++ [⟨body ++ ['\x7b'], true⟩]) := by rw [← cut]; rfl
    rw [List.cons_append, step]
    unfold Chars.pushLine
    split
    · exact ⟨⟨[], true⟩ :: init, body, rfl⟩
    · cases init with
      | nil => exact ⟨[], c :: body, rfl⟩
      | cons line more => exact ⟨⟨c :: line.body, line.ended⟩ :: more, body, rfl⟩

theorem splitChars_open (before : List Char) :
    ∃ head, splitChars (before ++ ['\x7b', '\n']) = head ++ ['\x7b', '\n'] := by
  obtain ⟨init, body, cut⟩ := lineCut_open before
  obtain ⟨head, same⟩ := splitLine_open body
  have last : Chars.Line.whole ⟨head ++ ['\x7b'], true⟩ = head ++ ['\x7b', '\n'] := by
    simp [Chars.Line.whole]
  rw [splitChars, cut, List.flatMap_append, List.flatMap_singleton, same, last]
  exact ⟨_, (List.append_assoc _ head _).symm⟩

/-- What a block without others holds is left as it is. -/
theorem splitChars_block (before : List Char) :
    ∃ head, ∀ contents text, '\x7b' ∉ contents →
      splitChars (before ++ '\x7b' :: '\n' :: (contents ++ '\x7d' :: '\n' :: text)) =
        head ++ '\x7b' :: '\n' :: (contents ++ '\x7d' :: '\n' :: splitChars text) := by
  obtain ⟨head, opened⟩ := splitChars_open before
  refine ⟨head, fun contents text unopened => ?_⟩
  have first := splitChars_append (before ++ ['\x7b']) (contents ++ '\x7d' :: '\n' :: text)
  have second := splitChars_append (contents ++ ['\x7d']) text
  have kept : splitChars (contents ++ ['\x7d'] ++ ['\n']) = contents ++ ['\x7d'] ++ ['\n'] :=
    splitChars_of_unopened (by simpa using unopened)
  rw [kept] at second
  simp only [List.append_assoc, List.cons_append, List.nil_append] at first second
  rw [first, second, opened]
  simp

theorem marks_splitChars {text marked : List Char} (marks : Chars.Marks text marked) :
    Chars.Marks (splitChars text) (splitChars marked) := by
  induction marks with
  | plain text => exact .plain _
  | @block before contents text marked clean rest ih =>
    obtain ⟨head, same⟩ := splitChars_block before
    have unopened : '\x7b' ∉ contents := fun member => by cases clean _ member
    have also := same (ruleMark :: contents) marked (by simpa [ruleMark] using unopened)
    rw [List.cons_append] at also
    rw [same contents text unopened, also]
    exact .block head clean ih

end SelectorList

namespace Text

/-- The second text is the first one with marks in blocks that hold no brace. -/
def Marks (text marked : String) : Prop := Chars.Marks text.toList marked.toList

variable {text marked head contents : String}

theorem marks_same (text : String) : Marks text text := .plain _

theorem Marks.append {other also : String} (first : Marks text marked) (second : Marks other also) :
    Marks (text ++ other) (marked ++ also) := by
  rw [Marks, String.toList_append, String.toList_append]
  exact Chars.Marks.append first second

theorem Marks.eq_of_braceless (marks : Marks text marked) (clean : Braceless text) : marked = text :=
  String.toList_injective (Chars.Marks.eq_of_braceless marks clean)

theorem Marks.isEmpty (marks : Marks text marked) : marked.isEmpty = text.isEmpty := by
  have empty := marks.eq_nil_iff
  simp only [String.toList_eq_nil_iff] at empty
  rw [Bool.eq_iff_iff, String.isEmpty_iff, String.isEmpty_iff, empty]

theorem Marks.isBlank (marks : Marks text marked) : Text.isBlank marked = Text.isBlank text :=
  Chars.Marks.all_isBlank marks

theorem Marks.split (marks : Marks text marked) :
    Marks (SelectorList.split text) (SelectorList.split marked) := by
  rw [Marks, SelectorList.split, SelectorList.split, String.toList_ofList, String.toList_ofList]
  exact SelectorList.marks_splitChars marks

theorem marks_join {texts marked : List String} (marks : List.Forall₂ Marks texts marked) :
    Marks (String.join texts) (String.join marked) := by
  induction marks with
  | nil => exact marks_same _
  | cons first _ ih =>
    rw [Marks, String.toList_join, String.toList_join, List.flatMap_cons, List.flatMap_cons,
      ← String.toList_join, ← String.toList_join]
    exact Chars.Marks.append first ih

theorem marks_intercalate (separator : String) {texts marked : List String}
    (marks : List.Forall₂ Marks texts marked) :
    Marks (Text.join separator texts) (Text.join separator marked) := by
  rw [Marks, Text.join, Text.join, String.toList_intercalate, String.toList_intercalate]
  induction marks with
  | nil => exact .plain _
  | cons first rest ih =>
    cases rest with
    | nil =>
      rw [List.map_singleton, List.map_singleton, List.intercalate_singleton,
        List.intercalate_singleton]
      exact first
    | cons second rest =>
      simp only [List.map_cons, List.intercalate_cons_cons] at ih ⊢
      exact (Chars.Marks.append first (.plain _)).append ih

theorem marks_wrapBlock (head : String) (marks : Marks text marked) (level : Nat) :
    Marks (wrapBlock head text level) (wrapBlock head marked level) := by
  have ended : Marks (dropNewlines text ++ "\n") (dropNewlines marked ++ "\n") := by
    have same := Chars.marks_terminated marks
    simpa [Marks, dropNewlines, Chars.terminated, List.rdropWhile] using same
  exact (((marks_same _).append ended).append (marks_same _)).append (marks_same _)

/-- The block of a rule, marked. -/
theorem marks_rule (head : String) (clean : Braceless contents) (level : Nat) :
    Marks (block head contents level) (block head (String.singleton ruleMark ++ contents) level) := by
  have inside : Chars.Braceless (contents.toList ++ (indent level).toList) :=
    (Chars.braceless_append _ _).mpr ⟨clean, braceless_indent level⟩
  have marks := Chars.Marks.block ((indent level ++ head ++ " ").toList) inside (.plain [])
  simpa [Marks, block] using marks

structure Alike (text twin : String) : Prop where
  flat : Flat text
  marks : Marks text twin

variable {twin : String}

theorem Flat.alike (flat : Flat text) : Alike text text := ⟨flat, marks_same text⟩

theorem Braceless.alike (clean : Braceless text) : Alike text text := (flat_of_braceless clean).alike

theorem alike_empty : Alike "" "" := Braceless.alike (by decide)

theorem Alike.append {other also : String} (first : Alike text twin) (second : Alike other also) :
    Alike (text ++ other) (twin ++ also) :=
  ⟨first.flat.append second.flat, first.marks.append second.marks⟩

theorem Alike.split (alike : Alike text twin) :
    Alike (SelectorList.split text) (SelectorList.split twin) :=
  ⟨SelectorList.flat_split alike.flat, alike.marks.split⟩

theorem Alike.wrapBlock (alike : Alike text twin) (clean : Braceless head)
    (sign : '@' ∈ head.toList) (level : Nat) :
    Alike (wrapBlock head text level) (wrapBlock head twin level) :=
  ⟨flat_wrapBlock clean sign alike.flat level, marks_wrapBlock head alike.marks level⟩

variable {texts twins : List String}

theorem forall₂_alike (alike : List.Forall₂ Alike texts twins) :
    (∀ text ∈ texts, Flat text) ∧ List.Forall₂ Marks texts twins :=
  (List.forall₂_and_left _ _).mp (alike.imp fun _ _ both => ⟨both.flat, both.marks⟩)

theorem alike_join (alike : List.Forall₂ Alike texts twins) :
    Alike (String.join texts) (String.join twins) := by
  obtain ⟨flat, marks⟩ := forall₂_alike alike
  exact ⟨flat_join flat, marks_join marks⟩

theorem alike_intercalate {separator : String} (between : Braceless separator)
    (alike : List.Forall₂ Alike texts twins) :
    Alike (Text.join separator texts) (Text.join separator twins) := by
  obtain ⟨flat, marks⟩ := forall₂_alike alike
  exact ⟨flat_intercalate between flat, marks_intercalate separator marks⟩

end Text

end Scss
