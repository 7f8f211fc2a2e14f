import Scss.AtRule.Services
import Scss.Proofs.Braces
import Scss.Proofs.Texts
import Scss.Reflow.SelectorList

/-! Blocks in finished text, as a reader finds them from left to right. A text is flat if it closes
what it opens, and if no block holds another one unless an at-sign stands before it, behind the brace
that is nearest on its left. -/
namespace Scss

/-- What a reader keeps: for each open block, innermost first, whether an at-sign stands before it;
and whether one stands behind the last brace. -/
structure Outline where
  blocks : List Bool
  marked : Bool
deriving DecidableEq

namespace Outline

/-- One character more, unless it opens a block where there can be none or closes one that is not
open. -/
def next (outline : Outline) (c : Char) : Option Outline :=
  if c = '\x7b' then
    if outline.blocks.head? = some false then none
    else some ⟨outline.marked :: outline.blocks, false⟩
  else if c = '\x7d' then
    if outline.blocks = [] then none else some ⟨outline.blocks.tail, false⟩
  else some ⟨outline.blocks, outline.marked || c = '@'⟩

def scan (outline : Outline) : List Char → Option Outline
  | [] => some outline
  | c :: rest => (outline.next c).bind fun after => after.scan rest

def start : Outline := ⟨[], false⟩

/-- Whether a block can be opened here. -/
def Admits (outline : Outline) : Prop := outline.blocks.head? ≠ some false

theorem scan_append (outline : Outline) (first second : List Char) :
    outline.scan (first ++ second) = (outline.scan first).bind fun middle => middle.scan second := by
  induction first generalizing outline with
  | nil => rfl
  | cons c rest ih =>
    rw [List.cons_append, scan, scan]
    cases outline.next c with
    | none => rfl
    | some after => exact ih after

theorem next_of_other (outline : Outline) {c : Char} (other : isBrace c = false) :
    outline.next c = some ⟨outline.blocks, outline.marked || c = '@'⟩ := by
  simp only [isBrace, Bool.or_eq_false_iff, decide_eq_false_iff_not] at other
  rw [next, if_neg other.1, if_neg other.2]

theorem next_open {outline : Outline} (admits : outline.Admits) :
    outline.next '\x7b' = some ⟨outline.marked :: outline.blocks, false⟩ := by
  rw [next, if_pos rfl, if_neg admits]

theorem next_close (mark marked : Bool) (blocks : List Bool) :
    next ⟨mark :: blocks, marked⟩ '\x7d' = some ⟨blocks, false⟩ := rfl

/-- Text without braces only counts for its at-signs. -/
theorem scan_of_braceless (outline : Outline) {text : List Char} (clean : Chars.Braceless text) :
    outline.scan text = some ⟨outline.blocks, outline.marked || decide ('@' ∈ text)⟩ := by
  induction text generalizing outline with
  | nil => simp [scan]
  | cons c rest ih =>
    obtain ⟨first, others⟩ := (Chars.braceless_cons _ _).mp clean
    rw [scan, next_of_other outline first, Option.bind_some, ih _ others]
    by_cases sign : c = '@'
    · simp [sign]
    · simp [sign, Ne.symm sign]

/-- As many blocks are open as braces have opened and not closed any. -/
theorem length_of_scan {outline after : Outline} {text : List Char}
    (scanned : outline.scan text = some after) :
    after.blocks.length + text.count '\x7d' = outline.blocks.length + text.count '\x7b' := by
  induction text generalizing outline with
  | nil =>
    obtain rfl := Option.some.inj scanned
    rfl
  | cons c rest ih =>
    obtain ⟨middle, step, further⟩ := Option.bind_eq_some_iff.mp scanned
    have others := ih further
    unfold next at step
    split at step
    · rename_i opens
      split at step
      · cases step
      · obtain rfl := Option.some.inj step
        simp [opens] at others ⊢
        omega
    · split at step
      · rename_i opens closes
        split at step
        · cases step
        · rename_i inner
          obtain rfl := Option.some.inj step
          have deep := List.length_pos_of_ne_nil inner
          simp [closes] at others ⊢
          omega
      · rename_i opens closes
        obtain rfl := Option.some.inj step
        simpa [opens, closes] using others

/-- A mark stands behind the last brace. -/
theorem sign_of_scan {outline after : Outline} {text : List Char} (unmarked : outline.marked = false)
    (scanned : outline.scan text = some after) (marked : after.marked = true) :
    '@' ∈ text.rtakeWhile fun c => !isBrace c := by
  induction text using List.reverseRecOn generalizing after with
  | nil =>
    obtain rfl := Option.some.inj scanned
    rw [unmarked] at marked
    cases marked
  | append_singleton before c ih =>
    rw [scan_append] at scanned
    obtain ⟨middle, begun, step⟩ := Option.bind_eq_some_iff.mp scanned
    rw [scan, Option.bind_eq_some_iff] at step
    obtain ⟨last, step, ended⟩ := step
    obtain rfl := Option.some.inj ended
    cases brace : isBrace c with
    | true =>
      have reset : last.marked = false := by
        unfold next at step
        split at step
        · split at step
          · cases step
          · rw [← Option.some.inj step]
        · rename_i opens
          rw [if_pos (by simpa [isBrace, opens] using brace)] at step
          split at step
          · cases step
          · rw [← Option.some.inj step]
      rw [reset] at marked
      cases marked
    | false =>
      rw [next_of_other middle brace] at step
      obtain rfl := Option.some.inj step
      rw [List.rtakeWhile_concat_pos _ _ _ (by simp [brace]), List.mem_append, List.mem_singleton]
      simp only [Bool.or_eq_true, decide_eq_true_eq] at marked
      rcases marked with earlier | sign
      · exact .inl (ih begun earlier)
      · exact .inr sign.symm

end Outline

/-- Every block that the text opens is closed in it, and those that hold others have an at-sign before
them. -/
def Chars.Flat (text : List Char) : Prop :=
  ∀ outline : Outline, outline.Admits → ∃ marked, outline.scan text = some ⟨outline.blocks, marked⟩

namespace Chars

variable {first second text head contents : List Char}

theorem flat_of_braceless (clean : Braceless text) : Flat text :=
  fun outline _ => ⟨_, outline.scan_of_braceless clean⟩

theorem Flat.append (left : Flat first) (right : Flat second) : Flat (first ++ second) := by
  intro outline admits
  obtain ⟨middle, begun⟩ := left outline admits
  obtain ⟨marked, ended⟩ := right ⟨outline.blocks, middle⟩ admits
  exact ⟨marked, by rw [Outline.scan_append, begun, Option.bind_some, ended]⟩

def enclosed (head contents : List Char) : List Char := head ++ '\x7b' :: (contents ++ ['\x7d'])

theorem scan_enclosed {outline : Outline} {mark inside : Bool} (clean : Braceless head)
    (admits : outline.Admits) (sign : (outline.marked || decide ('@' ∈ head)) = mark)
    (within : Outline.scan ⟨mark :: outline.blocks, false⟩ contents =
      some ⟨mark :: outline.blocks, inside⟩) :
    outline.scan (enclosed head contents) = some ⟨outline.blocks, false⟩ := by
  have opened : Outline.next ⟨outline.blocks, mark⟩ '\x7b' =
      some ⟨mark :: outline.blocks, false⟩ := Outline.next_open admits
  rw [enclosed, Outline.scan_append, outline.scan_of_braceless clean, sign, Option.bind_some,
    Outline.scan, opened, Option.bind_some, Outline.scan_append, within, Option.bind_some,
    Outline.scan, Outline.next_close, Option.bind_some, Outline.scan]

/-- A block that holds no other one may have any head. -/
theorem flat_rule (clean : Braceless head) (lines : Braceless contents) :
    Flat (enclosed head contents) :=
  fun _ admits => ⟨false, scan_enclosed clean admits rfl (Outline.scan_of_braceless _ lines)⟩

/-- A block with an at-sign in its head may hold others. -/
theorem flat_group (clean : Braceless head) (sign : '@' ∈ head) (inner : Flat contents) :
    Flat (enclosed head contents) := by
  intro outline admits
  obtain ⟨marked, within⟩ := inner ⟨true :: outline.blocks, false⟩ (by simp [Outline.Admits])
  exact ⟨false, scan_enclosed clean admits (by simp [sign]) within⟩

/-- Text behind the last brace of a flat text can go. -/
theorem Flat.of_append (flat : Flat (text ++ second)) (clean : Braceless second) : Flat text := by
  intro outline admits
  obtain ⟨marked, scanned⟩ := flat outline admits
  rw [Outline.scan_append] at scanned
  obtain ⟨middle, begun, ended⟩ := Option.bind_eq_some_iff.mp scanned
  rw [middle.scan_of_braceless clean] at ended
  obtain ⟨same, -⟩ := Outline.mk.inj (Option.some.inj ended)
  exact ⟨middle.marked, by rw [begun, ← same]⟩

/-- Read from the left, braces close only what is open, and in the end all of it. -/
def Balanced (text : List Char) : Prop :=
  (∀ before, before <+: text → before.count '\x7d' ≤ before.count '\x7b') ∧
    text.count '\x7d' = text.count '\x7b'

theorem Flat.balanced (flat : Flat text) : Balanced text := by
  obtain ⟨marked, scanned⟩ := flat .start (by simp [Outline.Admits, Outline.start])
  constructor
  · rintro before ⟨after, rfl⟩
    rw [Outline.scan_append] at scanned
    obtain ⟨middle, begun, -⟩ := Option.bind_eq_some_iff.mp scanned
    have depth := Outline.length_of_scan begun
    simp only [Outline.start, List.length_nil] at depth
    omega
  · have depth := Outline.length_of_scan scanned
    simpa [Outline.start] using depth

/-- If a block holds another one, an at-sign stands between the brace before it and its own. -/
theorem Flat.sign_of_nested {before inside after : List Char} (flat : Flat text)
    (cut : text = before ++ '\x7b' :: (inside ++ '\x7b' :: after)) (clean : Braceless inside) :
    '@' ∈ before.rtakeWhile fun c => !isBrace c := by
  obtain ⟨marked, scanned⟩ := flat .start (by simp [Outline.Admits, Outline.start])
  rw [cut, Outline.scan_append] at scanned
  obtain ⟨outer, begun, opened⟩ := Option.bind_eq_some_iff.mp scanned
  refine Outline.sign_of_scan rfl begun ?_
  rw [Outline.scan] at opened
  obtain ⟨block, step, further⟩ := Option.bind_eq_some_iff.mp opened
  have entered : block = ⟨outer.marked :: outer.blocks, false⟩ := by
    rw [Outline.next, if_pos rfl] at step
    split at step
    · cases step
    · exact (Option.some.inj step).symm
  rw [Outline.scan_append, Outline.scan_of_braceless _ clean, Option.bind_some, Outline.scan, entered,
    Outline.next, if_pos rfl] at further
  cases sign : outer.marked with
  | true => rfl
  | false => simp [sign] at further

/-- A block without an at-sign before it has no brace in it up to the one that closes it. -/
theorem Flat.block_of_unsigned {before rest : List Char} (flat : Flat text)
    (cut : text = before ++ '\x7b' :: rest) (unsigned : '@' ∉ before.rtakeWhile fun c => !isBrace c) :
    ∃ inside after, rest = inside ++ '\x7d' :: after ∧ Braceless inside := by
  have clean : Braceless (rest.takeWhile fun c => !isBrace c) := by
    intro c member
    simpa using List.mem_takeWhile_imp member
  have whole : rest.takeWhile (fun c => !isBrace c) ++ rest.dropWhile (fun c => !isBrace c) = rest :=
    List.takeWhile_append_dropWhile
  cases tail : rest.dropWhile fun c => !isBrace c with
  | nil =>
    -- The block would stay open.
    obtain ⟨above, level⟩ := flat.balanced
    have outside := above before ⟨_, cut.symm⟩
    rw [tail, List.append_nil] at whole
    rw [whole] at clean
    have opens : rest.count '\x7b' = 0 := List.count_eq_zero.mpr fun member => by cases clean _ member
    have closes : rest.count '\x7d' = 0 := List.count_eq_zero.mpr fun member => by cases clean _ member
    simp [cut, opens, closes] at level
    omega
  | cons c after =>
    have brace : isBrace c = true := by
      have first := List.head_dropWhile_not (fun c => !isBrace c) (l := rest) (by simp [tail])
      simpa [tail] using first
    rw [tail] at whole
    rcases (by simpa [isBrace] using brace : c = '\x7b' ∨ c = '\x7d') with rfl | rfl
    · exact absurd (flat.sign_of_nested (by rw [cut, whole]) clean) unsigned
    · exact ⟨_, after, whole.symm, clean⟩

end Chars

namespace Text

def Flat (text : String) : Prop := Chars.Flat text.toList

variable {first second text head contents : String}

theorem flat_of_braceless (clean : Braceless text) : Flat text := Chars.flat_of_braceless clean

theorem Flat.append (left : Flat first) (right : Flat second) : Flat (first ++ second) := by
  rw [Flat, String.toList_append]
  exact Chars.Flat.append left right

theorem flat_join {texts : List String} (flat : ∀ text ∈ texts, Flat text) :
    Flat (String.join texts) := by
  rw [Flat, String.toList_join]
  induction texts with
  | nil => exact Chars.flat_of_braceless Chars.braceless_nil
  | cons first rest ih =>
    obtain ⟨left, right⟩ := List.forall_mem_cons.mp flat
    rw [List.flatMap_cons]
    exact Chars.Flat.append left (ih right)

theorem flat_intercalate {separator : String} {texts : List String}
    (between : Braceless separator) (flat : ∀ text ∈ texts, Flat text) :
    Flat (Text.join separator texts) := by
  rw [Flat, Text.join, String.toList_intercalate]
  induction texts with
  | nil => exact Chars.flat_of_braceless Chars.braceless_nil
  | cons first rest ih =>
    obtain ⟨left, right⟩ := List.forall_mem_cons.mp flat
    cases rest with
    | nil =>
      rw [List.map_singleton, List.intercalate_singleton]
      exact left
    | cons second rest =>
      rw [List.map_cons, List.map_cons, List.intercalate_cons_cons]
      exact (Chars.Flat.append left (Chars.flat_of_braceless between)).append (ih right)

theorem braceless_indent (level : Nat) : Braceless (indent level) := by
  rw [indent, braceless_ofList]
  intro c member
  rw [List.eq_of_mem_replicate member]
  rfl

/-- A block is its head and its lines between braces, and a line feed. -/
theorem toList_block (head contents : String) (level : Nat) :
    (block head contents level).toList =
      Chars.enclosed ((indent level ++ head ++ " ").toList)
        (("\n" ++ contents ++ indent level).toList) ++ "\n".toList := by
  simp [block, Chars.enclosed]

theorem flat_rule (clean : Braceless head) (lines : Braceless contents) (level : Nat) :
    Flat (block head contents level) := by
  have spaced := braceless_indent level
  rw [Flat, toList_block]
  refine .append (Chars.flat_rule ?_ ?_) (Chars.flat_of_braceless (by decide))
  · exact (braceless_append _ _).mpr ⟨(braceless_append _ _).mpr ⟨spaced, clean⟩, by decide⟩
  · exact (braceless_append _ _).mpr ⟨(braceless_append _ _).mpr ⟨by decide, lines⟩, spaced⟩

theorem flat_group (clean : Braceless head) (sign : '@' ∈ head.toList) (inner : Flat contents)
    (level : Nat) : Flat (block head contents level) := by
  have spaced := braceless_indent level
  rw [Flat, toList_block]
  refine .append (Chars.flat_group ?_ (by simp [sign]) ?_) (Chars.flat_of_braceless (by decide))
  · exact (braceless_append _ _).mpr ⟨(braceless_append _ _).mpr ⟨spaced, clean⟩, by decide⟩
  · exact ((flat_of_braceless (by decide)).append inner).append (flat_of_braceless spaced)

theorem Flat.dropNewlines (flat : Flat text) : Flat (dropNewlines text) := by
  have whole : (text.toList.rdropWhile (· = '\n')) ++ (text.toList.rtakeWhile (· = '\n')) =
      text.toList := List.rdropWhile_append_rtakeWhile
  rw [Flat, ← whole] at flat
  rw [Flat, Scss.dropNewlines, String.toList_ofList]
  refine flat.of_append fun c member => ?_
  have newline := List.mem_rtakeWhile_imp member
  rw [of_decide_eq_true newline]
  rfl

theorem flat_wrapBlock (clean : Braceless head) (sign : '@' ∈ head.toList) (inner : Flat contents)
    (level : Nat) : Flat (wrapBlock head contents level) :=
  flat_group clean sign (inner.dropNewlines.append (flat_of_braceless (by decide))) level

end Text

namespace Chars

variable {text : List Char}

theorem mem_topLevelPieces {separator c : Char} (other : c ≠ separator) (enclosure : Enclosure) :
    (∃ piece ∈ topLevelPieces separator enclosure text, c ∈ piece) ↔ c ∈ text := by
  have extended (d : Char) (pieces : List (List Char)) :
      (∃ piece ∈ extendFirst d pieces, c ∈ piece) ↔ c = d ∨ ∃ piece ∈ pieces, c ∈ piece := by
    cases pieces with
    | nil => simp [extendFirst]
    | cons piece rest => simp [extendFirst, or_assoc]
  induction text generalizing enclosure with
  | nil => simp [topLevelPieces]
  | cons d rest ih =>
    rw [topLevelPieces]
    split
    · rename_i cuts
      have separates : d = separator := by
        simp only [Enclosure.cutsAt, Bool.and_eq_true, decide_eq_true_eq] at cuts
        exact cuts.1.1.2
      rw [List.exists_mem_cons_iff, List.mem_cons, separates]
      exact or_congr (by simp [other]) (ih enclosure)
    · rw [extended, List.mem_cons]
      exact or_congr_right (ih (enclosure.next d))

theorem mem_splitTopLevel {separator c : Char} (other : c ≠ separator) (visible : isBlank c = false) :
    (∃ piece ∈ splitTopLevel separator text, c ∈ piece) ↔ c ∈ text := by
  rw [← mem_topLevelPieces other Enclosure.outside, splitTopLevel]
  simp [trim, mem_trimStart visible, mem_trimEnd visible]

theorem mem_intercalate {c : Char} {separator : List Char} (other : c ∉ separator)
    (parts : List (List Char)) : c ∈ separator.intercalate parts ↔ ∃ part ∈ parts, c ∈ part := by
  induction parts with
  | nil => simp
  | cons first rest ih =>
    cases rest with
    | nil => simp
    | cons second rest =>
      rw [List.intercalate_cons_cons, List.mem_append, List.mem_append, ih, or_iff_left other]
      simp

end Chars

namespace SelectorList

theorem isBrace_of_isBlank {c : Char} (blank : Chars.isBlank c = true) : isBrace c = false := by
  simp only [isBrace, Bool.or_eq_false_iff, decide_eq_false_iff_not]
  constructor
  · rintro rfl
    exact absurd blank (by decide)
  · rintro rfl
    exact absurd blank (by decide)

/-- The head of a rule: indentation, selectors without braces, and the brace. -/
theorem header_eq {line indent selectors : List Char}
    (header : header? line = some (indent, selectors)) :
    ∃ head, line = indent ++ head ++ ['\x7b'] ∧ Chars.Braceless head ∧
      selectors = Chars.trimEnd head ∧ ∀ c ∈ indent, Chars.isBlank c = true := by
  unfold header? at header
  dsimp only at header
  split at header
  · rename_i proper
    obtain ⟨rfl, rfl⟩ := Prod.mk.inj (Option.some.inj header)
    simp only [Bool.and_eq_true, decide_eq_true_eq, Bool.not_eq_true'] at proper
    obtain ⟨⟨⟨⟨ends, -⟩, -⟩, opening⟩, closing⟩ := proper
    refine ⟨_, ?_, ?_, rfl, fun c => List.mem_takeWhile_imp⟩
    · have whole := List.prefix_iff_eq_append.mp (List.takeWhile_prefix (l := line) Chars.isBlank)
      rw [List.append_assoc, List.dropLast_append_getLast? _ ends, whole]
    · intro c member
      simp only [isBrace, Bool.or_eq_false_iff, decide_eq_false_iff_not]
      constructor
      · rintro rfl
        simp [member] at opening
      · rintro rfl
        simp [member] at closing
  · cases header

theorem scan_splitLine (outline : Outline) (line : List Char) :
    outline.scan (splitLine line) = outline.scan line := by
  unfold splitLine
  split
  · rename_i indent selectors header
    obtain ⟨head, rfl, clean, rfl, blanks⟩ := header_eq header
    have spaced : Chars.Braceless indent := fun c member => isBrace_of_isBlank (blanks c member)
    have unsigned : '@' ∉ indent := fun member => absurd (blanks '@' member) (by decide)
    have split : Chars.Braceless
        (List.intercalate (",\n".toList ++ indent) (Chars.splitTopLevel ',' (Chars.trimEnd head))) :=
      .intercalate ((Chars.braceless_append _ _).mpr ⟨by decide, spaced⟩)
        ((clean.reverse.dropWhile _).reverse.splitTopLevel ',')
    have signs : '@' ∈ List.intercalate (",\n".toList ++ indent)
        (Chars.splitTopLevel ',' (Chars.trimEnd head)) ↔ '@' ∈ head := by
      rw [Chars.mem_intercalate (by simpa using unsigned),
        Chars.mem_splitTopLevel (by decide) (by decide), Chars.mem_trimEnd (by decide)]
    generalize List.intercalate _ _ = pieces at split signs ⊢
    have before : outline.scan (indent ++ pieces ++ [' ']) = outline.scan (indent ++ head) := by
      have first : Chars.Braceless (indent ++ pieces ++ [' ']) := by
        simpa +decide using ⟨spaced, split⟩
      have second : Chars.Braceless (indent ++ head) := by simpa using ⟨spaced, clean⟩
      rw [Outline.scan_of_braceless _ first, Outline.scan_of_braceless _ second]
      simp [unsigned, signs]
    calc outline.scan (indent ++ pieces ++ " \x7b".toList)
        = outline.scan (indent ++ pieces ++ [' '] ++ ['\x7b']) := by simp
      _ = outline.scan (indent ++ head ++ ['\x7b']) := by
        rw [Outline.scan_append, before, ← Outline.scan_append]
  · rfl

theorem scan_splitChars (outline : Outline) (css : List Char) :
    outline.scan (splitChars css) = outline.scan css := by
  have lines (lines : List Chars.Line) (outline : Outline) :
      outline.scan (lines.flatMap fun line => Chars.Line.whole { line with body := splitLine line.body }) =
        outline.scan (lines.flatMap Chars.Line.whole) := by
    induction lines generalizing outline with
    | nil => rfl
    | cons line rest ih =>
      have same : outline.scan (Chars.Line.whole { line with body := splitLine line.body }) =
          outline.scan line.whole := by
        unfold Chars.Line.whole
        dsimp only
        split
        · rw [Outline.scan_append, Outline.scan_append, scan_splitLine]
        · exact scan_splitLine outline _
      rw [List.flatMap_cons, List.flatMap_cons, Outline.scan_append, Outline.scan_append, same]
      exact congrArg _ (funext ih)
  rw [splitChars, lines, Chars.flatMap_whole_lineCut]

/-- Splitting the heads of rules keeps a text flat. -/
theorem flat_split {css : String} (flat : Text.Flat css) : Text.Flat (split css) := by
  intro outline admits
  rw [split, String.toList_ofList, scan_splitChars]
  exact flat outline admits

end SelectorList

end Scss
