import Scss.Proofs.Characters
import Scss.Proofs.Compression.Rows

/-! Compressing as printing. A stylesheet whose texts hide no marks, written one row to each declaration,
statement and brace, is compressed to the same stylesheet in its shortest form, however the rows are indented
and whatever blank lines stand between them. -/
namespace Scss.Compress

open Chars (isBlank replace Flush)

/-- Declarations, statements and blocks one behind the other, a block with the items in it. -/
inductive Sheet where
  | none
  | declaration (property value : List Char) (behind : Sheet)
  | statement (text : List Char) (behind : Sheet)
  | block (header : List Char) (items behind : Sheet)

/-- A text with no blank at its ends that stands in one line and opens neither a block nor a comment. -/
structure Clean (text : List Char) : Prop where
  nonempty : text ≠ []
  flush : Flush text
  plain : ∀ c ∈ ['\n', '\x7b', '\x7d', ';'], c ∉ text
  comment : ¬ ['/', '*'] <:+: text

/-- A property is one word, and no colon stands in it. -/
structure Property (text : List Char) : Prop extends Clean text where
  word : ∀ c ∈ text, isBlank c = false ∧ c ≠ ':'

structure Statement (text : List Char) : Prop extends Clean text where
  word : ':' ∉ text.takeWhile fun c => !isBlank c

section Decide

variable (text : List Char)

instance : Decidable (Clean text) :=
  decidable_of_iff (text ≠ [] ∧ Flush text ∧ (['\n', '\x7b', '\x7d', ';'].all (· ∉ text)) = true ∧
      ¬ ['/', '*'] <:+: text)
    ⟨fun ⟨nonempty, flush, plain, comment⟩ => ⟨nonempty, flush, by simpa using plain, comment⟩,
      fun ⟨nonempty, flush, plain, comment⟩ => ⟨nonempty, flush, by simpa using plain, comment⟩⟩

instance : Decidable (Property text) :=
  decidable_of_iff (Clean text ∧ (text.all fun c => !isBlank c && c ≠ ':') = true)
    ⟨fun ⟨clean, word⟩ => ⟨clean, by simpa using word⟩, fun ⟨clean, word⟩ => ⟨clean, by simpa using word⟩⟩

instance : Decidable (Statement text) :=
  decidable_of_iff (Clean text ∧ ':' ∉ text.takeWhile fun c => !isBlank c)
    ⟨fun ⟨clean, word⟩ => ⟨clean, word⟩, fun ⟨clean, word⟩ => ⟨clean, word⟩⟩

end Decide

namespace Sheet

def Clean : Sheet → Prop
  | none => True
  | declaration property value behind => Property property ∧ Compress.Clean value ∧ behind.Clean
  | statement text behind => Statement text ∧ behind.Clean
  | block header items behind => Compress.Clean header ∧ items.Clean ∧ behind.Clean

instance decidableClean : (sheet : Sheet) → Decidable sheet.Clean
  | none => inferInstanceAs (Decidable True)
  | declaration property value behind =>
    have := behind.decidableClean
    inferInstanceAs (Decidable (Property property ∧ Compress.Clean value ∧ behind.Clean))
  | statement text behind =>
    have := behind.decidableClean
    inferInstanceAs (Decidable (Statement text ∧ behind.Clean))
  | block header items behind =>
    have := items.decidableClean
    have := behind.decidableClean
    inferInstanceAs (Decidable (Compress.Clean header ∧ items.Clean ∧ behind.Clean))

def rows : Sheet → List (List Char)
  | none => []
  | declaration property value behind => (property ++ ':' :: ' ' :: value ++ [';']) :: behind.rows
  | statement text behind => (text ++ [';']) :: behind.rows
  | block header items behind => (header ++ [' ', '\x7b']) :: (items.rows ++ ['\x7d'] :: behind.rows)

def opening (header : List Char) : List Char := replace [',', ' '] [','] header ++ ['\x7b']

/-- What ends an item: nothing if the block that it is in is closed behind it. -/
def mark (closing : Bool) : Sheet → List Char
  | none => if closing then [] else [';']
  | _ => [';']

/-- The shortest form of the stylesheet; `closing` says that a brace follows. -/
def compact (closing : Bool) : Sheet → List Char
  | none => []
  | declaration property value behind =>
    property ++ ':' :: value ++ behind.mark closing ++ behind.compact closing
  | statement text behind => text ++ behind.mark closing ++ behind.compact closing
  | block header items behind => opening header ++ items.compact true ++ '\x7d' :: behind.compact closing

/-- The shortest form but for the marks: each item has its own. -/
def marked : Sheet → List Char
  | none => []
  | declaration property value behind => property ++ ':' :: value ++ ';' :: behind.marked
  | statement text behind => text ++ ';' :: behind.marked
  | block header items behind => opening header ++ items.marked ++ '\x7d' :: behind.marked

end Sheet

section Lines

variable {text property value header : List Char}

theorem Clean.last (clean : Clean text) {c : Char} (bad : c ∈ ['\n', '\x7b', '\x7d', ';']) :
    text.getLast? ≠ some c :=
  fun last => clean.plain c bad (List.mem_of_getLast? last)

theorem Clean.head (clean : Clean text) {c : Char} (bad : c ∈ ['\n', '\x7b', '\x7d', ';']) (rest : List Char) :
    (text ++ rest).head? ≠ some c := by
  rw [List.head?_append_of_ne_nil _ clean.nonempty]
  exact fun first => clean.plain c bad (List.mem_of_head? first)

theorem line_of_last {row : List Char} (other : row.getLast? ≠ some '\x7b') (first : row.head? ≠ some '\x7d')
    (comment : ¬ ['/', '*'] <:+: row) : line row = tightenColon row := by
  have marked : ¬ "/*".toList.isPrefixOf row = true := fun marked =>
    comment (List.isPrefixOf_iff_prefix.mp marked).isInfix
  rw [line, if_neg other, if_neg (by simpa [first] using marked)]

/-- A row begins with one of its texts and ends with a mark. -/
theorem Clean.regular (clean : Clean text) (middle : List Char) (single : '\n' ∉ middle) {c : Char}
    (visible : isBlank c = false) : Regular (text ++ middle ++ [c]) where
  nonempty := by simp
  flush :=
    { head := by
        rw [List.append_assoc, List.head?_append_of_ne_nil _ clean.nonempty]
        exact clean.flush.head
      last := by simpa using visible }
  single := by
    have other : '\n' ≠ c := fun same => by simp [← same, isBlank] at visible
    simp [clean.plain '\n' (by simp), single, other]

theorem drop_word (row : List Char) : row.drop (row.takeWhile fun c => c ≠ ':' && !isBlank c).length =
    row.dropWhile fun c => c ≠ ':' && !isBlank c := by
  nth_rewrite 2 [← List.takeWhile_append_dropWhile (p := fun c => c ≠ ':' && !isBlank c) (l := row)]
  exact List.drop_left

/-- Only a colon behind a word without blanks and colons is a colon to tighten. -/
theorem tightenColon_of_word {row : List Char}
    (other : (row.dropWhile fun c => c ≠ ':' && !isBlank c).head? ≠ some ':') : tightenColon row = row := by
  rw [tightenColon]
  split
  · rename_i rest colon
    rw [drop_word] at colon
    exact absurd (by rw [colon]; rfl) other
  · rfl

theorem tightenColon_statement (statement : Statement text) : tightenColon (text ++ [';']) = text ++ [';'] := by
  refine tightenColon_of_word fun colon => ?_
  obtain ⟨rest, behind⟩ := List.head?_eq_some_iff.mp colon
  have whole := List.takeWhile_append_dropWhile (p := fun c => c ≠ ':' && !isBlank c) (l := text ++ [';'])
  have seen : ':' ∈ (text ++ [';']).takeWhile fun c => !isBlank c := by
    rw [← whole, behind, List.takeWhile_append_of_pos fun c member => ?_, List.takeWhile_cons_of_pos rfl]
    · simp
    · have inside := List.mem_takeWhile_imp member
      exact (Bool.and_eq_true_iff.mp inside).2
  rw [List.takeWhile_append] at seen
  split at seen
  · rename_i all
    rw [List.takeWhile_cons_of_pos rfl, List.mem_append] at seen
    have own := (List.takeWhile_prefix (fun c => !isBlank c) (l := text)).eq_of_length all
    exact statement.word (own.symm ▸ seen.resolve_right (by simp))
  · exact statement.word seen

theorem tightenColon_declaration (own : Property property) (clean : Clean value) (rest : List Char) :
    tightenColon (property ++ ':' :: ' ' :: (value ++ rest)) = property ++ ':' :: (value ++ rest) := by
  have word : (property ++ ':' :: ' ' :: (value ++ rest)).takeWhile (fun c => c ≠ ':' && !isBlank c) =
      property := by
    rw [List.takeWhile_append_of_pos fun c member => by simp [own.word c member],
      List.takeWhile_cons_of_neg (by simp), List.append_nil]
  have start : Chars.trimStart (' ' :: (value ++ rest)) = value ++ rest := by
    refine (List.dropWhile_cons_of_pos rfl).trans (Chars.trimStart_of_head ?_)
    rw [List.head?_append_of_ne_nil _ clean.nonempty]
    exact clean.flush.head
  rw [tightenColon]
  simp only [word, List.drop_left, start, List.isEmpty_iff, own.nonempty, if_false]

theorem line_declaration (own : Property property) (clean : Clean value) :
    line (property ++ ':' :: ' ' :: value ++ [';']) = property ++ ':' :: value ++ [';'] := by
  rw [line_of_last, List.append_assoc, List.cons_append, List.cons_append, tightenColon_declaration own clean]
  · simp
  · rw [List.getLast?_append_of_ne_nil _ (by simp)]
    simp
  · exact List.append_assoc .. ▸ own.head (by simp) _
  · simp [Chars.pair_infix_append, Chars.pair_infix_cons, own.comment, clean.comment]

theorem line_statement (statement : Statement text) : line (text ++ [';']) = text ++ [';'] := by
  rw [line_of_last, tightenColon_statement statement]
  · simp
  · exact statement.head (by simp) _
  · simp [Chars.pair_infix_append, Chars.pair_infix_cons, statement.comment]

theorem not_mem_replace {pattern replacement : List Char} {c : Char} (absent : c ∉ text)
    (other : c ∉ replacement) : c ∉ replace pattern replacement text := by
  have free {part : List Char} (missing : c ∉ part) : Chars.Free (fun d => d = c) part := fun d member =>
    decide_eq_false fun same => missing (same ▸ member)
  exact fun member => of_decide_eq_false ((free absent).replaceFrom (free other) 0 c member) rfl

/-- A comma at the end of a header takes the space in front of the brace. -/
theorem line_opening (clean : Clean header) : line (header ++ [' ', '\x7b']) = Sheet.opening header := by
  have whole : line (header ++ [' ', '\x7b']) =
      replace [' ', '\x7b'] ['\x7b'] (replace [',', ' '] [','] (header ++ [' ', '\x7b'])) :=
    if_pos (by simp)
  rw [whole]
  by_cases comma : header.getLast? = some ','
  · obtain ⟨front, rfl⟩ := List.getLast?_eq_some_iff.mp comma
    have before : '\x7b' ∉ replace [',', ' '] [','] front :=
      not_mem_replace (fun member => clean.plain '\x7b' (by simp) (List.mem_append_left _ member)) (by simp)
    have spaced : replace [',', ' '] [','] (front ++ [','] ++ [' ', '\x7b']) =
        replace [',', ' '] [','] front ++ [',', '\x7b'] := by
      rw [List.append_assoc, Chars.replace_append (by simp)]
      rfl
    have bare : replace [',', ' '] [','] (front ++ [',']) = replace [',', ' '] [','] front ++ [','] := by
      rw [Chars.replace_append (by simp)]
      rfl
    rw [spaced, Sheet.opening, bare, List.append_assoc]
    refine Chars.replace_of_absent ?_
    rw [Chars.pair_infix_append]
    have absent : ¬ [' ', '\x7b'] <:+: replace [',', ' '] [','] front :=
      fun pair => before (pair.subset (by simp))
    simp [absent, Chars.pair_infix_cons]
  · have before : '\x7b' ∉ replace [',', ' '] [','] header := not_mem_replace (clean.plain _ (by simp)) (by simp)
    have absent : ¬ [' ', '\x7b'] <:+: replace [',', ' '] [','] header :=
      fun pair => before (pair.subset (by simp))
    rw [Chars.replace_append (by simp [comma]), Chars.replace_append (fun _ => by decide),
      Chars.replace_of_absent absent]
    rfl

end Lines

namespace Sheet

variable {sheet : Sheet}

/-- Line by line, a stylesheet comes out in its shortest form but for the marks. -/
theorem Clean.marked_eq (clean : sheet.Clean) : sheet.rows.flatMap line = sheet.marked := by
  induction sheet with
  | none => rfl
  | declaration property value behind ih =>
    obtain ⟨own, shown, others⟩ := clean
    rw [rows, List.flatMap_cons, line_declaration own shown, ih others, marked]
    simp
  | statement text behind ih =>
    rw [rows, List.flatMap_cons, line_statement clean.1, ih clean.2, marked]
    simp
  | block header items behind itemsIh behindIh =>
    obtain ⟨own, within, others⟩ := clean
    rw [rows, List.flatMap_cons, line_opening own, List.flatMap_append, itemsIh within, List.flatMap_cons,
      behindIh others, marked, List.append_assoc]
    rfl

/-- No stylesheet begins with a closing brace. -/
theorem Clean.head_marked (clean : sheet.Clean) (some : sheet ≠ none) (rest : List Char) :
    (sheet.marked ++ rest).head? ≠ Option.some '\x7d' := by
  cases sheet with
  | none => contradiction
  | declaration property value behind =>
    rw [marked, List.append_assoc, List.append_assoc]
    exact clean.1.head (by simp) _
  | statement text behind =>
    rw [marked, List.append_assoc]
    exact clean.1.head (by simp) _
  | block header items behind =>
    have absent : '\x7d' ∉ opening header := by
      simp [opening, not_mem_replace (clean.1.plain '\x7d' (by simp))]
    have nonempty : opening header ≠ [] := by simp [opening]
    rw [marked, List.append_assoc, List.append_assoc, List.head?_append_of_ne_nil _ nonempty]
    exact fun first => absent (List.mem_of_head? first)

/-- An item keeps its mark, unless a brace follows at once. -/
theorem Clean.replace_item (clean : sheet.Clean) {text rest : List Char} (plain : ';' ∉ text) {closing : Bool}
    (next : closing = true ↔ rest.head? = some '\x7d') :
    replace [';', '\x7d'] ['\x7d'] (text ++ ';' :: (sheet.marked ++ rest)) =
      text ++ sheet.mark closing ++ replace [';', '\x7d'] ['\x7d'] (sheet.marked ++ rest) := by
  have before : replace [';', '\x7d'] ['\x7d'] text = text :=
    Chars.replace_of_absent fun pair => plain (pair.subset (by simp))
  have kept (other : (sheet.marked ++ rest).head? ≠ some '\x7d') :
      replace [';', '\x7d'] ['\x7d'] (';' :: (sheet.marked ++ rest)) =
        ';' :: replace [';', '\x7d'] ['\x7d'] (sheet.marked ++ rest) :=
    @Chars.replace_append ';' '\x7d' [';'] _ ['\x7d'] fun _ => other
  rw [Chars.replace_append fun last => absurd (List.mem_of_getLast? last) plain, before, List.append_assoc]
  refine congrArg (text ++ ·) ?_
  by_cases last : sheet = none
  · subst last
    cases closing with
    | true =>
      obtain ⟨more, rfl⟩ := List.head?_eq_some_iff.mp (next.mp rfl)
      exact Chars.replace_pair more
    | false => exact kept (by simpa [marked] using next)
  · have mark : sheet.mark closing = [';'] := by
      cases sheet <;> first | contradiction | rfl
    rw [mark, kept (clean.head_marked last rest)]
    rfl

/-- The marks that go are those in front of a brace. -/
theorem Clean.replace_marked (clean : sheet.Clean) {closing : Bool} {rest : List Char}
    (next : closing = true ↔ rest.head? = some '\x7d') :
    replace [';', '\x7d'] ['\x7d'] (sheet.marked ++ rest) =
      sheet.compact closing ++ replace [';', '\x7d'] ['\x7d'] rest := by
  induction sheet generalizing closing rest with
  | none => rfl
  | declaration property value behind ih =>
    obtain ⟨own, shown, others⟩ := clean
    have plain : ';' ∉ property ++ ':' :: value := by
      simp [own.plain ';' (by simp), shown.plain ';' (by simp)]
    rw [marked, List.append_assoc, List.cons_append, others.replace_item plain next, ih others next, compact]
    simp only [List.append_assoc]
  | statement text behind ih =>
    obtain ⟨own, others⟩ := clean
    rw [marked, List.append_assoc, List.cons_append, others.replace_item (own.plain ';' (by simp)) next,
      ih others next, compact]
    simp only [List.append_assoc]
  | block header items behind itemsIh behindIh =>
    obtain ⟨own, within, others⟩ := clean
    have before : replace [';', '\x7d'] ['\x7d'] (opening header) = opening header := by
      refine Chars.replace_of_absent fun pair => ?_
      have semicolon : ';' ∉ opening header := by
        simp [opening, not_mem_replace (own.plain ';' (by simp))]
      exact semicolon (pair.subset (by simp))
    have brace : replace [';', '\x7d'] ['\x7d'] ('\x7d' :: (behind.marked ++ rest)) =
        '\x7d' :: replace [';', '\x7d'] ['\x7d'] (behind.marked ++ rest) := rfl
    have apart : (opening header).getLast? ≠ some ';' := by simp [opening]
    have inside : true = true ↔ ('\x7d' :: (behind.marked ++ rest)).head? = some '\x7d' := by simp
    rw [marked, List.append_assoc, List.append_assoc, Chars.replace_append fun last => absurd last apart, before,
      List.cons_append, itemsIh within inside, brace, behindIh others next, compact]
    simp

/-- Each row of the expanded style is trimmed and in one line, and opens no comment. -/
theorem Clean.rows (clean : sheet.Clean) : ∀ row ∈ sheet.rows, Regular row ∧ ¬ ['/', '*'] <:+: row := by
  induction sheet with
  | none => exact nofun
  | declaration property value behind ih =>
    obtain ⟨own, shown, others⟩ := clean
    refine List.forall_mem_cons.mpr ⟨⟨own.regular _ ?_ rfl, ?_⟩, ih others⟩
    · simp [shown.plain '\n' (by simp)]
    · simp [Chars.pair_infix_append, Chars.pair_infix_cons, own.comment, shown.comment]
  | statement text behind ih =>
    obtain ⟨own, others⟩ := clean
    refine List.forall_mem_cons.mpr ⟨⟨?_, ?_⟩, ih others⟩
    · simpa using own.regular [] (by simp) (c := ';') rfl
    · simp [Chars.pair_infix_append, Chars.pair_infix_cons, own.comment]
  | block header items behind itemsIh behindIh =>
    obtain ⟨own, within, others⟩ := clean
    have brace : Regular ['\x7d'] := ⟨by simp, .single rfl, by simp⟩
    refine List.forall_mem_cons.mpr ⟨⟨?_, ?_⟩, List.forall_mem_append.mpr
      ⟨itemsIh within, List.forall_mem_cons.mpr ⟨⟨brace, by decide⟩, behindIh others⟩⟩⟩
    · simpa using own.regular [' '] (by simp) (c := '\x7b') rfl
    · simp [Chars.pair_infix_append, Chars.pair_infix_cons, own.comment]

end Sheet

/-- A stylesheet in the expanded style is compressed to its shortest form. -/
theorem text_expanded {sheet : Sheet} (clean : sheet.Clean) {css : List Char} (spaced : Spaced sheet.rows css) :
    text (String.ofList css) = String.ofList (sheet.compact false) := by
  have still : strip css = css := by
    have silent := not_opens (spaced.not_pair (by decide) fun row member => (clean.rows row member).2) []
    have whole := strip_append silent (by simp)
    rwa [List.append_nil, strip_nil, List.append_nil] at whole
  have last : replace [';', '\x7d'] ['\x7d'] (sheet.marked ++ []) = sheet.compact false ++ [] :=
    clean.replace_marked (by simp)
  rw [List.append_nil, List.append_nil] at last
  rw [text, String.toList_ofList, chars_eq, still, spaced.rows_eq fun row member => (clean.rows row member).1,
    clean.marked_eq, last]

/-- A statement, and a rule inside of a block, with a blank line and a value that looks like a header. -/
theorem text_expanded_media :
    let sheet : Sheet := .statement "@import url(a:b)".toList
      (.block "@media c, d".toList
        (.block "e, f > g".toList (.declaration "--h".toList "i: j, k".toList .none) .none) .none)
    let css := "@import url(a:b);\n\n@media c, d \x7b\n  e, f > g \x7b\n    --h: i: j, k;\n\n  \x7d\n\x7d\n"
    sheet.Clean ∧ Spaced sheet.rows css.toList ∧
      text css = "@import url(a:b);@media c,d\x7be,f > g\x7b--h:i: j, k\x7d\x7d" := by
  intro sheet css
  have clean : sheet.Clean := by decide +kernel
  have spaced : Spaced sheet.rows css.toList := by
    have cut : css.toList = [] ++ ("@import url(a:b);".toList ++ ("\n\n".toList ++ ("@media c, d \x7b".toList ++
        ("\n  ".toList ++ ("e, f > g \x7b".toList ++ ("\n    ".toList ++ ("--h: i: j, k;".toList ++
        ("\n\n  ".toList ++ (['\x7d'] ++ (['\n'] ++ (['\x7d'] ++ ['\n']))))))))))) := by decide +kernel
    rw [cut]
    have blanks {gap : List Char} (all : gap.all isBlank = true) : ∀ b ∈ gap, isBlank b = true :=
      List.all_eq_true.mp all
    refine .row (blanks ?_) ?_ (.row (blanks ?_) ?_ (.row (blanks ?_) ?_ (.row (blanks ?_) ?_
      (.row (blanks ?_) ?_ (.row (blanks ?_) ?_ (.none (blanks ?_))))))) <;> decide +kernel
  refine ⟨clean, spaced, ?_⟩
  rw [← String.ofList_toList (s := css), text_expanded clean spaced]
  decide +kernel

end Scss.Compress
