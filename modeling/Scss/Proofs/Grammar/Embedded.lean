import Scss.Grammar.Quoted
import Scss.Proofs.Grammar.Strings

/-! Where an expression that is embedded in a string ends. The lexer goes down into the strings inside
the expression and into the expressions inside those; the cut into pieces only steps over quotes and
counts braces. Both come to the same brace unless an expression in a string in an expression writes the
mark of the string around it. -/
namespace Scss

namespace Lexer

/-- An expression that is embedded in a string, by its text and the number of characters of the string
that stand before it. -/
structure Embedding where
  text : List Char
  offset : Nat
deriving DecidableEq

structure Literal where
  mark : Char
  inside : List Char
deriving DecidableEq

/-- The expressions embedded in the inside of a string, as the lexer cuts them: `skip` characters belong
to an expression that is listed already, and `offset` characters stand before. -/
def embeddingsFrom (offset : Nat) : Nat → List Char → List Embedding
  | _, [] => []
  | skip + 1, _ :: rest => embeddingsFrom (offset + 1) skip rest
  | 0, '\\' :: _ :: more => embeddingsFrom (offset + 2) 0 more
  | 0, '#' :: '\x7b' :: more =>
    match quotedLength [⟨.embedded 1, .start⟩] .start more with
    | .error _ => []
    | .ok length =>
      ⟨more.take (length - 1), offset + 2⟩ :: embeddingsFrom (offset + 1) (length + 1) ('\x7b' :: more)
  | 0, _ :: rest => embeddingsFrom (offset + 1) 0 rest

def embeddings (inside : List Char) : List Embedding := embeddingsFrom 0 0 inside

/-- The strings in the text of an expression, as the lexer cuts them, behind `skip` characters of one that
is listed already. -/
def literalsFrom : Nat → List Char → List Literal
  | _, [] => []
  | skip + 1, _ :: rest => literalsFrom skip rest
  | 0, c :: rest =>
    if c = '"' ∨ c = '\'' then
      match quotedLength [⟨.quoted c, .start⟩] .start rest with
      | .error _ => []
      | .ok length => ⟨c, rest.take (length - 1)⟩ :: literalsFrom length rest
    else literalsFrom 0 rest

def literals (text : List Char) : List Literal := literalsFrom 0 text

/-- Whether a text writes the mark in pairs, with no brace and no other quote between the two of a pair
and no backslash outside; `between` says whether the first of a pair stands before. -/
def paired (mark : Char) : Bool → List Char → Bool
  | between, [] => !between
  | between, c :: rest =>
    if c = mark then paired mark (!between) rest
    else if between then c ∉ ['"', '\'', '\x7b', '\x7d'] && paired mark true rest
    else c ≠ '\\' && paired mark false rest

/-- No expression in a string in this expression disturbs a reader that takes the string to end at the
next mark. -/
def Clear (text : List Char) : Prop :=
  ∀ literal ∈ literals text, ∀ inner ∈ embeddings literal.inside, paired literal.mark false inner.text = true

instance (text : List Char) : Decidable (Clear text) :=
  inferInstanceAs (Decidable (∀ literal ∈ literals text, ∀ inner ∈ embeddings literal.inside, _))

/-- The same of a text in the quotes of a mark, or in an expression; places are counted from `offset`. -/
def Undisturbed (offset : Nat) : Option Char → List Char → Prop
  | none, text => Clear text
  | some mark, inside => ∀ inner ∈ embeddingsFrom offset 0 inside, paired mark false inner.text = true

section Cuts

variable {mark : Char} {inside text rest : List Char}

theorem embeddingsFrom_skip (offset skip : Nat) (text : List Char) :
    embeddingsFrom offset skip text = embeddingsFrom (offset + skip) 0 (text.drop skip) := by
  induction skip generalizing offset text with
  | zero => rfl
  | succ skip ih =>
    cases text with
    | nil => rfl
    | cons c rest =>
      rw [embeddingsFrom, ih, List.drop_succ_cons]
      congr 1
      omega

theorem embeddingsFrom_expression (offset : Nat) (nested : Nested none text) :
    embeddingsFrom offset 0 ('#' :: '\x7b' :: (text ++ '\x7d' :: rest)) =
      ⟨text, offset + 2⟩ :: embeddingsFrom (offset + (text.length + 3)) 0 rest := by
  rw [embeddingsFrom, quotedLength_finished nested, quotedLength_nil]
  simp only [Except.map, Nat.zero_add, Nat.add_sub_cancel, List.take_left]
  have places : offset + 1 + (text.length + 1 + 1) = offset + (text.length + 3) := by omega
  rw [embeddingsFrom_skip, places, List.drop_succ_cons, List.drop_length_add_append]
  rfl

theorem embeddingsFrom_letter (offset : Nat) {c : Char} (plain : c ≠ '\\')
    (whole : c = '#' → rest.head? ≠ some '\x7b') :
    embeddingsFrom offset 0 (c :: rest) = embeddingsFrom (offset + 1) 0 rest := by
  rw [embeddingsFrom]
  · rintro _ _ rfl
    exact absurd rfl plain
  · rintro more rfl rfl
    exact absurd rfl (whole rfl)

theorem literalsFrom_skip (skip : Nat) (text : List Char) :
    literalsFrom skip text = literalsFrom 0 (text.drop skip) := by
  induction skip generalizing text with
  | zero => rfl
  | succ skip ih =>
    cases text with
    | nil => rfl
    | cons c rest => rw [literalsFrom, ih, List.drop_succ_cons]

theorem literals_string (quote : mark = '"' ∨ mark = '\'') (nested : Nested (some mark) inside) :
    literals (mark :: (inside ++ mark :: rest)) = ⟨mark, inside⟩ :: literals rest := by
  rw [literals, literalsFrom, if_pos quote, quotedLength_closed quote nested, quotedLength_nil]
  simp only [Except.map, Nat.zero_add, Nat.add_sub_cancel, List.take_left]
  rw [literalsFrom_skip, List.drop_length_add_append]
  rfl

theorem literals_other {c : Char} (plain : c ≠ '"' ∧ c ≠ '\'') : literals (c :: rest) = literals rest := by
  rw [literals, literalsFrom, if_neg (not_or.mpr plain), literals]

theorem literals_append {context : Option Char} (nested : Nested context text) (outside : context = none)
    (rest : List Char) : literals (text ++ rest) = literals text ++ literals rest := by
  induction nested generalizing rest with
  | nil => rfl
  | escape | expression | letter => cases outside
  | @string mark inside more quote inner _ _ ih =>
    have shape : mark :: (inside ++ mark :: more) ++ rest = mark :: (inside ++ mark :: (more ++ rest)) := by
      simp
    rw [shape, literals_string quote inner, literals_string quote inner, ih rfl, List.cons_append]
  | @block text more _ _ inside behind =>
    have shape : '\x7b' :: (text ++ '\x7d' :: more) ++ rest =
        '\x7b' :: (text ++ '\x7d' :: (more ++ rest)) := by simp
    rw [shape]
    simp only [literals_other (by decide : '\x7b' ≠ '"' ∧ '\x7b' ≠ '\''), inside rfl,
      literals_other (by decide : '\x7d' ≠ '"' ∧ '\x7d' ≠ '\''), behind rfl, List.append_assoc]
  | code plain more ih =>
    rw [List.cons_append, literals_other plain.1, literals_other plain.1, ih rfl]

end Cuts

end Lexer

namespace Quoted

open Lexer (Nested Embedding Undisturbed embeddings embeddingsFrom embeddingsFrom_expression
  embeddingsFrom_letter literals_string literals_other literals_append paired Clear)

section Scan

variable {mark c : Char} {text rest : List Char} {depth : Nat}

theorem map_add_add (result : Option Nat) (first second : Nat) :
    (result.map (· + first)).map (· + second) = result.map (· + (first + second)) := by
  cases result with
  | none => rfl
  | some length => exact congrArg some (Nat.add_assoc length first second)

theorem map_add_zero (result : Option Nat) : result = result.map (· + 0) := by
  cases result <;> rfl

/-- A step inside quotes. -/
theorem bodyLength_quoted : bodyLength depth (some mark) (c :: rest) =
    if c = mark then (bodyLength depth none rest).map (· + 1)
    else if c = '\\' then
      match rest with
      | [] => none
      | _ :: more => (bodyLength depth (some mark) more).map (· + 2)
    else (bodyLength depth (some mark) rest).map (· + 1) := by
  cases rest <;> rfl

/-- A step outside of quotes. -/
theorem bodyLength_unquoted : bodyLength depth none (c :: rest) =
    if c = '"' ∨ c = '\'' then (bodyLength depth (some c) rest).map (· + 1)
    else if c = '\x7b' then (bodyLength (depth + 1) none rest).map (· + 1)
    else if c = '\x7d' then
      if depth ≤ 1 then some 0 else (bodyLength (depth - 1) none rest).map (· + 1)
    else (bodyLength depth none rest).map (· + 1) := rfl

theorem bodyLength_mark : bodyLength depth (some mark) (mark :: rest) =
    (bodyLength depth none rest).map (· + 1) := by
  rw [bodyLength_quoted, if_pos rfl]

theorem bodyLength_escape (quote : mark ≠ '\\') : bodyLength depth (some mark) ('\\' :: c :: rest) =
    (bodyLength depth (some mark) rest).map (· + 2) := by
  rw [bodyLength_quoted, if_neg quote.symm, if_pos rfl]

theorem bodyLength_letter (plain : c ≠ mark ∧ c ≠ '\\') : bodyLength depth (some mark) (c :: rest) =
    (bodyLength depth (some mark) rest).map (· + 1) := by
  rw [bodyLength_quoted, if_neg plain.1, if_neg plain.2]

theorem bodyLength_quote (quote : mark = '"' ∨ mark = '\'') : bodyLength depth none (mark :: rest) =
    (bodyLength depth (some mark) rest).map (· + 1) := by
  rw [bodyLength_unquoted, if_pos quote]

theorem bodyLength_block : bodyLength depth none ('\x7b' :: rest) =
    (bodyLength (depth + 1) none rest).map (· + 1) := rfl

theorem bodyLength_unblock (deep : 1 ≤ depth) : bodyLength (depth + 1) none ('\x7d' :: rest) =
    (bodyLength depth none rest).map (· + 1) := by
  rw [bodyLength_unquoted, if_neg (by decide), if_neg (by decide), if_pos rfl, if_neg (by omega),
    Nat.add_sub_cancel]

theorem bodyLength_code (plain : (c ≠ '"' ∧ c ≠ '\'') ∧ c ≠ '\x7b' ∧ c ≠ '\x7d') :
    bodyLength depth none (c :: rest) = (bodyLength depth none rest).map (· + 1) := by
  rw [bodyLength_unquoted, if_neg (not_or.mpr plain.1), if_neg plain.2.1, if_neg plain.2.2]

/-- Between the marks of a pair the scan is outside the string, and behind the pair it is inside again. -/
theorem bodyLength_paired (depth : Nat) (quote : mark = '"' ∨ mark = '\'') {between : Bool}
    (pairs : paired mark between text = true) (rest : List Char) :
    bodyLength depth (if between then none else some mark) (text ++ rest) =
      (bodyLength depth (some mark) rest).map (· + text.length) := by
  induction text generalizing between with
  | nil =>
    cases between with
    | true => cases pairs
    | false => exact map_add_zero _
  | cons c text ih =>
    rw [paired] at pairs
    rw [List.cons_append, List.length_cons]
    by_cases marked : c = mark
    · subst marked
      rw [if_pos rfl] at pairs
      have behind := ih pairs
      cases between with
      | true => exact (bodyLength_quote quote).trans (by rw [← map_add_add, ← behind]; rfl)
      | false => exact bodyLength_mark.trans (by rw [← map_add_add, ← behind]; rfl)
    · rw [if_neg marked] at pairs
      cases between with
      | true =>
        obtain ⟨other, pairs⟩ := Bool.and_eq_true_iff.mp pairs
        have plain : (c ≠ '"' ∧ c ≠ '\'') ∧ c ≠ '\x7b' ∧ c ≠ '\x7d' := by simpa [and_assoc] using other
        exact (bodyLength_code plain).trans (by rw [← map_add_add, ← ih pairs]; rfl)
      | false =>
        obtain ⟨other, pairs⟩ := Bool.and_eq_true_iff.mp pairs
        exact (bodyLength_letter ⟨marked, of_decide_eq_true other⟩).trans
          (by rw [← map_add_add, ← ih pairs]; rfl)

/-- The scan that knows one mark steps over a nested text as the lexer does. -/
theorem bodyLength_nested {context : Option Char} (nested : Nested context text)
    (quote : ∀ mark, context = some mark → mark = '"' ∨ mark = '\'') (offset : Nat)
    (clear : Undisturbed offset context text) (deep : 1 ≤ depth) (rest : List Char) :
    bodyLength depth context (text ++ rest) = (bodyLength depth context rest).map (· + text.length) := by
  induction nested generalizing depth offset rest with
  | nil => exact map_add_zero _
  | @escape mark c text more ih =>
    have unescaped : mark ≠ '\\' := by rcases quote mark rfl with rfl | rfl <;> decide
    rw [List.cons_append, List.cons_append, bodyLength_escape unescaped,
      ih quote (offset + 2) clear deep, map_add_add]
    rfl
  | @expression mark inner text inside _ _ behind =>
    have shape : '#' :: '\x7b' :: (inner ++ '\x7d' :: text) ++ rest =
        '#' :: '\x7b' :: (inner ++ '\x7d' :: (text ++ rest)) := by simp
    have other (c : Char) (none : c ≠ '"' ∧ c ≠ '\'' ∧ c ≠ '\\') : c ≠ mark ∧ c ≠ '\\' := by
      rcases quote mark rfl with rfl | rfl
      · exact ⟨none.1, none.2.2⟩
      · exact none.2
    rw [Undisturbed, embeddingsFrom_expression _ inside] at clear
    obtain ⟨pairs, clear⟩ := List.forall_mem_cons.mp clear
    have stepped := bodyLength_paired depth (quote mark rfl) pairs ('\x7d' :: (text ++ rest))
    rw [if_neg Bool.false_ne_true] at stepped
    rw [shape, bodyLength_letter (other '#' (by decide)), bodyLength_letter (other '\x7b' (by decide)),
      stepped, bodyLength_letter (other '\x7d' (by decide)), behind quote _ clear deep]
    simp only [map_add_add, List.length_cons, List.length_append]
    exact congrArg (fun total => Option.map (· + total) _) (by omega)
  | @letter mark c text plain whole more ih =>
    rw [Undisturbed, embeddingsFrom_letter _ plain.2.1 whole] at clear
    rw [List.cons_append, bodyLength_letter ⟨plain.2.2, plain.2.1⟩, ih quote _ clear deep, map_add_add]
    rfl
  | @string mark inner text own nested _ inside behind =>
    have shape : mark :: (inner ++ mark :: text) ++ rest = mark :: (inner ++ mark :: (text ++ rest)) := by
      simp
    rw [Undisturbed, Clear, literals_string own nested] at clear
    obtain ⟨first, clear⟩ := List.forall_mem_cons.mp clear
    rw [shape, bodyLength_quote own, inside (by rintro _ ⟨⟩; exact own) 0 first deep,
      bodyLength_mark, behind quote 0 clear deep]
    simp only [map_add_add, List.length_cons, List.length_append]
    exact congrArg (fun total => Option.map (· + total) _) (by omega)
  | @block inner text nested _ inside behind =>
    have shape : '\x7b' :: (inner ++ '\x7d' :: text) ++ rest =
        '\x7b' :: (inner ++ '\x7d' :: (text ++ rest)) := by simp
    rw [Undisturbed, Clear, literals_other (by decide), literals_append nested rfl,
      literals_other (by decide)] at clear
    obtain ⟨first, clear⟩ := List.forall_mem_append.mp clear
    rw [shape, bodyLength_block, inside quote 0 first (Nat.le_succ_of_le deep),
      bodyLength_unblock deep, behind quote 0 clear deep]
    simp only [map_add_add, List.length_cons, List.length_append]
    exact congrArg (fun total => Option.map (· + total) _) (by omega)
  | code plain more ih =>
    rw [Undisturbed, Clear, literals_other plain.1] at clear
    rw [List.cons_append, bodyLength_code plain, ih quote 0 clear deep, map_add_add]
    rfl

theorem bodyLength_finished (nested : Nested none text) (clear : Clear text) (rest : List Char) :
    bodyLength 1 none (text ++ '\x7d' :: rest) = some text.length := by
  rw [bodyLength_nested nested nofun 0 clear (Nat.le_refl 1)]
  exact congrArg some (Nat.zero_add _)

end Scan

def Piece.embedding? : Piece → Option Embedding
  | .literal _ => none
  | .body text offset => some ⟨text, offset⟩

section Pieces

variable {mark c : Char} {inside text rest : List Char}

theorem filterMap_pushChar (c : Char) (pieces : List Piece) :
    (pushChar c pieces).filterMap Piece.embedding? = pieces.filterMap Piece.embedding? := by
  cases pieces with
  | nil => rfl
  | cons first pieces => cases first <;> rfl

theorem piecesFrom_skip (offset skip : Nat) (text : List Char) :
    piecesFrom offset skip text = piecesFrom (offset + skip) 0 (text.drop skip) := by
  induction skip generalizing offset text with
  | zero => rfl
  | succ skip ih =>
    cases text with
    | nil => rfl
    | cons c rest =>
      rw [piecesFrom, ih, List.drop_succ_cons]
      congr 1
      omega

theorem piecesFrom_expression (offset : Nat)
    (found : bodyLength 1 none (text ++ '\x7d' :: rest) = some text.length) :
    piecesFrom offset 0 ('#' :: '\x7b' :: (text ++ '\x7d' :: rest)) =
      (.body text (offset + 2) :: (piecesFrom (offset + (text.length + 3)) 0 rest).1,
        (piecesFrom (offset + (text.length + 3)) 0 rest).2) := by
  have places : offset + 1 + (text.length + 2) = offset + (text.length + 3) := by omega
  rw [piecesFrom, found]
  dsimp only
  rw [List.take_left, piecesFrom_skip, places, List.drop_succ_cons, List.drop_length_add_append]
  rfl

theorem piecesFrom_letter (offset : Nat) (plain : c ≠ '\\') (whole : c = '#' → rest.head? ≠ some '\x7b') :
    piecesFrom offset 0 (c :: rest) =
      (pushChar c (piecesFrom (offset + 1) 0 rest).1, (piecesFrom (offset + 1) 0 rest).2) := by
  rw [piecesFrom]
  · rintro _ _ rfl
    exact absurd rfl plain
  · rintro more rfl rfl
    exact absurd rfl (whole rfl)

/-- The pieces are cut around the expressions that the lexer finds. -/
theorem piecesFrom_nested {context : Option Char} (nested : Nested context inside)
    (within : context = some mark) (offset : Nat)
    (clear : ∀ body ∈ embeddingsFrom offset 0 inside, Clear body.text) :
    (piecesFrom offset 0 inside).2 = none ∧
      (piecesFrom offset 0 inside).1.filterMap Piece.embedding? = embeddingsFrom offset 0 inside := by
  induction nested generalizing offset with
  | nil => exact ⟨rfl, rfl⟩
  | escape more ih =>
    obtain ⟨whole, cut⟩ := ih within (offset + 2) clear
    exact ⟨whole, by rw [piecesFrom, filterMap_pushChar, filterMap_pushChar]; exact cut⟩
  | expression inner _ _ behind =>
    rw [embeddingsFrom_expression _ inner] at clear ⊢
    obtain ⟨first, clear⟩ := List.forall_mem_cons.mp clear
    obtain ⟨whole, cut⟩ := behind within _ clear
    rw [piecesFrom_expression _ (bodyLength_finished inner first _)]
    exact ⟨whole, congrArg (_ :: ·) cut⟩
  | letter plain whole more ih =>
    rw [embeddingsFrom_letter _ plain.2.1 whole] at clear ⊢
    obtain ⟨closed, cut⟩ := ih within _ clear
    rw [piecesFrom_letter _ plain.2.1 whole]
    exact ⟨closed, (filterMap_pushChar _ _).trans cut⟩
  | string | block | code => cases within

end Pieces

end Quoted

namespace Lexer

/-- While the lexer reads the inside of a string, it opens an expression behind `front`, where this one
starts, and closes it at the brace in front of `behind`. -/
structure Embedding.Cut (mark : Char) (opened : Position) (inside front behind : List Char)
    (body : Embedding) : Prop where
  whole : inside = front ++ '#' :: '\x7b' :: (body.text ++ '\x7d' :: behind)
  offset : body.offset = front.length + 2
  opens (more : List Char) : quotedLength [⟨.quoted mark, opened⟩] (opened.next mark)
      (front ++ '#' :: '\x7b' :: more) =
    (quotedLength [⟨.embedded 1, opened⟩, ⟨.quoted mark, opened⟩]
      (opened.after (mark :: (front ++ ['#', '\x7b']))) more).map (· + body.offset)
  closes (more : List Char) : quotedLength [⟨.embedded 1, opened⟩, ⟨.quoted mark, opened⟩]
      (opened.after (mark :: (front ++ ['#', '\x7b']))) (body.text ++ '\x7d' :: more) =
    (quotedLength [⟨.quoted mark, opened⟩]
      (opened.after (mark :: (front ++ '#' :: '\x7b' :: (body.text ++ ['\x7d'])))) more).map
      (· + (body.text.length + 1))

/-- Each of the expressions stands between nested texts. -/
theorem embeddingsFrom_split {mark : Char} {inside : List Char} {context : Option Char}
    (nested : Nested context inside) (within : context = some mark) (offset : Nat) {body : Embedding}
    (member : body ∈ embeddingsFrom offset 0 inside) :
    ∃ front behind, inside = front ++ '#' :: '\x7b' :: (body.text ++ '\x7d' :: behind) ∧
      body.offset = offset + (front.length + 2) ∧ Nested (some mark) front ∧ Nested none body.text := by
  induction nested generalizing offset with
  | nil => cases member
  | @escape _ c _ more ih =>
    cases within
    obtain ⟨front, behind, rfl, place, before, inner⟩ := ih rfl (offset + 2) member
    exact ⟨'\\' :: c :: front, behind, rfl, by rw [place]; simp only [List.length_cons]; omega,
      .escape before, inner⟩
  | @expression _ text rest first more _ ih =>
    cases within
    rw [embeddingsFrom_expression _ first] at member
    obtain rfl | later := List.mem_cons.mp member
    · exact ⟨[], rest, rfl, rfl, .nil _, first⟩
    · obtain ⟨front, behind, rfl, place, before, inner⟩ := ih rfl _ later
      refine ⟨'#' :: '\x7b' :: (text ++ '\x7d' :: front), behind, by simp, ?_,
        .expression first before, inner⟩
      rw [place]
      simp only [List.length_cons, List.length_append]
      omega
  | @letter _ c _ plain whole more ih =>
    cases within
    rw [embeddingsFrom_letter _ plain.2.1 whole] at member
    obtain ⟨front, behind, rfl, place, before, inner⟩ := ih rfl _ member
    refine ⟨c :: front, behind, rfl, by rw [place, List.length_cons]; omega,
      .letter plain (fun hash brace => whole hash ?_) before, inner⟩
    rw [List.head?_append, brace, Option.some_or]
  | string | block | code => cases within

theorem embedding_cut {mark : Char} (quote : mark = '"' ∨ mark = '\'') {inside : List Char}
    (nested : Nested (some mark) inside) (opened : Position) {body : Embedding}
    (member : body ∈ embeddings inside) :
    ∃ front behind, body.Cut mark opened inside front behind ∧ Nested none body.text := by
  obtain ⟨front, behind, whole, place, before, inner⟩ := embeddingsFrom_split nested rfl 0 member
  rw [Nat.zero_add] at place
  refine ⟨front, behind, ⟨whole, place, fun more => ?_, fun more => ?_⟩, inner⟩
  · rw [quotedLength_nested before (.quoted mark) rfl quote _ _ _ fun _ => by simp,
      quotedLength_expression quote, map_add_add, place, Nat.add_comm 2, Position.after_cons,
      Position.after_append]
    rfl
  · rw [quotedLength_finished inner]
    simp only [Position.after_cons, Position.after_append, Position.after_nil]

/-- Every expression in a string token starts and ends where the lexer opens and closes it. The scan for the
closing brace comes to the same brace wherever the expression is clear, and if all of them are, the pieces
of the string are cut around just these expressions, none of which is left open. -/
theorem embedded_ends_alike (start : Position) (source : String) {tokens before after : List Token}
    {token : Token} (lexed : tokensAt start source.toList = .ok tokens)
    (cut : tokens = before ++ token :: after) (string : token.kind = .string) :
    ∃ mark inside, token.text.toList = mark :: (inside ++ [mark]) ∧ token.content = String.ofList inside ∧
      (∀ body ∈ embeddings inside, ∃ front behind, body.Cut mark token.position inside front behind ∧
        (Clear body.text →
          Quoted.bodyLength 1 none (inside.drop body.offset) = some body.text.length)) ∧
      ((∀ body ∈ embeddings inside, Clear body.text) →
        (Quoted.pieces inside).2 = none ∧
        (Quoted.pieces inside).1.filterMap Quoted.Piece.embedding? = embeddings inside ∧
        ∀ read position, Quoted.template read token.content position =
          ((Quoted.pieces inside).1.mapM (Quoted.readPiece read position)).map (⟨·, position.line⟩)) := by
  obtain ⟨mark, inside, rest, quote, nested, -, text⟩ := string_nested lexed cut string
  refine ⟨mark, inside, text, Token.content_eq text, fun body member => ?_, fun clear => ?_⟩
  · obtain ⟨front, behind, split, inner⟩ := embedding_cut quote nested token.position member
    refine ⟨front, behind, split, fun clear => ?_⟩
    have drop : inside.drop body.offset = body.text ++ '\x7d' :: behind := by
      rw [split.offset, split.whole, List.drop_length_add_append]
      rfl
    rw [drop, Quoted.bodyLength_finished inner clear]
  · obtain ⟨closed, bodies⟩ := Quoted.piecesFrom_nested nested rfl 0 clear
    refine ⟨closed, bodies, fun read position => ?_⟩
    rw [Token.content_eq text, Quoted.template, String.toList_ofList]
    have whole : (Quoted.pieces inside).2 = none := closed
    dsimp only
    rw [whole]
    cases (Quoted.pieces inside).1.mapM (Quoted.readPiece read position) <;> rfl

/-- The inner of the two expressions writes the mark of the string around it, in a pair. -/
theorem embedded_ends_alike_paired :
    (Quoted.pieces "a#\x7bf(\"b#\x7b\"c\"\x7dd\")\x7de".toList).2 = none ∧
      (Quoted.pieces "a#\x7bf(\"b#\x7b\"c\"\x7dd\")\x7de".toList).1.filterMap Quoted.Piece.embedding? =
        [⟨"f(\"b#\x7b\"c\"\x7dd\")".toList, 3⟩] := by
  have lexed : tokensAt .start "x \"a#\x7bf(\"b#\x7b\"c\"\x7dd\")\x7de\"".toList =
      .ok ([⟨.ident, "x", ⟨1, 1⟩⟩, ⟨.whitespace, " ", ⟨1, 2⟩⟩] ++
        ⟨.string, "\"a#\x7bf(\"b#\x7b\"c\"\x7dd\")\x7de\"", ⟨1, 3⟩⟩ :: [⟨.endOfInput, "", ⟨1, 23⟩⟩]) := by
    decide +kernel
  obtain ⟨mark, inside, text, -, -, pieces⟩ := embedded_ends_alike _ _ lexed rfl rfl
  obtain rfl : "a#\x7bf(\"b#\x7b\"c\"\x7dd\")\x7de".toList = inside := interior_of_marked text
  obtain ⟨closed, bodies, -⟩ := pieces (by decide +kernel)
  exact ⟨closed, bodies.trans (by decide +kernel)⟩

/-- The brace in the innermost string is taken for the one that closes the outer expression, because its
marks are taken for those of the string around. What is cut off is no text of tokens. -/
theorem embedded_ends_apart :
    tokens "\"#\x7b \"#\x7b \"\x7d\" \x7d\" \x7d\"" =
      .ok [⟨.string, "\"#\x7b \"#\x7b \"\x7d\" \x7d\" \x7d\"", ⟨1, 1⟩⟩, ⟨.endOfInput, "", ⟨1, 18⟩⟩] ∧
    embeddings "#\x7b \"#\x7b \"\x7d\" \x7d\" \x7d".toList = [⟨" \"#\x7b \"\x7d\" \x7d\" ".toList, 2⟩] ∧
    (Quoted.pieces "#\x7b \"#\x7b \"\x7d\" \x7d\" \x7d".toList).1.filterMap Quoted.Piece.embedding? =
      [⟨" \"#\x7b \"".toList, 2⟩] ∧
    tokensAt ⟨1, 4⟩ " \"#\x7b \"".toList = .error (.unterminatedString ⟨1, 9⟩) := by
  decide +kernel

end Lexer

end Scss
