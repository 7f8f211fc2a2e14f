import Scss.Proofs.Grammar.Places
import Scss.Proofs.Grammar.Reading

/-! Rows of tokens that differ only in places and in which blanks and comments stand between the
others. Of each run of them the first token counts, and only by its kind. -/
namespace Scss

/-- Tokens of one kind; unless they are trivia, their texts are the same. -/
structure Token.Alike (token other : Token) : Prop where
  kind : token.kind = other.kind
  text : token.isTrivia = false → token.text = other.text

/-- Rows that differ in places, and in runs of trivia behind the first token of each. -/
inductive Alike : List Token → List Token → Prop where
  | nil : Alike [] []
  | visible {token other : Token} {rest others : List Token} (visible : token.isTrivia = false)
      (kind : token.kind = other.kind) (text : token.text = other.text) (tail : Alike rest others) :
      Alike (token :: rest) (other :: others)
  | gap {token other : Token} {rest others : List Token} (trivia : token.isTrivia = true)
      (kind : token.kind = other.kind)
      (tail : Alike (rest.dropWhile Token.isTrivia) (others.dropWhile Token.isTrivia)) :
      Alike (token :: rest) (other :: others)

def visibleCount (tokens : List Token) : Nat := tokens.countP fun token => !token.isTrivia

theorem isTrivia_of_kind {token other : Token} (kind : token.kind = other.kind) :
    token.isTrivia = other.isTrivia := by
  rw [Token.isTrivia, Token.isTrivia, kind]

theorem visibleCount_append (first second : List Token) :
    visibleCount (first ++ second) = visibleCount first + visibleCount second :=
  List.countP_append ..

theorem visibleCount_dropWhile (tokens : List Token) :
    visibleCount (tokens.dropWhile Token.isTrivia) = visibleCount tokens := by
  induction tokens with
  | nil => rfl
  | cons token rest ih =>
    cases trivia : token.isTrivia with
    | true => rw [List.dropWhile_cons_of_pos trivia, ih]; simp [visibleCount, trivia]
    | false => rw [List.dropWhile_cons_of_neg (by simp [trivia])]

/-- Leading trivia end before a token that is none. -/
theorem dropWhile_append {token : Token} (visible : token.isTrivia = false) (tokens rest : List Token) :
    (tokens ++ token :: rest).dropWhile Token.isTrivia =
      tokens.dropWhile Token.isTrivia ++ token :: rest := by
  induction tokens with
  | nil => exact List.dropWhile_cons_of_neg (by simp [visible])
  | cons first others ih =>
    rw [List.cons_append]
    cases trivia : first.isTrivia with
    | true => rw [List.dropWhile_cons_of_pos trivia, List.dropWhile_cons_of_pos trivia, ih]
    | false =>
      rw [List.dropWhile_cons_of_neg (by simp [trivia]), List.dropWhile_cons_of_neg (by simp [trivia])]
      rfl

namespace Alike

variable {tokens others : List Token} {token other : Token}

/-- Tokens that differ only in their places are alike. -/
theorem of_unplaced {tokens others : List Token}
    (same : Placed.unplaced tokens = Placed.unplaced others) : Alike tokens others := by
  match tokens, others with
  | [], [] => exact .nil
  | [], _ :: _ => cases same
  | _ :: _, [] => cases same
  | token :: rest, other :: beyond =>
    obtain ⟨first, tail⟩ := List.cons_eq_cons.mp same
    obtain ⟨kind, text⟩ : token.kind = other.kind ∧ token.text = other.text := by
      simpa [Placed.unplaced] using first
    cases trivia : token.isTrivia with
    | true =>
      have shorter := congrArg (List.dropWhile Token.isTrivia) tail
      rw [List.dropWhile_map, List.dropWhile_map] at shorter
      exact .gap trivia kind (of_unplaced shorter)
    | false => exact .visible trivia kind text (of_unplaced tail)
termination_by tokens.length
decreasing_by
  · exact Nat.lt_succ_self _
  · exact Nat.lt_succ_of_le (List.dropWhile_suffix _).length_le

theorem refl (tokens : List Token) : Alike tokens tokens := of_unplaced rfl

theorem head (alike : Alike (token :: tokens) (other :: others)) : token.Alike other := by
  cases alike with
  | visible _ kind text _ => exact ⟨kind, fun _ => text⟩
  | gap trivia kind _ => exact ⟨kind, fun visible => by simp [trivia] at visible⟩

theorem tail (alike : Alike (token :: tokens) (other :: others)) (visible : token.isTrivia = false) :
    Alike tokens others := by
  cases alike with
  | visible _ _ _ tail => exact tail
  | gap trivia _ _ => simp [trivia] at visible

theorem dropTrivia (alike : Alike tokens others) :
    Alike (tokens.dropWhile Token.isTrivia) (others.dropWhile Token.isTrivia) := by
  cases alike with
  | nil => exact .nil
  | visible visible kind text tail =>
    rw [List.dropWhile_cons_of_neg (by simp [visible]),
      List.dropWhile_cons_of_neg (by simp [← isTrivia_of_kind kind, visible])]
    exact .visible visible kind text tail
  | gap trivia kind tail =>
    rw [List.dropWhile_cons_of_pos trivia,
      List.dropWhile_cons_of_pos (by rw [← isTrivia_of_kind kind, trivia])]
    exact tail

theorem visibleCount_eq (alike : Alike tokens others) : visibleCount tokens = visibleCount others := by
  induction alike with
  | nil => rfl
  | visible visible kind _ _ ih =>
    simp only [visibleCount] at ih ⊢
    rw [List.countP_cons, List.countP_cons, ih, ← isTrivia_of_kind kind]
  | gap trivia kind _ ih =>
    rw [visibleCount_dropWhile, visibleCount_dropWhile] at ih
    simp only [visibleCount] at ih ⊢
    rw [List.countP_cons, List.countP_cons, ih, ← isTrivia_of_kind kind]

/-- A token that is no trivia may be added to both. -/
theorem append (alike : Alike tokens others) (visible : token.isTrivia = false)
    (kind : token.kind = other.kind) (text : token.text = other.text) :
    Alike (tokens ++ [token]) (others ++ [other]) := by
  induction alike with
  | nil => exact .visible visible kind text .nil
  | visible own kinds texts _ ih => exact .visible own kinds texts ih
  | gap trivia kinds _ ih =>
    refine .gap trivia kinds ?_
    change Alike ((_ ++ [token]).dropWhile _) ((_ ++ [other]).dropWhile _)
    rw [dropWhile_append visible, dropWhile_append (isTrivia_of_kind kind ▸ visible)]
    exact ih

end Alike

namespace Cursor

variable {cursor other : Cursor}

def rest (cursor : Cursor) : List Token := cursor.ahead ++ [cursor.last]

/-- Cursors with rows ahead of them that are alike. -/
def Alike (cursor other : Cursor) : Prop := Scss.Alike cursor.rest other.rest

theorem rest_eq (cursor : Cursor) : cursor.rest = cursor.current :: cursor.rest.tail := by
  rw [rest, current]
  cases cursor.ahead <;> rfl

/-- Where the end of input does not stand, the current token is ahead. -/
theorem ahead_eq (proper : cursor.current.kind ≠ .endOfInput) :
    cursor.ahead = cursor.current :: (cursor.advance 1).ahead := by
  rw [current] at proper ⊢
  rw [ahead_advance]
  cases ahead : cursor.ahead with
  | nil => simp [ahead, cursor.last_kind] at proper
  | cons token tokens => rfl

theorem rest_advance (proper : cursor.current.kind ≠ .endOfInput) :
    cursor.rest = cursor.current :: (cursor.advance 1).rest := by
  rw [rest, rest, last_advance, ← List.cons_append, ← ahead_eq proper]

theorem ahead_skipTrivia (cursor : Cursor) :
    cursor.skipTrivia.ahead = cursor.ahead.dropWhile Token.isTrivia := by
  rw [skipTrivia, skipWhile, ahead_advance]
  calc cursor.ahead.drop (cursor.ahead.takeWhile Token.isTrivia).length
    _ = (cursor.ahead.takeWhile Token.isTrivia ++ cursor.ahead.dropWhile Token.isTrivia).drop
          (cursor.ahead.takeWhile Token.isTrivia).length := by rw [List.takeWhile_append_dropWhile]
    _ = cursor.ahead.dropWhile Token.isTrivia := List.drop_left

theorem rest_skipTrivia (cursor : Cursor) :
    cursor.skipTrivia.rest = cursor.rest.dropWhile Token.isTrivia := by
  have visible : cursor.last.isTrivia = false := by
    rw [Token.isTrivia, cursor.last_kind]
    rfl
  rw [rest, rest, dropWhile_append visible, ahead_skipTrivia, skipTrivia, skipWhile, last_advance]

theorem significant_eq (cursor : Cursor) (offset : Nat) :
    cursor.significant offset = (cursor.advance offset).skipTrivia.current := by
  rw [current_skipTrivia, significant, significant, ahead_advance, last_advance, List.drop_zero]

namespace Alike

theorem current (alike : cursor.Alike other) : cursor.current.Alike other.current := by
  rw [Alike, rest_eq cursor, rest_eq other] at alike
  exact alike.head

theorem advance (alike : cursor.Alike other) (visible : cursor.current.isTrivia = false)
    (proper : cursor.current.kind ≠ .endOfInput) : (cursor.advance 1).Alike (other.advance 1) := by
  have further : other.current.kind ≠ .endOfInput := alike.current.kind ▸ proper
  have rows : Scss.Alike cursor.rest other.rest := alike
  rw [rest_advance proper, rest_advance further] at rows
  exact rows.tail visible

theorem skipTrivia (alike : cursor.Alike other) : cursor.skipTrivia.Alike other.skipTrivia := by
  rw [Alike, rest_skipTrivia, rest_skipTrivia]
  exact alike.dropTrivia

theorem visibleCount_eq (alike : cursor.Alike other) :
    visibleCount cursor.ahead = visibleCount other.ahead := by
  have count := Scss.Alike.visibleCount_eq alike
  have single (cursor : Cursor) : visibleCount [cursor.last] = 1 := by
    simp [visibleCount, Token.isTrivia, cursor.last_kind, TokenKind.isTrivia]
  rw [rest, rest, visibleCount_append, visibleCount_append, single, single] at count
  exact Nat.add_right_cancel count

end Alike

end Cursor

def endsInput (tokens : List Token) : Bool :=
  tokens.getLast?.any fun token => token.kind = .endOfInput

theorem endsInput_cons_trivia {token : Token} (trivia : token.isTrivia = true) (rest : List Token) :
    endsInput (token :: rest) = endsInput rest := by
  have other : token.kind ≠ .endOfInput := by
    rintro ends
    simp [Token.isTrivia, ends, TokenKind.isTrivia] at trivia
  rw [endsInput, endsInput, List.getLast?_cons]
  cases rest.getLast? <;> simp [other]

theorem endsInput_dropWhile (tokens : List Token) :
    endsInput (tokens.dropWhile Token.isTrivia) = endsInput tokens := by
  induction tokens with
  | nil => rfl
  | cons token rest ih =>
    cases trivia : token.isTrivia with
    | true => rw [List.dropWhile_cons_of_pos trivia, ih, endsInput_cons_trivia trivia]
    | false => rw [List.dropWhile_cons_of_neg (by simp [trivia])]

theorem Alike.endsInput_eq {tokens others : List Token} (alike : Alike tokens others) :
    endsInput tokens = endsInput others := by
  induction alike with
  | nil => rfl
  | @visible token other rest others _ kind _ tail ih =>
    cases tail with
    | nil => simp [endsInput, kind]
    | visible => simpa [endsInput, List.getLast?_cons] using ih
    | gap => simpa [endsInput, List.getLast?_cons] using ih
  | gap trivia kind _ ih =>
    rw [endsInput_cons_trivia trivia, endsInput_cons_trivia (isTrivia_of_kind kind ▸ trivia),
      ← endsInput_dropWhile, ih, endsInput_dropWhile]

theorem Cursor.rest_ofTokens (tokens : List Token) :
    (ofTokens tokens).rest = if endsInput tokens then tokens else tokens ++ [closing tokens] := by
  unfold ofTokens endsInput
  split
  · rename_i token found
    rw [found]
    by_cases ends : token.kind = .endOfInput
    · simpa [ends, rest] using List.dropLast_append_getLast? token found
    · simp [ends, rest]
  · rename_i empty
    simp [empty, rest]

/-- Cursors before rows that are alike. -/
theorem Cursor.Alike.ofTokens {tokens others : List Token} (alike : Scss.Alike tokens others) :
    (Cursor.ofTokens tokens).Alike (Cursor.ofTokens others) := by
  rw [Alike, rest_ofTokens, rest_ofTokens, ← alike.endsInput_eq]
  split
  · exact alike
  · exact alike.append rfl rfl rfl

end Scss
