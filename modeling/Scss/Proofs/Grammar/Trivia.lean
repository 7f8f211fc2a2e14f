import Scss.Proofs.Grammar.Twins

/-! Which blanks and comments stand between two tokens is nothing to an expression: only that some do,
and that a blank comes first. -/
namespace Scss

/-- The tokens without their places, and one mark for each run of blanks and comments. `inside` says
whether such a run has begun. -/
def marked : Bool → List Token → List (Option (TokenKind × String))
  | _, [] => []
  | inside, token :: rest =>
    if token.isTrivia then if inside then marked true rest else none :: marked true rest
    else some (token.kind, token.text) :: marked false rest

def blankFirst : Bool → List Token → Bool
  | _, [] => true
  | inside, token :: rest =>
    if token.isTrivia then (inside || token.kind = .whitespace) && blankFirst true rest
    else blankFirst false rest

theorem marked_inside (tokens : List Token) :
    marked true tokens = marked false (tokens.dropWhile Token.isTrivia) := by
  induction tokens with
  | nil => rfl
  | cons token rest ih =>
    cases trivia : token.isTrivia with
    | true => rw [List.dropWhile_cons_of_pos trivia, ← ih, marked, if_pos trivia, if_pos rfl]
    | false =>
      rw [List.dropWhile_cons_of_neg (by simp [trivia]), marked, marked, if_neg (by simp [trivia]),
        if_neg (by simp [trivia])]

theorem blankFirst_inside (tokens : List Token) :
    blankFirst true tokens = blankFirst false (tokens.dropWhile Token.isTrivia) := by
  induction tokens with
  | nil => rfl
  | cons token rest ih =>
    cases trivia : token.isTrivia with
    | true =>
      rw [List.dropWhile_cons_of_pos trivia, ← ih, blankFirst, if_pos trivia, Bool.true_or,
        Bool.true_and]
    | false =>
      rw [List.dropWhile_cons_of_neg (by simp [trivia]), blankFirst, blankFirst,
        if_neg (by simp [trivia]), if_neg (by simp [trivia])]

/-- Rows with the same tokens and marks are alike if their runs of trivia begin with blanks. -/
theorem Alike.of_marked {tokens others : List Token} (same : marked false tokens = marked false others)
    (blanks : blankFirst false tokens = true) (blank : blankFirst false others = true) :
    Alike tokens others := by
  match tokens, others with
  | [], [] => exact .nil
  | [], other :: beyond =>
    rw [marked, marked] at same
    split at same <;> cases same
  | token :: rest, [] =>
    rw [marked, marked] at same
    split at same <;> cases same
  | token :: rest, other :: beyond =>
    rw [marked, marked] at same
    rw [blankFirst] at blanks blank
    by_cases trivia : token.isTrivia = true <;> by_cases hidden : other.isTrivia = true
    · rw [if_pos trivia, if_pos hidden] at same
      rw [if_pos trivia, Bool.and_eq_true, blankFirst_inside] at blanks
      rw [if_pos hidden, Bool.and_eq_true, blankFirst_inside] at blank
      have tails := List.tail_eq_of_cons_eq same
      rw [marked_inside, marked_inside] at tails
      have kinds : token.kind = .whitespace ∧ other.kind = .whitespace := by
        simpa using And.intro blanks.1 blank.1
      exact .gap trivia (kinds.1.trans kinds.2.symm) (of_marked tails blanks.2 blank.2)
    · rw [if_pos trivia, if_neg hidden] at same
      cases same
    · rw [if_neg trivia, if_pos hidden] at same
      cases same
    · rw [if_neg trivia, if_neg hidden] at same
      rw [if_neg trivia] at blanks
      rw [if_neg hidden] at blank
      obtain ⟨first, tails⟩ := List.cons_eq_cons.mp same
      obtain ⟨kind, text⟩ := Prod.mk.inj (Option.some.inj first)
      exact .visible (by simpa using trivia) kind text (of_marked tails blanks blank)
termination_by tokens.length
decreasing_by
  · exact Nat.lt_succ_of_le (List.dropWhile_suffix _).length_le
  · exact Nat.lt_succ_self _

namespace Grammar

/-- Two rows of tokens that are the same but for places, and for which blanks and comments make up each
run of them, read as the same complete expression apart from places, or neither of them as any. Each
run has to begin with a blank. -/
theorem complete_anyTrivia (depth : Nat) {tokens others : List Token}
    (same : marked false tokens = marked false others) (blanks : blankFirst false tokens = true)
    (blank : blankFirst false others = true) :
    (Parser.onTokens (complete (commaList (Form.parser depth) [])) tokens).toOption.map
        Expr.unplaced =
      (Parser.onTokens (complete (commaList (Form.parser depth) [])) others).toOption.map
        Expr.unplaced := by
  have read := coincide_complete (twins_commaList (twins_expressions depth) [])
    (Alike.of_marked same blanks blank)
  generalize Parser.onTokens (complete (commaList (Form.parser depth) [])) tokens = result at read
  generalize Parser.onTokens (complete (commaList (Form.parser depth) [])) others = twin at read
  cases read with
  | ok values => exact congrArg some values
  | error => rfl

/-- A variable less another. Where a line feed and comments come in, the difference stays one. -/
theorem complete_anyTrivia_difference :
    (Parser.onTokens (complete (commaList (Form.parser 3) []))
        [⟨.dollar, "$a", ⟨1, 1⟩⟩, ⟨.whitespace, "\n", ⟨1, 3⟩⟩, ⟨.comment, "/* less */", ⟨2, 1⟩⟩,
          ⟨.minus, "-", ⟨2, 11⟩⟩, ⟨.whitespace, " ", ⟨2, 12⟩⟩, ⟨.comment, "/* b */", ⟨2, 13⟩⟩,
          ⟨.dollar, "$b", ⟨2, 20⟩⟩]).toOption.map Expr.unplaced =
      some (.binary .sub (.var "a" 0) (.var "b" 0) 0) := by
  have same : marked false [⟨.dollar, "$a", ⟨1, 1⟩⟩, ⟨.whitespace, " ", ⟨1, 3⟩⟩,
        ⟨.minus, "-", ⟨1, 4⟩⟩, ⟨.whitespace, " ", ⟨1, 5⟩⟩, ⟨.dollar, "$b", ⟨1, 6⟩⟩] =
      marked false [⟨.dollar, "$a", ⟨1, 1⟩⟩, ⟨.whitespace, "\n", ⟨1, 3⟩⟩,
        ⟨.comment, "/* less */", ⟨2, 1⟩⟩, ⟨.minus, "-", ⟨2, 11⟩⟩, ⟨.whitespace, " ", ⟨2, 12⟩⟩,
        ⟨.comment, "/* b */", ⟨2, 13⟩⟩, ⟨.dollar, "$b", ⟨2, 20⟩⟩] := by
    decide
  exact (complete_anyTrivia 3 same (by decide) (by decide)).symm.trans rfl

end Grammar

end Scss
