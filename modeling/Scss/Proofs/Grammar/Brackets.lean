import Scss.Proofs.Grammar.Reading

/-! Brackets in a row of tokens. Read from the left, each opening adds the closer that is awaited next,
and each closer has to be that one. A row behind which nothing is awaited, as before it, is well
nested. -/
namespace Scss

def TokenKind.closer? : TokenKind → Option TokenKind
  | .leftParen => some .rightParen
  | .leftBracket => some .rightBracket
  | .interpolation => some .rightBrace
  | _ => none

/-- A kind that neither opens nor closes anything, and ends no statement. -/
def TokenKind.isPlain : TokenKind → Bool
  | .leftParen | .leftBracket | .interpolation => false
  | .rightParen | .rightBracket | .rightBrace => false
  | .leftBrace | .semicolon | .endOfInput => false
  | _ => true

theorem TokenKind.isPlain_of_isTrivia {kind : TokenKind} (trivia : kind.isTrivia = true) :
    kind.isPlain = true := by
  cases kind <;> first | rfl | cases trivia

/-- Rows of tokens in which parentheses, square brackets and the marks of embedded expressions are
pairs, one inside or behind the other. There is no other brace, no semicolon and no end of input. -/
inductive WellNested : List Token → Prop where
  | nil : WellNested []
  | plain {token : Token} {rest : List Token} (plain : token.kind.isPlain = true)
      (tail : WellNested rest) : WellNested (token :: rest)
  | pair {opening closing : Token} {inner rest : List Token}
      (closes : opening.kind.closer? = some closing.kind) (inside : WellNested inner)
      (tail : WellNested rest) : WellNested (opening :: inner ++ closing :: rest)

/-- With some closers awaited before a token, innermost first, others are awaited behind it. -/
inductive TokenKind.Turns : List TokenKind → TokenKind → List TokenKind → Prop where
  | plain {awaited : List TokenKind} {kind : TokenKind} (plain : kind.isPlain = true) :
      Turns awaited kind awaited
  | opening {awaited : List TokenKind} {kind closer : TokenKind}
      (closes : kind.closer? = some closer) : Turns awaited kind (closer :: awaited)
  | closing {outer : List TokenKind} {kind : TokenKind} (proper : kind ≠ .endOfInput) :
      Turns (kind :: outer) kind outer

namespace TokenKind.Turns

variable {awaited now : List TokenKind} {kind : TokenKind}

theorem ne_endOfInput (turns : Turns awaited kind now) : kind ≠ .endOfInput := by
  rintro rfl
  cases turns with
  | plain plain => cases plain
  | opening closes => cases closes
  | closing proper => exact proper rfl

theorem inside (turns : Turns awaited kind now) (outer : List TokenKind) :
    Turns (awaited ++ outer) kind (now ++ outer) := by
  cases turns with
  | plain plain => exact .plain plain
  | opening closes => exact .opening closes
  | closing proper => exact .closing proper

end TokenKind.Turns

inductive Awaits : List TokenKind → List Token → List TokenKind → Prop where
  | nil (awaited : List TokenKind) : Awaits awaited [] awaited
  | cons {awaited middle now : List TokenKind} {token : Token} {rest : List Token}
      (first : TokenKind.Turns awaited token.kind middle) (tail : Awaits middle rest now) :
      Awaits awaited (token :: rest) now

namespace Awaits

variable {awaited middle now : List TokenKind} {first second tokens : List Token}

theorem append (one : Awaits awaited first middle) (other : Awaits middle second now) :
    Awaits awaited (first ++ second) now := by
  induction one with
  | nil awaited => exact other
  | cons first _ ih => exact .cons first (ih other)

/-- What a row opens and closes does not depend on what is awaited around it. -/
theorem inside (awaits : Awaits awaited tokens now) (outer : List TokenKind) :
    Awaits (awaited ++ outer) tokens (now ++ outer) := by
  induction awaits with
  | nil awaited => exact .nil _
  | cons first _ ih => exact .cons (first.inside outer) ih

theorem of_plain (plain : ∀ token ∈ tokens, token.kind.isPlain = true) (awaited : List TokenKind) :
    Awaits awaited tokens awaited := by
  induction tokens with
  | nil => exact .nil _
  | cons token rest ih =>
    obtain ⟨first, others⟩ := List.forall_mem_cons.mp plain
    exact .cons (.plain first) (ih others)

end Awaits

/-- Rows in which the awaited closers come one behind the other, with well-nested rows between. -/
inductive Closes : List TokenKind → List Token → Prop where
  | done {tokens : List Token} (nested : WellNested tokens) : Closes [] tokens
  | next {closing : Token} {outer : List TokenKind} {inner rest : List Token}
      (nested : WellNested inner) (tail : Closes outer rest) :
      Closes (closing.kind :: outer) (inner ++ closing :: rest)

/-- What may stand before a well-nested row may stand before these. -/
theorem Closes.prepend {awaited : List TokenKind} {front tokens : List Token}
    (nests : ∀ row, WellNested row → WellNested (front ++ row)) (closes : Closes awaited tokens) :
    Closes awaited (front ++ tokens) := by
  cases closes with
  | done nested => exact .done (nests _ nested)
  | next nested tail =>
    rw [← List.append_assoc]
    exact .next (nests _ nested) tail

theorem Awaits.closes {awaited now : List TokenKind} {tokens : List Token}
    (awaits : Awaits awaited tokens now) (ends : now = []) : Closes awaited tokens := by
  induction awaits with
  | nil awaited => exact ends ▸ .done .nil
  | @cons awaited middle now token rest first _ ih =>
    have tail := ih ends
    cases first with
    | plain plain =>
      change Closes awaited ([token] ++ rest)
      exact tail.prepend fun row nested => .plain plain nested
    | opening closes =>
      obtain ⟨⟩ | @⟨closing, outer, inner, rest, nested, behind⟩ := tail
      have shape : token :: (inner ++ closing :: rest) = (token :: inner ++ [closing]) ++ rest := by
        simp
      rw [shape]
      refine behind.prepend fun row after => ?_
      rw [List.append_assoc]
      exact .pair closes nested after
    | closing proper => exact .next .nil tail

theorem Awaits.wellNested {tokens : List Token} (awaits : Awaits [] tokens []) : WellNested tokens := by
  obtain ⟨nested⟩ := awaits.closes rfl
  exact nested

end Scss
