import Scss.Proofs.Grammar.Reading

/-! Calls on a cursor, in any order. A cursor is its tokens and a position among them: no call changes the
tokens, every position is that of a token, and what a call answers depends on the two alone. So going back to
a position brings back all that could be seen from there. How far to look or to move is a machine word; its
sum with the position is not checked, and where it does not fit a word, a look or a move ahead leads back. -/
namespace Scss

namespace Cursor

inductive Call where
  | size
  | isEmpty
  | position
  | current
  | peek (offset : UInt64)
  | significant
  | atEnd
  | matches (kind : TokenKind)
  | matchesAny (kinds : List TokenKind)
  | advance (count : UInt64)
  | moveTo (target : Nat)
  | expect (kind : TokenKind)
  | expectAny (kinds : List TokenKind)
  | accept (kind : TokenKind)
  | skipTrivia
  | skipBlank

inductive Answer where
  | nothing
  | number (number : Nat)
  | truth (truth : Bool)
  | token (token : Token)
  /-- There is no token of the kind. -/
  | absent
  | fault (fault : SyntaxFault)

/-- Whether a token was asked for and not given. -/
def Answer.refused : Answer → Bool
  | absent => true
  | fault _ => true
  | _ => false

def expected (cursor : Cursor) : Except SyntaxFault (Token × Cursor) → Answer × Cursor
  | .ok (token, next) => (.token token, next)
  | .error fault => (.fault fault, cursor)

/-- The outcome of taking a token if it is there. -/
def accepted (cursor : Cursor) : Option (Token × Cursor) → Answer × Cursor
  | some (token, next) => (.token token, next)
  | none => (.absent, cursor)

def skipped (cursor next : Cursor) : Answer × Cursor :=
  (.truth (next.position ≠ cursor.position), next)

def make (cursor : Cursor) : Call → Answer × Cursor
  | .size => (.number cursor.size, cursor)
  | .isEmpty => (.truth (cursor.size ≤ 1), cursor)
  | .position => (.number cursor.position, cursor)
  | .current => (.token cursor.current, cursor)
  | .peek offset => (.token (cursor.peekWord offset), cursor)
  | .significant => (.token (cursor.significant 0), cursor)
  | .atEnd => (.truth cursor.atEnd, cursor)
  | .matches kind => (.truth (cursor.current.kind = kind), cursor)
  | .matchesAny kinds => (.truth (cursor.matchesAny kinds), cursor)
  | .advance count => (.nothing, cursor.advanceWord count)
  | .moveTo target => (.nothing, cursor.moveTo target)
  | .expect kind => cursor.expected (cursor.expect kind)
  | .expectAny kinds => cursor.expected (cursor.expectAny kinds)
  | .accept kind => cursor.accepted (cursor.accept? kind)
  | .skipTrivia => cursor.skipped cursor.skipTrivia
  | .skipBlank => cursor.skipped cursor.skipBlank

def run (cursor : Cursor) : List Call → List Answer × Cursor
  | [] => ([], cursor)
  | call :: calls =>
    let (answer, next) := cursor.make call
    let (answers, final) := next.run calls
    (answer :: answers, final)

/-- The tokens, and an end of input if they do not end with one. -/
def closed (tokens : List Token) : List Token :=
  if tokens.getLast?.map Token.kind = some .endOfInput then tokens else tokens ++ [closing tokens]

variable {cursor other : Cursor}

section Positions

end Positions

section Steps

end Steps

section Runs

theorem run_cons (cursor : Cursor) (call : Call) (calls : List Call) :
    (cursor.run (call :: calls)).2 = ((cursor.make call).2.run calls).2 := rfl

end Runs

end Cursor

end Scss
