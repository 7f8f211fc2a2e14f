import Scss.Fault
import Scss.Token

/-!
A cursor over tokens: those it has passed, those ahead of it, and the token that ends the input.
Looking past the end shows the end again, and moving past it stops there, so a cursor is never out
of range. The grammar looks and moves a few tokens ahead; a caller says how far by a machine word,
which is added to the position, and a sum that does not fit a word starts over.
-/
namespace Scss

structure Cursor where
  /-- The tokens behind the cursor, nearest first. -/
  passed : List Token
  /-- The tokens from the cursor up to the end of input. -/
  ahead : List Token
  /-- The end of input. -/
  last : Token
  last_kind : last.kind = .endOfInput

namespace Cursor

/-- The end of input behind the last of `tokens`, or at the start of a text without tokens. -/
def closing (tokens : List Token) : Token :=
  ⟨.endOfInput, "", (tokens.getLast?.map Token.position).getD Position.start⟩

/-- A cursor before the first of `tokens`. An end of input is added if the tokens have none. -/
def ofTokens (tokens : List Token) : Cursor :=
  match tokens.getLast? with
  | some token =>
    if ends : token.kind = .endOfInput then ⟨[], tokens.dropLast, token, ends⟩
    else ⟨[], tokens, closing tokens, rfl⟩
  | none => ⟨[], tokens, closing tokens, rfl⟩

def tokens (cursor : Cursor) : List Token := cursor.passed.reverse ++ cursor.ahead ++ [cursor.last]

def size (cursor : Cursor) : Nat := cursor.passed.length + cursor.ahead.length + 1

def position (cursor : Cursor) : Nat := cursor.passed.length

/-- The token `offset` places ahead, or the end of input. -/
def peek (cursor : Cursor) (offset : Nat) : Token := (cursor.ahead[offset]?).getD cursor.last

def current (cursor : Cursor) : Token := cursor.ahead.head?.getD cursor.last

def atEnd (cursor : Cursor) : Bool := cursor.current.kind = .endOfInput

/-- Pass `count` tokens, but not the end of input. -/
def advance (cursor : Cursor) : Nat → Cursor
  | 0 => cursor
  | count + 1 =>
    match cursor with
    | ⟨passed, token :: ahead, last, ends⟩ => advance ⟨token :: passed, ahead, last, ends⟩ count
    | atLast => atLast

/-- Go back over `count` tokens, but not before the first. -/
def retreat (cursor : Cursor) : Nat → Cursor
  | 0 => cursor
  | count + 1 =>
    match cursor with
    | ⟨token :: passed, ahead, last, ends⟩ => retreat ⟨passed, token :: ahead, last, ends⟩ count
    | atFirst => atFirst

/-- Go to the token of index `target`, or to the end of input if there is none. -/
def moveTo (cursor : Cursor) (target : Nat) : Cursor :=
  if target ≤ cursor.position then cursor.retreat (cursor.position - target)
  else cursor.advance (target - cursor.position)

/-- The place `count` tokens on, as a sum of machine words. -/
def place (cursor : Cursor) (count : UInt64) : Nat := (UInt64.ofNat cursor.position + count).toNat

/-- The token at the place `offset` tokens on. -/
def peekWord (cursor : Cursor) (offset : UInt64) : Token := (cursor.moveTo (cursor.place offset)).current

/-- Go to the place `count` tokens on. -/
def advanceWord (cursor : Cursor) (count : UInt64) : Cursor := cursor.moveTo (cursor.place count)

/-- Pass the tokens that satisfy `p`, up to the first that does not. -/
def skipWhile (p : Token → Bool) (cursor : Cursor) : Cursor :=
  cursor.advance (cursor.ahead.takeWhile p).length

def skipTrivia (cursor : Cursor) : Cursor := cursor.skipWhile Token.isTrivia

/-- Pass blanks only. -/
def skipBlank (cursor : Cursor) : Cursor := cursor.skipWhile (fun token => token.kind = .whitespace)

/-- The first token, from `offset` places ahead on, that is neither blank nor comment. -/
def significant (cursor : Cursor) (offset : Nat) : Token :=
  ((cursor.ahead.drop offset).find? (fun token => !token.isTrivia)).getD cursor.last

def matchesAny (cursor : Cursor) (kinds : List TokenKind) : Bool :=
  kinds.contains cursor.current.kind

/-- The fault of finding the current token where something else is expected. -/
def unexpected (cursor : Cursor) (expected : String) : SyntaxFault :=
  if cursor.current.kind = .endOfInput then .unexpectedEnd expected cursor.current.position
  else .unexpected expected cursor.current.shown cursor.current.position

/-- Pass the current token, which has to be of one of `kinds`. -/
def expectAny (cursor : Cursor) (kinds : List TokenKind) : Except SyntaxFault (Token × Cursor) :=
  if cursor.matchesAny kinds then .ok (cursor.current, cursor.advance 1)
  else .error (cursor.unexpected (" or ".intercalate (kinds.map TokenKind.describe)))

/-- Pass the current token, which has to be of the kind `kind`. -/
def expect (cursor : Cursor) (kind : TokenKind) : Except SyntaxFault (Token × Cursor) :=
  cursor.expectAny [kind]

/-- Pass the current token if it is of the kind `kind`. -/
def accept? (cursor : Cursor) (kind : TokenKind) : Option (Token × Cursor) :=
  if cursor.current.kind = kind then some (cursor.current, cursor.advance 1) else none

@[simp]
theorem tokens_advance (cursor : Cursor) (count : Nat) :
    (cursor.advance count).tokens = cursor.tokens := by
  induction count generalizing cursor with
  | zero => rfl
  | succ count ih =>
    obtain ⟨passed, ahead, last, ends⟩ := cursor
    cases ahead with
    | nil => rfl
    | cons token ahead => rw [advance, ih]; simp [tokens]

@[simp]
theorem tokens_retreat (cursor : Cursor) (count : Nat) :
    (cursor.retreat count).tokens = cursor.tokens := by
  induction count generalizing cursor with
  | zero => rfl
  | succ count ih =>
    obtain ⟨passed, ahead, last, ends⟩ := cursor
    cases passed with
    | nil => rfl
    | cons token passed => rw [retreat, ih]; simp [tokens]

theorem ahead_advance (cursor : Cursor) (count : Nat) :
    (cursor.advance count).ahead = cursor.ahead.drop count := by
  induction count generalizing cursor with
  | zero => rfl
  | succ count ih =>
    obtain ⟨passed, ahead, last, ends⟩ := cursor
    cases ahead with
    | nil => rfl
    | cons token ahead => simp [advance, ih]

@[simp]
theorem last_advance (cursor : Cursor) (count : Nat) :
    (cursor.advance count).last = cursor.last := by
  induction count generalizing cursor with
  | zero => rfl
  | succ count ih =>
    obtain ⟨passed, ahead, last, ends⟩ := cursor
    cases ahead with
    | nil => rfl
    | cons token ahead => simp [advance, ih]

end Cursor

end Scss
