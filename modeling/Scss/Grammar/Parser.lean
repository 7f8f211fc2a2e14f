import Scss.Token.Cursor

/-!
Parsers: functions from a cursor to a result and a cursor, or to a fault. A parser that fails
leaves no trace, so looking ahead is keeping a cursor and going back to it.
-/
namespace Scss

abbrev Parser := StateT Cursor (Except Fault)

namespace Parser

variable {α σ : Type}

def fail (fault : SyntaxFault) : Parser α := throw (.grammar fault)

/-- Fail because `expected` does not stand here. -/
def unexpected (expected : String) : Parser α := do
  fail ((← get).unexpected expected)

def current : Parser Token := return (← get).current

def peek (offset : Nat) : Parser Token := return (← get).peek offset

/-- Whether the current token is of the kind `kind`. -/
def at_ (kind : TokenKind) : Parser Bool := return (← current).kind = kind

/-- Whether the current token is the identifier `word`. -/
def atWord (word : String) : Parser Bool := return (← current).isWord word

def atEnd : Parser Bool := return (← get).atEnd

def advance (count : Nat) : Parser Unit := modify (Cursor.advance · count)

def skipTrivia : Parser Unit := modify Cursor.skipTrivia

def skipBlank : Parser Unit := modify Cursor.skipBlank

/-- Pass one token of one of `kinds`. -/
def expectAny (kinds : List TokenKind) : Parser Token := do
  match (← get).expectAny kinds with
  | .ok (token, cursor) =>
    set cursor
    return token
  | .error fault => fail fault

/-- Pass one token of the kind `kind`. -/
def expect (kind : TokenKind) : Parser Token := expectAny [kind]

/-- Pass one token of the kind `kind` if it stands here; the answer says whether it did. -/
def accept (kind : TokenKind) : Parser Bool := do
  match (← get).accept? kind with
  | some (_, cursor) =>
    set cursor
    return true
  | none => return false

/-- Pass the identifier `word` and what separates it from the next token, if it stands here. -/
def acceptWord (word : String) : Parser Bool := do
  if ← atWord word then
    advance 1
    skipTrivia
    return true
  else return false

/-- The first token from `offset` places ahead on that is neither blank nor comment. -/
def significant (offset : Nat) : Parser Token := return (← get).significant offset

/-- The next `count` tokens, which are passed. -/
def take (count : Nat) : Parser (List Token) := do
  let cursor ← get
  set (cursor.advance count)
  return cursor.ahead.take count

/-- What a round of a loop decides. -/
inductive Next (σ α : Type) where
  | again (state : σ)
  | done (result : α)

/-- Go round once for each token of `bound`, and once more. -/
def loopWithin (step : σ → Parser (Next σ α)) : List Token → σ → Parser α
  | [], state => do
    match ← step state with
    | .again _ => throw .exhausted
    | .done result => return result
  | _ :: bound, state => do
    match ← step state with
    | .again state => loopWithin step bound state
    | .done result => return result

/-- Go round until a round is done. Every round that goes on passes a token, so there are no more
rounds than tokens ahead, and one. -/
def loop (init : σ) (step : σ → Parser (Next σ α)) : Parser α := do
  loopWithin step (← get).ahead init

/-- Run a parser over tokens of their own. -/
def onTokens (parser : Parser α) (tokens : List Token) : Except Fault α :=
  parser.run' (Cursor.ofTokens tokens)

/-- Run a parser over tokens of their own, as a step of this one. -/
def within (parser : Parser α) (tokens : List Token) : Parser α :=
  liftM (onTokens parser tokens)

end Parser

end Scss
