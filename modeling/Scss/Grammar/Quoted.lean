import Scss.Grammar.Parser
import Scss.Token.Lexer
import Scss.Tree.Expr

/-!
The inside of quoted strings and of urls: text with embedded expressions. An expression ends at the
brace that closes it; braces and quotes inside it are stepped over.
-/
namespace Scss.Quoted

/-- The length of an embedded expression's text, up to the brace that closes it. `depth` counts the
open braces, and `quote` is the quote that is open. Inside quotes a backslash takes the next
character along. -/
def bodyLength : Nat → Option Char → List Char → Option Nat
  | _, _, [] => none
  | depth, some mark, c :: rest =>
    if c = mark then (bodyLength depth none rest).map (· + 1)
    else if c = '\\' then
      match rest with
      | [] => none
      | _ :: more => (bodyLength depth (some mark) more).map (· + 2)
    else (bodyLength depth (some mark) rest).map (· + 1)
  | depth, none, c :: rest =>
    if c = '"' ∨ c = '\'' then (bodyLength depth (some c) rest).map (· + 1)
    else if c = '\x7b' then (bodyLength (depth + 1) none rest).map (· + 1)
    else if c = '\x7d' then
      if depth ≤ 1 then some 0 else (bodyLength (depth - 1) none rest).map (· + 1)
    else (bodyLength depth none rest).map (· + 1)

/-- A piece of a string's text, before its expressions are read. -/
inductive Piece where
  | literal (text : List Char)
  /-- The text of an expression, and how many columns it starts to the right of the string's. -/
  | body (text : List Char) (offset : Nat)
deriving DecidableEq

/-- Put a character in front of the pieces; it joins a text that stands there. -/
def pushChar (c : Char) : List Piece → List Piece
  | .literal text :: rest => .literal (c :: text) :: rest
  | pieces => .literal [c] :: pieces

/-- Cut the inside of a string into pieces. `skip` characters belong to an expression cut already,
and `offset` counts the characters before. The answer is `error` with the offset of an expression
that is not closed, together with the pieces before it. A backslash takes the next character
along, also if that is a hash. -/
def piecesFrom (offset : Nat) : Nat → List Char → List Piece × Option Nat
  | _, [] => ([], none)
  | skip + 1, _ :: rest => piecesFrom (offset + 1) skip rest
  | 0, c :: rest =>
    match c, rest with
    | '\\', d :: more =>
      let (pieces, unclosed) := piecesFrom (offset + 2) 0 more
      (pushChar '\\' (pushChar d pieces), unclosed)
    | '#', '\x7b' :: more =>
      match bodyLength 1 none more with
      | none => ([], some offset)
      | some length =>
        let (pieces, unclosed) := piecesFrom (offset + 1) (length + 2) ('\x7b' :: more)
        (.body (more.take length) (offset + 2) :: pieces, unclosed)
    | c, rest =>
      let (pieces, unclosed) := piecesFrom (offset + 1) 0 rest
      (pushChar c pieces, unclosed)

/-- The pieces of a string's inside, and the offset of an expression that is not closed. -/
def pieces (content : List Char) : List Piece × Option Nat := piecesFrom 0 0 content

/-- Read one piece. `read` reads an expression off its tokens. -/
def readPiece (read : List Token → Except Fault Expr) (position : Position) :
    Piece → Except Fault (Fragment Expr)
  | .literal text => .ok (.literal (String.ofList text))
  | .body text offset => do
    match Lexer.tokensAt (position.shift offset) text with
    | .error fault => .error (.lexical fault)
    | .ok tokens => .ok (.expr (← read tokens))

/-- The inside of a string that starts at `position`. Faults come in the order of the text. -/
def template (read : List Token → Except Fault Expr) (content : String) (position : Position) :
    Except Fault Template := do
  let (pieces, unclosed) := pieces content.toList
  let parts ← pieces.mapM (readPiece read position)
  match unclosed with
  | some offset =>
    .error (.grammar (.invalid "Unterminated interpolation" (position.shift offset)))
  | none => .ok ⟨parts, position.line⟩

end Scss.Quoted
