import Scss.Fault
import Scss.Text.Blank
import Scss.Token

/-!
Reading tokens off a text. Every rule answers how many characters a token takes beyond its first,
so a token and the rest of the text are a `take` and a `drop` of one list: tokens tile the text,
and reading ends because every token has a first character.
-/
namespace Scss.Lexer

open Scss (Position TokenKind Token LexicalFault)

def isNameStart (c : Char) : Bool := c.isAlpha || c = '_' || 128 ≤ c.toNat

def isNameChar (c : Char) : Bool := c.isAlphanum || c = '_' || c = '-' || 128 ≤ c.toNat

/-- Whether the first character is there and satisfies `p`. -/
def headIs (p : Char → Bool) : List Char → Bool
  | [] => false
  | c :: _ => p c

/-- The length of the longest start of the text that satisfies `p` throughout. -/
def run (p : Char → Bool) (text : List Char) : Nat := (text.takeWhile p).length

/-- The length of a name. A backslash takes the next character along, and a hyphen belongs to the
name only if more of the name, or an embedded expression, follows it. -/
def nameLength : List Char → Nat
  | [] => 0
  | '\\' :: [] => 1
  | '\\' :: _ :: rest => nameLength rest + 2
  | '-' :: rest =>
    match rest with
    | '#' :: '\x7b' :: _ => nameLength rest + 1
    | c :: _ => if isNameChar c || c = '\\' then nameLength rest + 1 else 0
    | [] => 0
  | c :: rest => if isNameChar c then nameLength rest + 1 else 0

/-- The length of a comment's rest up to and with its closing mark, if it is closed. -/
def commentLength : List Char → Option Nat
  | [] => none
  | '*' :: '/' :: _ => some 2
  | _ :: rest => (commentLength rest).map (· + 1)

/-- The length of the parenthesized body of a url, to its closing parenthesis or, if it is not
closed, to the end. `depth` counts the parentheses that are open. -/
def urlLength : Nat → List Char → Nat
  | _, [] => 0
  | depth, '(' :: rest => urlLength (depth + 1) rest + 1
  | depth, ')' :: rest => if depth ≤ 1 then 1 else urlLength (depth - 1) rest + 1
  | depth, _ :: rest => urlLength depth rest + 1

/-- Where a quoted string stands while it is read: inside the quotes, or inside an embedded
expression with so many braces open. -/
inductive Region where
  | quoted (mark : Char)
  | embedded (depth : Nat)
deriving DecidableEq

/-- A region and the place of the string that it belongs to. -/
structure OpenRegion where
  region : Region
  opened : Position
deriving DecidableEq

/-- The length of a quoted string's rest up to and with its closing quote. The regions that are open
are listed innermost first, and `position` is the place of the text's first character. A string may
not hold a line feed, unless a backslash or an embedded expression holds it. -/
def quotedLength : List OpenRegion → Position → List Char → Except LexicalFault Nat
  | [], _, _ => .ok 0
  | current :: _, _, [] => .error (.unterminatedString current.opened)
  | current :: outer, position, c :: rest =>
    match current.region with
    | .quoted mark =>
      if c = '\n' then .error (.unterminatedString current.opened)
      else if c = '\\' then
        match rest with
        | [] => .error (.unterminatedString current.opened)
        | d :: more =>
          (quotedLength (current :: outer) ((position.next c).next d) more).map (· + 2)
      else if c = mark then (quotedLength outer (position.next c) rest).map (· + 1)
      else
        match rest with
        | '\x7b' :: more =>
          if c = '#' then
            (quotedLength (⟨.embedded 1, current.opened⟩ :: current :: outer)
              ((position.next c).next '\x7b') more).map (· + 2)
          else
            (quotedLength (current :: outer) (position.next c) ('\x7b' :: more)).map (· + 1)
        | rest => (quotedLength (current :: outer) (position.next c) rest).map (· + 1)
    | .embedded depth =>
      if c = '"' ∨ c = '\'' then
        (quotedLength (⟨.quoted c, position⟩ :: current :: outer) (position.next c) rest).map (· + 1)
      else if c = '\x7b' then
        (quotedLength (⟨.embedded (depth + 1), current.opened⟩ :: outer) (position.next c) rest).map
          (· + 1)
      else if c = '\x7d' then
        if depth ≤ 1 then (quotedLength outer (position.next c) rest).map (· + 1)
        else
          (quotedLength (⟨.embedded (depth - 1), current.opened⟩ :: outer) (position.next c)
            rest).map (· + 1)
      else (quotedLength (current :: outer) (position.next c) rest).map (· + 1)

def fractionLength : List Char → Nat
  | '.' :: rest => if headIs Char.isDigit rest then run Char.isDigit rest + 1 else 0
  | _ => 0

/-- The length of an exponent: the letter e, a sign or none, and digits. A letter e that no digits
follow starts a unit instead, but with a sign it is a mistake, and the answer is `none`. -/
def exponentLength : List Char → Option Nat
  | c :: rest =>
    if c = 'e' ∨ c = 'E' then
      if headIs (fun d => d = '+' || d = '-') rest then
        if headIs Char.isDigit rest.tail then some (run Char.isDigit rest.tail + 2) else none
      else if headIs Char.isDigit rest then some (run Char.isDigit rest + 1)
      else some 0
    else some 0
  | [] => some 0

def unitLength : List Char → Nat
  | '%' :: _ => 1
  | text => run Char.isAlpha text

/-- The length of a number without its unit, or the malformed literal that stands there. -/
def numericLength (text : List Char) : Except (List Char) Nat :=
  let whole := run Char.isDigit text
  let afterWhole := text.drop whole
  if ['.', '.'].isPrefixOf afterWhole then
    .error (text.take
      (whole + run (fun c => c = '.' || c.isAlphanum || c = '%') afterWhole))
  else
    let mantissa := whole + fractionLength afterWhole
    match exponentLength (text.drop mantissa) with
    | none => .error (text.take (mantissa + 2))
    | some exponent =>
      let length := mantissa + exponent
      match fractionLength (text.drop length) with
      | 0 => .ok length
      | extra => .error (text.take (length + extra))

def numberLength (position : Position) (text : List Char) : Except LexicalFault Nat :=
  match numericLength text with
  | .error literal => .error (.malformedNumber (String.ofList literal) position)
  | .ok length => .ok (length + unitLength (text.drop length))

/-- Whether the text behind `url` opens an unquoted body. -/
def opensUrl : List Char → Bool
  | '(' :: rest =>
    match rest.dropWhile Chars.isBlank with
    | [] => false
    | c :: _ => c ≠ '"' && c ≠ '\''
  | _ => false

/-- A name, or an unquoted url if the name is `url` and such a body follows. -/
def wordToken (text : List Char) : TokenKind × Nat :=
  let length := nameLength text
  let rest := text.drop length
  if Chars.lower (text.take length) = ['u', 'r', 'l'] && opensUrl rest then
    (.url, length + urlLength 0 rest)
  else (.ident, length)

/-- A character that makes a token of its own, or with an equals sign behind it. -/
def punctuation (c : Char) (rest : List Char) : TokenKind × Nat :=
  let equals := headIs (· = '=') rest
  match c with
  | '\x7b' => (.leftBrace, 0)
  | '\x7d' => (.rightBrace, 0)
  | '(' => (.leftParen, 0)
  | ')' => (.rightParen, 0)
  | '[' => (.leftBracket, 0)
  | ']' => (.rightBracket, 0)
  | ':' => (.colon, 0)
  | ';' => (.semicolon, 0)
  | ',' => (.comma, 0)
  | '.' => (.dot, 0)
  | '+' => (.plus, 0)
  | '-' => (.minus, 0)
  | '*' => (.star, 0)
  | '/' => (.slash, 0)
  | '%' => (.percent, 0)
  | '&' => (.ampersand, 0)
  | '~' => (.tilde, 0)
  | '|' => (.pipe, 0)
  | '^' => (.caret, 0)
  | '>' => if equals then (.greaterEqual, 1) else (.greater, 0)
  | '<' => if equals then (.lessEqual, 1) else (.less, 0)
  | '=' => if equals then (.equalEqual, 1) else (.assign, 0)
  | _ => (.delimiter, 0)

/-- The kind of the token that starts with `c`, and how many of the characters behind `c` it
takes. -/
def measure (position : Position) (c : Char) (rest : List Char) :
    Except LexicalFault (TokenKind × Nat) :=
  if Chars.isBlank c then .ok (.whitespace, run Chars.isBlank rest)
  else if c = '/' && headIs (· = '*') rest then
    match commentLength rest.tail with
    | none => .error (.unterminatedComment position)
    | some length => .ok (.comment, length + 1)
  else if c = '/' && headIs (· = '/') rest then .ok (.comment, run (· ≠ '\n') rest)
  else if c = '"' ∨ c = '\'' then do
    let length ← quotedLength [⟨.quoted c, position⟩] (position.next c) rest
    .ok (.string, length)
  else if c = '#' && headIs (· = '\x7b') rest then .ok (.interpolation, 1)
  else if c = '#' && headIs isNameChar rest then .ok (.hash, run isNameChar rest)
  else if c = '$' && headIs (fun d => isNameStart d || d = '-') rest then
    .ok (.dollar, nameLength rest)
  else if c = '@' && headIs (fun d => isNameStart d || d = '-') rest then
    .ok (.atKeyword, nameLength rest)
  else if c = '!' && headIs (· = '=') rest then .ok (.notEqual, 1)
  else if c = '!' && headIs isNameStart rest then .ok (.flag, nameLength rest)
  else if c.isDigit || (c = '.' && headIs Char.isDigit rest) then do
    let length ← numberLength position (c :: rest)
    .ok (.number, length - 1)
  else if (c = '-' && headIs (fun d => d = '-' || d = '\\' || isNameStart d) rest) || c = '\\' then
    .ok (.ident, nameLength (c :: rest) - 1)
  else if isNameStart c then
    let (kind, length) := wordToken (c :: rest)
    .ok (kind, length - 1)
  else .ok (punctuation c rest)

/-- The tokens of a text that starts at `position`, with the end of input last. -/
def tokensAt (position : Position) : List Char → Except LexicalFault (List Token)
  | [] => .ok [⟨.endOfInput, "", position⟩]
  | c :: rest => do
    let (kind, length) ← measure position c rest
    let text := c :: rest.take length
    let tokens ← tokensAt (position.after text) (rest.drop length)
    .ok (⟨kind, String.ofList text, position⟩ :: tokens)
termination_by text => text.length
decreasing_by simp only [List.length_drop, List.length_cons]; omega

def tokens (source : String) : Except LexicalFault (List Token) :=
  tokensAt Position.start source.toList

end Scss.Lexer
