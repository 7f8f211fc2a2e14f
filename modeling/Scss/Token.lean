import Scss.Position
import Scss.Text.Ascii
import Scss.Text.Cut

/-!
Tokens. A token keeps its exact text, so selectors and the heads of at-rules can be put together
again as they were written; blanks and comments are tokens too, and the grammar decides where they
matter.
-/
namespace Scss

inductive TokenKind where
  | ident
  /-- A dollar sign and a name. -/
  | dollar
  /-- Digits with an optional fraction, exponent and unit. -/
  | number
  /-- A quoted string with its quotes, possibly with embedded expressions. -/
  | string
  /-- A hash and name characters: a colour or an id selector. -/
  | hash
  | atKeyword
  /-- An exclamation mark and a name. -/
  | flag
  /-- `url(...)` without quotes. -/
  | url
  /-- The opening of an embedded expression. -/
  | interpolation
  | leftBrace
  | rightBrace
  | leftParen
  | rightParen
  | leftBracket
  | rightBracket
  | colon
  | semicolon
  | comma
  | dot
  | plus
  | minus
  | star
  | slash
  | percent
  | ampersand
  | tilde
  | pipe
  | caret
  | greater
  | less
  | greaterEqual
  | lessEqual
  | equalEqual
  | notEqual
  | assign
  | whitespace
  | comment
  /-- Any other single character. -/
  | delimiter
  | endOfInput
deriving DecidableEq

namespace TokenKind

def describe : TokenKind → String
  | ident => "identifier"
  | dollar => "variable"
  | number => "number"
  | string => "string"
  | hash => "hash"
  | atKeyword => "at-keyword"
  | flag => "flag"
  | url => "url"
  | interpolation => "`#\x7b`"
  | leftBrace => "`\x7b`"
  | rightBrace => "`\x7d`"
  | leftParen => "`(`"
  | rightParen => "`)`"
  | leftBracket => "`[`"
  | rightBracket => "`]`"
  | colon => "`:`"
  | semicolon => "`;`"
  | comma => "`,`"
  | dot => "`.`"
  | plus => "`+`"
  | minus => "`-`"
  | star => "`*`"
  | slash => "`/`"
  | percent => "`%`"
  | ampersand => "`&`"
  | tilde => "`~`"
  | pipe => "`|`"
  | caret => "`^`"
  | greater => "`>`"
  | less => "`<`"
  | greaterEqual => "`>=`"
  | lessEqual => "`<=`"
  | equalEqual => "`==`"
  | notEqual => "`!=`"
  | assign => "`=`"
  | whitespace => "whitespace"
  | comment => "comment"
  | delimiter => "delimiter"
  | endOfInput => "end of input"

def isTrivia : TokenKind → Bool
  | whitespace => true
  | comment => true
  | _ => false

end TokenKind

structure Token where
  kind : TokenKind
  text : String
  position : Position
deriving DecidableEq

namespace Token

def line (token : Token) : Nat := token.position.line

def isTrivia (token : Token) : Bool := token.kind.isTrivia

/-- The identifier `word`, in any case. -/
def isWord (token : Token) (word : String) : Bool :=
  token.kind = .ident && Text.same token.text word

def isSilent (token : Token) : Bool := token.kind = .comment && Text.startsWith "//" token.text

/-- The name behind the mark of a variable or an at-keyword. -/
def name (token : Token) : String := Text.dropFirst 1 token.text

def content (token : Token) : String := Text.interior token.text

/-- The text of a url from its fifth byte up to its last. There is none if the last character has
several bytes. -/
def urlContent? (token : Token) : Option String :=
  let text := token.text.toList
  (Chars.bytes? 4 (Chars.size text - 1) text).map String.ofList

theorem infix_of_urlContent? {token : Token} {content : String}
    (found : token.urlContent? = some content) : content.toList <:+: token.text.toList := by
  obtain ⟨slice, cut, rfl⟩ := Option.map_eq_some_iff.mp found
  rw [String.toList_ofList]
  exact Chars.infix_of_bytes? cut

/-- How a message shows a token that it did not expect. -/
def shown (token : Token) : String := s!"{token.kind.describe} `{token.text}`"

end Token

end Scss
