import Scss.Grammar.Expression

/-!
Text that the grammar keeps as it is written: selectors, the heads of at-rules, and values that are
no expressions. Embedded expressions are read, and runs of blanks and comments become one space.
-/
namespace Scss.Grammar

open Scss.Parser

/-- Add a space, unless the text has none yet or ends with one. -/
def pushSpace (template : Template) : Template :=
  match template.parts.getLast? with
  | none => template
  | some (.literal text) =>
    if text.toList.getLast? = some ' ' then template else template.pushLiteral " "
  | some (.expr _) => template.pushLiteral " "

/-- Change the first part with `f` if it is text; it goes if nothing is left of it. -/
def trimPart (f : String → String) : List (Fragment Expr) → List (Fragment Expr)
  | .literal text :: rest => if (f text).isEmpty then rest else .literal (f text) :: rest
  | parts => parts

def trimTemplate (template : Template) : Template :=
  let withoutEnd := (trimPart Text.trimEnd template.parts.reverse).reverse
  { template with parts := trimPart Text.trimStart withoutEnd }

/-- What collecting raw text has so far: the text, and the depth of round and square brackets. -/
structure RawState where
  template : Template
  depth : Nat

/-- Collect text up to a token of `stops` outside brackets, or to the end. With `dollars`, bare
variables are expressions too. -/
def raw (self : Self) (stops : List TokenKind) (dollars : Bool) : Parser Template := do
  let line := (← current).line
  let template ← loop (σ := RawState) ⟨⟨[], line⟩, 0⟩ fun ⟨template, depth⟩ => do
    let token ← current
    if token.kind = .endOfInput then return .done template
    if depth = 0 && stops.contains token.kind then return .done template
    match token.kind with
    | .interpolation =>
      let expr ← embedded self
      return .again ⟨template.pushExpr expr, depth⟩
    | .whitespace | .comment =>
      advance 1
      return .again ⟨pushSpace template, depth⟩
    | .string =>
      let mark := String.ofList (token.text.toList.take 1)
      let content ← quoted self token.content (token.position.shift 1)
      advance 1
      let opened := template.pushLiteral mark
      let filled := { opened with parts := opened.parts ++ content.parts }
      return .again ⟨filled.pushLiteral mark, depth⟩
    | kind =>
      advance 1
      if kind = .dollar && dollars then
        return .again ⟨template.pushExpr (.var token.name token.line), depth⟩
      let depth :=
        match kind with
        | .leftParen | .leftBracket => depth + 1
        | .rightParen | .rightBracket => depth - 1
        | _ => depth
      return .again ⟨template.pushLiteral token.text, depth⟩
  return trimTemplate template

/-- How far a token of `stops` outside brackets and embedded expressions is, or the end.
`opened` lists what is open, innermost first. -/
def scanFrom (stops : List TokenKind) : List TokenKind → List Token → Nat
  | _, [] => 0
  | opened, token :: rest =>
    if token.kind = .endOfInput || (opened.isEmpty && stops.contains token.kind) then 0
    else
      let opened :=
        match token.kind with
        | .leftParen | .leftBracket | .interpolation => token.kind :: opened
        | .rightParen | .rightBracket => opened.tail
        | .rightBrace => if opened.head? = some .interpolation then opened.tail else opened
        | _ => opened
      scanFrom stops opened rest + 1

/-- How far the next token of `stops` is. -/
def scanTo (stops : List TokenKind) : Parser Nat := return scanFrom stops [] (← get).ahead

/-- Pass the tokens up to one of `stops`. -/
def takeTo (stops : List TokenKind) : Parser (List Token) := do take (← scanTo stops)

/-- One step of `splitFlags`, over the tokens from the last to the first. -/
def dropFlags : List Token → List String × List Token
  | [] => ([], [])
  | token :: rest =>
    if token.isTrivia then dropFlags rest
    else if token.kind = .flag then
      let (flags, kept) := dropFlags rest
      (Text.lower token.text :: flags, kept)
    else ([], token :: rest)

/-- Take the flags off the end, in lower case, with the blanks around them. -/
def splitFlags (tokens : List Token) : List String × List Token :=
  let (flags, kept) := dropFlags tokens.reverse
  (flags, kept.reverse)

end Scss.Grammar
