import Scss.Color.Named
import Scss.Decimal.Text
import Scss.Grammar.Quoted

/-!
The grammar of expressions. From the loosest to the tightest: lists by commas, lists by blanks,
`or`, `and`, comparison, sum, product, sign and negation, and single values.

Where the grammar refers to itself, it does so through `self`, which stands for parsers of the
three forms that occur inside others. `Form.parser` ties the knot with a bound on the depth. Every
reference to `self` comes behind a token of its own, so the depth never exceeds the length of the
text.
-/
namespace Scss.Grammar

open Scss.Parser

/-- The forms of an expression that other forms contain. -/
inductive Form where
  /-- A list by commas, or anything tighter. -/
  | comma
  /-- A list by blanks, or anything tighter. -/
  | space
  /-- A sign or negation, or a single value. -/
  | unary
deriving DecidableEq

/-- Parsers for the forms inside the one that is read. -/
abbrev Self := Form → Parser Expr

/-- An expression that takes up all tokens. -/
def complete (expression : Parser Expr) : Parser Expr := do
  skipTrivia
  let expr ← expression
  skipTrivia
  if ← atEnd then return expr else unexpected "end of expression"

def quoted (self : Self) (content : String) (position : Position) : Except Fault Template :=
  Quoted.template (Parser.onTokens (complete (self .comma))) content position

def embedded (self : Self) : Parser Expr := do
  let _ ← expect .interpolation
  skipTrivia
  let expr ← self .comma
  skipTrivia
  let _ ← expect .rightBrace
  return expr

def atEllipsis : Parser Bool := do
  let cursor ← get
  return [0, 1, 2].all (fun offset => (cursor.peek offset).kind = .dot)

/-- Whether the token can start an operand. Words that are operators, or end the expression where it
stands, do not. -/
def startsValue (stops : List String) (token : Token) : Bool :=
  match token.kind with
  | .number | .string | .hash | .dollar | .interpolation | .leftParen | .leftBracket | .url
  | .ampersand | .minus | .plus => true
  | .flag => Text.same token.text "!important"
  | .ident => !(token.isWord "and" || token.isWord "or" || stops.any token.isWord)
  | _ => false

/-- One argument of a call, and whether a comma follows it. -/
def callArgument (self : Self) : Parser (Argument Expr × Bool) := do
  let first ← current
  let named := first.kind = .dollar && (← significant 1).kind = .colon
  if named then
    advance 1
    skipTrivia
    let _ ← expect .colon
    skipTrivia
  let value ← self .space
  skipTrivia
  let rest ← atEllipsis
  if rest then
    advance 3
    skipTrivia
  return (⟨if named then some first.name else none, value, rest⟩, ← accept .comma)

def callArguments (self : Self) : Parser (List (Argument Expr)) := do
  let _ ← expect .leftParen
  loop (σ := List (Argument Expr)) [] fun args => do
    skipTrivia
    if ← accept .rightParen then return .done args
    let (arg, more) ← callArgument self
    if more then return .again (args ++ [arg])
    let _ ← expect .rightParen
    return .done (args ++ [arg])

/-- Text and embedded expressions without blanks between them. Text joins only an expression before
it, and a hyphen only if it stands between two expressions. -/
def interpolatedName (self : Self) : Parser Expr := do
  let line := (← current).line
  loop (σ := Template × Bool) (⟨[], line⟩, true) fun (template, joins) => do
    let token ← current
    match token.kind with
    | .ident =>
      if joins then
        advance 1
        return .again (template.pushLiteral token.text, false)
      else return .done (.interpolated template)
    | .interpolation =>
      let expr ← embedded self
      return .again (template.pushExpr expr, true)
    | .minus =>
      if joins && !template.parts.isEmpty && (← peek 1).kind = .interpolation then
        advance 1
        return .again (template.pushLiteral "-", false)
      else return .done (.interpolated template)
    | _ => return .done (.interpolated template)

/-- What an identifier is on its own: a constant, a colour or a word. -/
def wordValue (token : Token) : Expr :=
  let lower := Text.lower token.text
  if lower = "true" then .boolean true token.line
  else if lower = "false" then .boolean false token.line
  else if lower = "null" then .null token.line
  else if (Rgba.named? lower).isSome then .namedColor token.text token.position
  else .identifier token.text token.position

/-- An expression that starts with an identifier: a call, a member of a module, an interpolated
name, or a word. -/
def identifierValue (self : Self) : Parser Expr := do
  let token ← current
  let next ← peek 1
  let second ← peek 2
  if next.kind = .leftParen then
    advance 1
    return .call none token.text (← callArguments self) token.line
  else if next.kind = .dot && second.kind = .dollar then
    advance 3
    return .member token.text second.name token.line
  else if next.kind = .dot && second.kind = .ident && (← peek 3).kind = .leftParen then
    advance 3
    return .call (some token.text) second.text (← callArguments self) token.line
  else if next.kind = .interpolation then interpolatedName self
  else
    advance 1
    return wordValue token

/-- The pairs of a map behind the colon of its first key. -/
def mapRest (self : Self) (firstKey : Expr) (line : Nat) : Parser Expr := do
  skipTrivia
  let firstValue ← self .space
  let pairs ← loop (σ := List (Expr × Expr)) [(firstKey, firstValue)] fun pairs => do
    skipTrivia
    if !(← accept .comma) then return .done pairs
    skipTrivia
    if ← at_ .rightParen then return .done pairs
    let key ← self .space
    skipTrivia
    let _ ← expect .colon
    skipTrivia
    let value ← self .space
    return .again (pairs ++ [(key, value)])
  let _ ← expect .rightParen
  return .map pairs line

/-- The members behind the first of a parenthesized list, and whether there was a comma at all. -/
def parenRest (self : Self) (first : Expr) : Parser (List Expr × Bool) :=
  loop (σ := List Expr × Bool) ([first], false) fun (items, commas) => do
    if !(← accept .comma) then return .done (items, commas)
    skipTrivia
    if ← at_ .rightParen then return .done (items, true)
    let item ← self .space
    skipTrivia
    return .again (items ++ [item], true)

/-- The empty list, a map, a list or an expression, in parentheses. -/
def parenthesized (self : Self) : Parser Expr := do
  let line := (← expect .leftParen).line
  skipTrivia
  if ← accept .rightParen then return .list [] .space false line
  let first ← self .space
  skipTrivia
  if ← accept .colon then mapRest self first line
  else
    let (items, commas) ← parenRest self first
    let _ ← expect .rightParen
    return .paren (if commas then .list items .comma false line else first) line

/-- A list in square brackets. A list without brackets inside them becomes the bracketed list. -/
def bracketed (self : Self) : Parser Expr := do
  let line := (← expect .leftBracket).line
  skipTrivia
  if ← accept .rightBracket then return .list [] .space true line
  let inner ← self .comma
  skipTrivia
  let _ ← expect .rightBracket
  match inner with
  | .list items separator false line => return .list items separator true line
  | single => return .list [single] .space true line

/-- The digits and points at the start of a number, and an exponent if it has digits. -/
def numberSplit (text : List Char) : List Char × List Char :=
  let digits := text.takeWhile (fun c => c.isDigit || c = '.')
  let rest := text.drop digits.length
  let length := digits.length + (Lexer.exponentLength rest).getD 0
  (text.take length, text.drop length)

def splitNumber? (text : String) : Option (Float × Option String) :=
  let (digits, unit) := numberSplit text.toList
  (Decimal.read? digits).map fun value =>
    (value, if unit.isEmpty then none else some (String.ofList unit))

def primary (self : Self) : Parser Expr := do
  let token ← current
  match token.kind with
  | .number =>
    advance 1
    match splitNumber? token.text with
    | some (value, unit) => return .number value unit token.position
    | none => throw (.lexical (.malformedNumber token.text token.position))
  | .string =>
    advance 1
    return .string (← quoted self token.content (token.position.shift 1)) token.line
  | .hash =>
    match Rgba.ofHex? token.text with
    | none => throw (.lexical (.malformedColor token.text token.position))
    | some _ =>
      advance 1
      return .hexColor token.text token.position
  | .dollar =>
    advance 1
    return .var token.name token.line
  | .url =>
    advance 1
    match token.urlContent? with
    | some content => return .url (← quoted self content (token.position.shift 4)) token.line
    | none => throw .torn
  | .ampersand =>
    advance 1
    return .parent token.line
  | .flag =>
    if Text.same token.text "!important" then
      advance 1
      return .important token.line
    else unexpected "expression"
  | .leftParen => parenthesized self
  | .leftBracket => bracketed self
  | .interpolation => interpolatedName self
  | .ident => identifierValue self
  | _ => unexpected "expression"

/-- A sign before an operand. A number takes its sign in. -/
def signed (negative : Bool) (line : Nat) : Expr → Expr
  | .number value unit position => .number (if negative then -value else value) unit position
  | operand => .unary (if negative then .minus else .plus) operand line

def unary (self : Self) : Parser Expr := do
  let token ← current
  if token.kind = .minus || token.kind = .plus then
    advance 1
    skipTrivia
    let operand ← self .unary
    return signed (token.kind = .minus) token.line operand
  else
    let next ← peek 1
    if token.isWord "not" && (next.kind = .whitespace || next.kind = .leftParen) then
      advance 1
      skipTrivia
      let operand ← self .unary
      return .unary .not operand token.line
    else primary self

/-- Operands of one level joined by its operators, from left to right. `operator?` passes an
operator and what follows it up to the operand, or answers `none` and passes nothing. -/
def leftAssociative (operand : Parser Expr) (operator? : Parser (Option BinaryOp)) :
    Parser Expr := do
  let first ← operand
  loop (σ := Expr) first fun left => do
    match ← operator? with
    | none => return .done left
    | some op =>
      let right ← operand
      return .again (.binary op left right left.line)

/-- Pass an operator that stands behind blanks, by the kind of its token. -/
def operatorByKind (table : TokenKind → Option BinaryOp) : Parser (Option BinaryOp) := do
  let saved ← get
  skipTrivia
  match table (← current).kind with
  | none =>
    set saved
    return none
  | some op =>
    advance 1
    skipTrivia
    return some op

def productOp : TokenKind → Option BinaryOp
  | .star => some .mul
  | .slash => some .div
  | .percent => some .mod
  | _ => none

def sumOp : TokenKind → Option BinaryOp
  | .plus => some .add
  | .minus => some .sub
  | _ => none

def comparisonOp : TokenKind → Option BinaryOp
  | .equalEqual => some .eq
  | .notEqual => some .notEq
  | .less => some .lt
  | .greater => some .gt
  | .lessEqual => some .le
  | .greaterEqual => some .ge
  | _ => none

/-- An operator of a sum. One that has blanks before it and none behind it is the sign of the next
member of a list instead. -/
def sumOperator : Parser (Option BinaryOp) := do
  let saved ← get
  let spaced := saved.current.isTrivia
  skipTrivia
  match sumOp (← current).kind with
  | none =>
    set saved
    return none
  | some op =>
    if spaced && !(← peek 1).isTrivia then
      set saved
      return none
    advance 1
    skipTrivia
    return some op

/-- The operator that is written as the word `word`. -/
def wordOperator (word : String) (op : BinaryOp) : Parser (Option BinaryOp) := do
  if (← significant 0).isWord word then
    skipTrivia
    advance 1
    skipTrivia
    return some op
  else return none

def product (self : Self) : Parser Expr :=
  leftAssociative (unary self) (operatorByKind productOp)

def sum (self : Self) : Parser Expr := leftAssociative (product self) sumOperator

def comparison (self : Self) : Parser Expr :=
  leftAssociative (sum self) (operatorByKind comparisonOp)

def conjunction (self : Self) : Parser Expr :=
  leftAssociative (comparison self) (wordOperator "and" .and)

def disjunction (self : Self) : Parser Expr :=
  leftAssociative (conjunction self) (wordOperator "or" .or)

/-- Members with blanks between them. One member is no list. -/
def spaceList (self : Self) (stops : List String) : Parser Expr := do
  let line := (← current).line
  let first ← disjunction self
  loop (σ := List Expr) [] fun others => do
    let saved ← get
    skipTrivia
    if startsValue stops (← current) then
      let item ← disjunction self
      return .again (others ++ [item])
    set saved
    if others.isEmpty then return .done first
    return .done (.list (first :: others) .space false line)

/-- Members with commas between them. One member is a list only if a comma follows it. -/
def commaList (self : Self) (stops : List String) : Parser Expr := do
  let line := (← current).line
  let first ← spaceList self stops
  loop (σ := List Expr × Bool) ([], false) fun (others, commas) => do
    let saved ← get
    skipTrivia
    if ← accept .comma then
      skipTrivia
      if startsValue stops (← current) then
        let item ← spaceList self stops
        return .again (others ++ [item], true)
      return .done (.list (first :: others) .comma false line)
    set saved
    if commas then return .done (.list (first :: others) .comma false line)
    return .done first

def Form.expand (self : Self) : Form → Parser Expr
  | .comma => commaList self []
  | .space => spaceList self []
  | .unary => Grammar.unary self

def Form.parser : Nat → Form → Parser Expr
  | 0, _ => throw .exhausted
  | depth + 1, form => form.expand (Form.parser depth)

def parameters (self : Self) : Parser Parameters := do
  let _ ← expect .leftParen
  loop (σ := Parameters) Parameters.none fun list => do
    skipTrivia
    if ← accept .rightParen then return .done list
    let name := (← expect .dollar).name
    skipTrivia
    if ← atEllipsis then
      advance 3
      skipTrivia
      let _ ← accept .comma
      return .again { list with rest := some name }
    let mut default : Option Expr := none
    if ← accept .colon then
      skipTrivia
      default := some (← self .space)
    let list := { list with params := list.params ++ [⟨name, default⟩] }
    skipTrivia
    if ← accept .comma then return .again list
    let _ ← expect .rightParen
    return .done list

end Scss.Grammar
