import Scss.Grammar.Raw
import Scss.Tree.Statement

/-!
The grammar of statements. A statement that starts with neither a variable nor an at-keyword is a
rule or a declaration, and which of them shows only further on: `a:hover` opens a rule, `a: hover`
does not.

Blocks are read through `block`, which stands for a parser of the statements up to a closing brace;
`bodyParser` ties the knot with a bound on the depth, as for expressions.
-/
namespace Scss.Grammar

open Scss.Parser

/-- What the statements of a block need: expressions, and the blocks inside it. -/
structure Blocks where
  self : Self
  /-- A block with its braces, from the blanks before it. -/
  block : Parser (List Statement)

/-- Where a rule's head, or the head of an at-rule, ends. -/
def headStops : List TokenKind := [.leftBrace, .semicolon, .rightBrace]

def propertyStops : List TokenKind := [.colon, .semicolon, .leftBrace, .rightBrace]

namespace Blocks

variable (b : Blocks)

def expression : Parser Expr := commaList b.self []

/-- The expression that takes up all of `tokens`. -/
def valueOf (tokens : List Token) : Parser Expr := within (complete b.expression) tokens

/-- Raw text that takes up all of `tokens`. -/
def rawOf (tokens : List Token) : Parser Template := within (raw b.self [] false) tokens

/-- Blanks, and a semicolon if there is one. -/
def finish : Parser Unit := do
  skipTrivia
  let _ ← accept .semicolon

def assignment (qualifier : Option String) : Parser Statement := do
  let token ← expect .dollar
  skipTrivia
  let _ ← expect .colon
  skipTrivia
  let (flags, tokens) := splitFlags (← takeTo [.semicolon, .rightBrace, .leftBrace])
  let value ← b.valueOf tokens
  let _ ← accept .semicolon
  return .assign qualifier token.name value (flags.contains "!default") (flags.contains "!global")
    token.line

/-- Whether a declaration starts here, and not a rule. With a block behind it, it is one only if its
name has no blanks and the colon is followed by one or by the block. -/
def startsDeclaration : Parser Bool := do
  let cursor ← get
  let colon ← scanTo propertyStops
  if (cursor.peek colon).kind ≠ .colon then return false
  let final ← scanTo headStops
  if (cursor.peek final).kind ≠ .leftBrace then return true
  let named := [.ident, .interpolation].contains cursor.current.kind
  let unspaced := (cursor.ahead.take colon).all (fun token => token.kind ≠ .whitespace)
  let spacedAfter := [.whitespace, .leftBrace].contains (cursor.peek (colon + 1)).kind
  return named && unspaced && spacedAfter

def styleRule : Parser Statement := do
  let line := (← current).line
  let text ← raw b.self headStops false
  if text.isEmpty then unexpected "selector"
  else return .rule ⟨text, line⟩ (← b.block) line

/-- The value of a declaration and whether it is important. What is no expression is kept as raw
text, unless variables occur in it. -/
def declarationValue (tokens : List Token) : Parser (Option Expr × Bool) := do
  let (flags, tokens) := splitFlags tokens
  let important := flags.contains "!important"
  if tokens.all Token.isTrivia then return (none, important)
  match Parser.onTokens (complete b.expression) tokens with
  | .ok expr => return (some expr, important)
  | .error (.grammar fault) =>
    if tokens.any (fun token => token.kind = .dollar) then throw (.grammar fault)
    else return (some (.interpolated (← b.rawOf tokens)), important)
  | .error fault => throw fault

def declaration : Parser Statement := do
  let line := (← current).line
  let property ← raw b.self propertyStops false
  let _ ← expect .colon
  skipTrivia
  let (value, important) ← b.declarationValue (← takeTo headStops)
  if ← at_ .leftBrace then
    return .property ⟨property, value, important, ← b.block, line⟩
  else if value.isNone then unexpected "declaration value"
  else
    let _ ← accept .semicolon
    return .property ⟨property, value, important, [], line⟩

def customProperty : Parser Statement := do
  let name ← expect .ident
  skipTrivia
  let _ ← expect .colon
  skipTrivia
  let value ← raw b.self [.semicolon, .rightBrace] false
  let _ ← accept .semicolon
  return .customProperty (.literal name.text name.line) value name.line

def ruleOrDeclaration : Parser Statement := do
  let token ← current
  if token.kind = .ident && Text.startsWith "--" token.text && (← significant 1).kind = .colon then
    b.customProperty
  else if ← startsDeclaration then b.declaration
  else b.styleRule

def elseBranches (first : Branch Statement) : Parser (List (Branch Statement)) :=
  loop (σ := List (Branch Statement)) [first] fun branches => do
    let saved ← get
    skipTrivia
    let token ← current
    if !(token.kind = .atKeyword && Text.same token.text "@else") then
      set saved
      return .done branches
    advance 1
    skipTrivia
    if ← acceptWord "if" then
      let test ← b.expression
      let body ← b.block
      return .again (branches ++ [⟨some test, body, token.line⟩])
    let body ← b.block
    return .done (branches ++ [⟨none, body, token.line⟩])

def ifStatement (line : Nat) : Parser Statement := do
  let test ← b.expression
  let body ← b.block
  return .ifElse (← b.elseBranches ⟨some test, body, line⟩) line

/-- Pass the identifier `word`, which has to stand here. -/
def expectWord (word : String) : Parser Unit := do
  if !(← acceptWord word) then unexpected s!"`{word}`"

def eachStatement (line : Nat) : Parser Statement := do
  let targets ← loop (σ := List String) [] fun names => do
    let name := (← expect .dollar).name
    skipTrivia
    if ← accept .comma then
      skipTrivia
      return .again (names ++ [name])
    return .done (names ++ [name])
  expectWord "in"
  let list ← b.expression
  return .eachLoop targets list (← b.block) line

def forStatement (line : Nat) : Parser Statement := do
  let name := (← expect .dollar).name
  skipTrivia
  expectWord "from"
  let first ← commaList b.self ["through", "to"]
  skipTrivia
  let inclusive ← atWord "through"
  if !inclusive && !(← atWord "to") then unexpected "`through` or `to`"
  else
    advance 1
    skipTrivia
    let last ← b.expression
    return .forLoop name first last inclusive (← b.block) line

/-- Arguments in parentheses, if a parenthesis stands here. -/
def optionalArguments : Parser (List (Argument Expr)) := do
  if ← at_ .leftParen then callArguments b.self else return []

/-- Parameters in parentheses, if a parenthesis stands here. -/
def optionalParameters : Parser Parameters := do
  if ← at_ .leftParen then parameters b.self else return .none

def includeStatement (line : Nat) : Parser Statement := do
  let first := (← expect .ident).text
  let qualified := (← at_ .dot) && (← peek 1).kind = .ident
  let second := (← peek 1).text
  if qualified then advance 2
  let (qualifier, name) := if qualified then (some first, second) else (none, first)
  skipTrivia
  let args ← b.optionalArguments
  skipTrivia
  let mut params := Parameters.none
  if ← acceptWord "using" then
    params ← parameters b.self
    skipTrivia
  if ← at_ .leftBrace then
    return .includeMixin qualifier name args (some ⟨params, ← b.block⟩) line
  else
    let _ ← accept .semicolon
    return .includeMixin qualifier name args none line

def address : Parser String := do
  let token ← expect .string
  skipTrivia
  return token.content

/-- The assignments in parentheses that configure a module. -/
def configuration : Parser (List (String × Expr)) := do
  let _ ← expect .leftParen
  loop (σ := List (String × Expr)) [] fun config => do
    skipTrivia
    if ← accept .rightParen then return .done config
    let name := (← expect .dollar).name
    skipTrivia
    let _ ← expect .colon
    skipTrivia
    let value ← b.self .space
    let config := config ++ [(name, value)]
    skipTrivia
    if ← accept .comma then return .again config
    let _ ← expect .rightParen
    return .done config

def useStatement (line : Nat) : Parser Statement := do
  let url ← address
  let mut name : Option String := none
  if ← acceptWord "as" then
    if ← accept .star then name := some "*"
    else name := some (← expect .ident).text
    skipTrivia
  let mut config : List (String × Expr) := []
  if ← acceptWord "with" then config ← b.configuration
  finish
  return .useModule url name config line

/-- The text before the star that stands for the names behind it. -/
def affix : Parser String := do
  let text ← loop (σ := String) "" fun text => do
    let token ← current
    if token.kind = .star || token.kind = .endOfInput then return .done text
    advance 1
    return .again (text ++ token.text)
  let _ ← expect .star
  skipTrivia
  return text

def memberNames : Parser (List String) :=
  loop (σ := List String) [] fun names => do
    skipTrivia
    let name := (← expectAny [.ident, .dollar]).text
    skipTrivia
    if ← accept .comma then return .again (names ++ [name])
    return .done (names ++ [name])

def forwardStatement (line : Nat) : Parser Statement := do
  let url ← address
  let mut before : Option String := none
  if ← acceptWord "as" then before := some (← affix)
  let mut filter : Option ForwardFilter := none
  if ← atWord "show" then
    advance 1
    filter := some (.only (← memberNames))
  else if ← atWord "hide" then
    advance 1
    filter := some (.allBut (← memberNames))
  finish
  return .forwardModule url before filter line

def isPlainImport (url : String) : Bool :=
  Text.endsWith ".css" url || Text.startsWith "http://" url || Text.startsWith "https://" url ||
    Text.startsWith "//" url

def importStatement (line : Nat) : Parser Statement := do
  let tokens ← takeTo [.semicolon, .rightBrace]
  let _ ← accept .semicolon
  let significant := tokens.filter (fun token => !token.isTrivia)
  let urls := (significant.filter (fun token => token.kind = .string)).map Token.content
  let onlyStrings := !significant.isEmpty &&
    significant.all (fun token => [.string, .comma].contains token.kind)
  if onlyStrings && !urls.any isPlainImport then return .importSheets urls line
  else return .atRule "import" (← b.rawOf tokens) none line

/-- One block of keyframes. Its selectors are plain text, and only its declarations count. -/
def keyframeBlock : Parser (KeyframeBlock Statement) := do
  let token ← current
  match (← raw b.self headStops false).plain? with
  | none => fail (.invalid "Interpolation is not supported in keyframe selectors" token.position)
  | some text =>
    let selectors := ((Text.splitOn ',' text).map Text.trim).filter (fun part => !part.isEmpty)
    let body ← b.block
    let declarations := body.filterMap fun statement =>
      match statement with
      | .property declaration => some declaration
      | _ => none
    return ⟨selectors, declarations, token.line⟩

def keyframesStatement (keyword : String) (line : Nat) : Parser Statement := do
  let name ← raw b.self headStops false
  let _ ← expect .leftBrace
  let blocks ← loop (σ := List (KeyframeBlock Statement)) [] fun blocks => do
    skipTrivia
    if ← accept .rightBrace then return .done blocks
    if ← atEnd then unexpected "`\x7d`"
    else return .again (blocks ++ [← b.keyframeBlock])
  return .keyframes keyword name blocks line

/-- Which contexts to keep or to leave, in parentheses. -/
def atRootQuery : Parser AtRootQuery := do
  let _ ← expect .leftParen
  skipTrivia
  let keyword ← expect .ident
  skipTrivia
  let _ ← expect .colon
  let names ← loop (σ := List String) [] fun names => do
    skipTrivia
    if ← accept .rightParen then return .done names
    return .again (names ++ [Text.lower (← expect .ident).text])
  if Text.same keyword.text "with" then return .keep names
  else if Text.same keyword.text "without" then return .leave names
  else
    fail (.unexpected "`with` or `without`" s!"identifier `{keyword.text}`" keyword.position)

def atRootStatement (line : Nat) : Parser Statement := do
  let mut query : Option AtRootQuery := none
  if ← at_ .leftParen then query := some (← atRootQuery)
  skipTrivia
  if ← at_ .leftBrace then return .atRoot none query (← b.block) line
  else
    let selectorLine := (← current).line
    let text ← raw b.self headStops false
    return .atRoot (some ⟨text, selectorLine⟩) query (← b.block) line

def messageStatement (kind : MessageKind) (line : Nat) : Parser Statement := do
  let value ← b.expression
  finish
  return .message kind value line

def extendStatement (line : Nat) : Parser Statement := do
  let (flags, tokens) := splitFlags (← takeTo [.semicolon, .rightBrace])
  let selector ← b.rawOf tokens
  let _ ← accept .semicolon
  return .extend selector (flags.contains "!optional") line

/-- An at-rule without a grammar of its own. -/
def otherAtRule (name : String) (line : Nat) : Parser Statement := do
  let value ← raw b.self headStops false
  if ← at_ .leftBrace then return .atRule name value (some (← b.block)) line
  else
    let _ ← accept .semicolon
    return .atRule name value none line

def callable (build : String → Parameters → List Statement → Nat → Statement) (line : Nat) :
    Parser Statement := do
  let name := (← expect .ident).text
  skipTrivia
  let params ← b.optionalParameters
  return build name params (← b.block) line

/-- A head of raw text with variables in it, and a body. -/
def conditional (build : Template → List Statement → Nat → Statement) (line : Nat) :
    Parser Statement := do
  let head ← raw b.self headStops true
  return build head (← b.block) line

def atStatement : Parser Statement := do
  let token ← expect .atKeyword
  let line := token.line
  let lower := Text.lower token.name
  skipTrivia
  match lower with
  | "if" => b.ifStatement line
  | "else" => fail (.invalid "@else must follow @if" token.position)
  | "each" => b.eachStatement line
  | "for" => b.forStatement line
  | "while" =>
    let condition ← b.expression
    return .whileLoop condition (← b.block) line
  | "mixin" => b.callable .mixinDef line
  | "function" => b.callable .functionDef line
  | "return" =>
    let value ← b.expression
    finish
    return .returnValue value line
  | "include" => b.includeStatement line
  | "content" =>
    let args ← b.optionalArguments
    finish
    return .contentSlot args line
  | "use" => b.useStatement line
  | "forward" => forwardStatement line
  | "import" => b.importStatement line
  | "media" => b.conditional .media line
  | "supports" => b.conditional .supports line
  | "container" => b.conditional .container line
  | "at-root" => b.atRootStatement line
  | "debug" => b.messageStatement .debug line
  | "warn" => b.messageStatement .warn line
  | "error" => b.messageStatement .error line
  | "extend" => b.extendStatement line
  | _ =>
    if lower = "keyframes" || Text.endsWith "-keyframes" lower then b.keyframesStatement lower line
    else b.otherAtRule token.name line

/-- One round of the statement list: a statement, or something to pass over. `nested` says that a
closing brace ends the list instead of the end of input. -/
def statementRound (nested : Bool) (done : List Statement) :
    Parser (Next (List Statement) (List Statement)) := do
  skipBlank
  let token ← current
  match token.kind with
  | .endOfInput => if nested then unexpected "`\x7d`" else return .done done
  | .rightBrace => if nested then return .done done else unexpected "statement"
  | .semicolon =>
    advance 1
    return .again done
  | .comment =>
    advance 1
    return .again (if token.isSilent then done else done ++ [.comment token.text token.line])
  | .atKeyword => return .again (done ++ [← b.atStatement])
  | .dollar => return .again (done ++ [← b.assignment none])
  | .ident =>
    if (← peek 1).kind = .dot && (← peek 2).kind = .dollar then
      advance 2
      return .again (done ++ [← b.assignment (some token.text)])
    else return .again (done ++ [← b.ruleOrDeclaration])
  | _ => return .again (done ++ [← b.ruleOrDeclaration])

def statements (nested : Bool) : Parser (List Statement) := loop [] (b.statementRound nested)

def braced : Parser (List Statement) := do
  skipTrivia
  let _ ← expect .leftBrace
  let body ← b.statements true
  let _ ← expect .rightBrace
  return body

end Blocks

def bodyParser (self : Self) : Nat → Parser (List Statement)
  | 0 => throw .exhausted
  | depth + 1 => Blocks.braced ⟨self, bodyParser self depth⟩

/-- A bound on the depth of a text's expressions and blocks. -/
def depthBound (source : String) : Nat := source.length + 1

def expressions (source : String) : Self := Form.parser (depthBound source)

def cursorOf (source : String) : Except Fault Cursor :=
  match Lexer.tokens source with
  | .error fault => .error (.lexical fault)
  | .ok tokens => .ok (Cursor.ofTokens tokens)

def stylesheet (source : String) : Except Fault (List Statement) := do
  let cursor ← cursorOf source
  let self := expressions source
  (Blocks.statements ⟨self, bodyParser self (depthBound source)⟩ false).run' cursor

def expression (source : String) : Except Fault Expr := do
  let cursor ← cursorOf source
  (complete (commaList (expressions source) [])).run' cursor

/-- A name and its parameters, as they stand in the definition of a mixin. -/
def signatureOf (self : Self) : Parser (String × Parameters) := do
  skipTrivia
  let name := (← expect .ident).text
  skipTrivia
  let params ← if ← at_ .leftParen then parameters self else pure Parameters.none
  skipTrivia
  if ← atEnd then return (name, params) else unexpected "end of signature"

def signature (source : String) : Except Fault (String × Parameters) := do
  let cursor ← cursorOf source
  (signatureOf (expressions source)).run' cursor

end Scss.Grammar
