import Scss.AtRule.Services
import Scss.Grammar.Statement
import Scss.Reflow.SelectorList
import Scss.Text.Word

/-!
Rules under a condition: `@media`, `@supports` and `@container`. In the condition of `@supports`,
the values of tests are expressions and are evaluated.
-/
namespace Scss.Conditional

variable {m : Type → Type} [Monad m] [MonadExceptOf Fault m]

def required : List Capability := [.interpolation, .evaluate, .format, .blocks, .declarations]

/-- A piece of a condition: text, or a test of a property for a value, in parentheses. -/
inductive Piece where
  | text (c : Char)
  | test (property value : List Char)
deriving DecidableEq

/-- The test that a text starts with behind its parenthesis: the property, the value, and the length
of all up to and with the closing parenthesis. -/
def test? (text : List Char) : Option (List Char × List Char × Nat) :=
  let property := text.takeWhile (fun c => Chars.isWord c || c = '-')
  match property, text.drop property.length with
  | _ :: _, ':' :: rest =>
    let value := rest.takeWhile (fun c => c ≠ '(' && c ≠ ')')
    match value, rest.drop value.length with
    | _ :: _, ')' :: _ => some (property, value, property.length + value.length + 2)
    | _, _ => none
  | _, _ => none

/-- Cut a condition into pieces; `skip` characters belong to a test that is cut already. -/
def piecesFrom : Nat → List Char → List Piece
  | _, [] => []
  | skip + 1, _ :: rest => piecesFrom skip rest
  | 0, c :: rest =>
    match if c = '(' then test? rest else none with
    | some (property, value, length) => .test property value :: piecesFrom length rest
    | none => .text c :: piecesFrom 0 rest

def Piece.written : Piece → List Char
  | .text c => [c]
  | .test property value => '(' :: property ++ ':' :: value ++ [')']

/-- What evaluating the pieces has come to: the text, and the first fault. -/
structure Progress where
  text : List Char
  fault : Option Fault

/-- Leave a test as it is written, because of a fault. -/
def Progress.leave (progress : Progress) (piece : Piece) (fault : Fault) : m Progress :=
  match fault with
  | .torn => throw .torn
  | _ => pure ⟨progress.text ++ piece.written, progress.fault.or (some fault)⟩

/-- Evaluate one piece. A fault, and a value without text, leave a test as it is written. -/
def evaluatePiece (context : Context m) (progress : Progress) (piece : Piece) : m Progress :=
  match piece with
  | .text c => pure { progress with text := progress.text ++ [c] }
  | .test property value =>
    tryCatch
      (do
        let expr ← MonadExcept.ofExcept
          (Grammar.expression (String.ofList (Chars.trim value)))
        let text ← context.format (← context.evaluate expr)
        let rendered :=
          if text.isEmpty then piece.written
          else '(' :: property ++ ": ".toList ++ text.toList ++ [')']
        pure { progress with text := progress.text ++ rendered })
      (progress.leave piece)

/-- The condition of `@supports` with the values of its tests evaluated. Only the first fault counts,
and only if it is one of evaluation. -/
def evaluateTests (context : Context m) (condition : String) : m String := do
  let progress ← (piecesFrom 0 condition.toList).foldlM (evaluatePiece context) ⟨[], none⟩
  match progress.fault with
  | some (.evaluation fault) => throw (.evaluation fault)
  | some .exhausted => throw .exhausted
  | _ => return String.ofList progress.text

def parts? : Statement → Option (String × Template × List Statement)
  | .media query body _ => some ("media", query, body)
  | .supports condition body _ => some ("supports", condition, body)
  | .container query body _ => some ("container", query, body)
  | _ => none

/-- A body that has statements and comes to nothing takes the rule with it; one without statements
does not. -/
def compile (context : Context m) (node : Statement) (parent : Option String) (level : Nat) :
    m String := do
  match parts? node with
  | none => return ""
  | some (keyword, query, body) =>
    let written ← context.interpolate query
    let condition ← if keyword = "supports" then evaluateTests context written else pure written
    let compiled ← context.compileBody body parent (level + 1)
    let rendered ← context.renderBody compiled parent (level + 1)
    let contents := if keyword = "supports" then rendered else SelectorList.split rendered
    if !body.isEmpty && Text.isBlank contents then return ""
    else return wrapBlock ("@" ++ keyword ++ " " ++ condition) contents level

end Scss.Conditional
