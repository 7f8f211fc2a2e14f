import Scss.Position

/-!
Everything that can go wrong, by cause: reading tokens, reading the grammar, evaluating, and wiring
a rule handler to services that cannot do its work. The wording of each cause is `message`, and
stands nowhere else.
-/
namespace Scss

/-- A text that is no sequence of tokens, or a colour that is no colour. -/
inductive LexicalFault where
  | unterminatedString (opened : Position)
  | unterminatedComment (opened : Position)
  | malformedNumber (literal : String) (position : Position)
  | malformedColor (literal : String) (position : Position)
deriving DecidableEq

namespace LexicalFault

def position : LexicalFault → Position
  | unterminatedString opened => opened
  | unterminatedComment opened => opened
  | malformedNumber _ position => position
  | malformedColor _ position => position

def message : LexicalFault → String
  | unterminatedString opened => s!"Unterminated string literal starting at {opened.text}"
  | unterminatedComment opened => s!"Unterminated comment starting at {opened.text}"
  | malformedNumber literal position =>
    s!"Malformed numeric literal `{literal}` at {position.text}"
  | malformedColor literal position => s!"Invalid color literal `{literal}` at {position.text}"

end LexicalFault

/-- Tokens that the grammar does not accept. -/
inductive SyntaxFault where
  | unexpected (expected found : String) (position : Position)
  | unexpectedEnd (expected : String) (position : Position)
  | invalid (reason : String) (position : Position)
deriving DecidableEq

namespace SyntaxFault

def position : SyntaxFault → Position
  | unexpected _ _ position => position
  | unexpectedEnd _ position => position
  | invalid _ position => position

def message : SyntaxFault → String
  | unexpected expected found position => s!"Expected {expected}, found {found} at {position.text}"
  | unexpectedEnd expected position =>
    s!"Unexpected end of input, expected {expected} at {position.text}"
  | invalid reason position => s!"{reason} at {position.text}"

end SyntaxFault

inductive Cause where
  | fileNotFound (path : String)
  | divisionByZero
  | incompatibleUnits (left right : String)
  | invalidNumber (literal : String)
  | unknownFunction (name : String)
  | undefinedVariable (name : String)
  | undefinedMixin (name : String)
  | unknownModule (name : String)
  | invalidArgument (reason : String)
  | undefinedOperation (operation : String)
  | returnOutsideFunction
  | missingReturn (name : String)
  | moduleLoop (path : String)
  | raised (text : String)
deriving DecidableEq

def Cause.message : Cause → String
  | fileNotFound path => s!"File to import not found or unreadable: {path}"
  | divisionByZero => "Division by zero"
  | incompatibleUnits left right => s!"Incompatible units: {left} and {right}"
  | invalidNumber literal => s!"Invalid number: {literal}"
  | unknownFunction name => s!"Unknown function: {name}"
  | undefinedVariable name => s!"Undefined variable: ${name}"
  | undefinedMixin name => s!"Undefined mixin: {name}"
  | unknownModule name => s!"Unknown module: {name}"
  | invalidArgument reason => reason
  | undefinedOperation operation => s!"Undefined operation: {operation}"
  | returnOutsideFunction => "@return is only allowed within function bodies"
  | missingReturn name => s!"Function {name} finished without @return"
  | moduleLoop path => s!"Module loop: {path} is already being loaded"
  | raised text => text

/-- The statement that an evaluation failed in. Lines count from one, so a site always names a
statement of a file. -/
structure Site where
  file : String
  line : Nat
deriving DecidableEq

/-- A failed evaluation. It has no site until a statement encloses it. -/
structure EvaluationFault where
  cause : Cause
  site : Option Site
deriving DecidableEq

namespace EvaluationFault

/-- Name the enclosing statement, unless one closer to the cause is named already. A line zero
names nothing. -/
def locate (fault : EvaluationFault) (file : String) (line : Nat) : EvaluationFault :=
  match fault.site with
  | some _ => fault
  | none => if line = 0 then fault else { fault with site := some ⟨file, line⟩ }

def message (fault : EvaluationFault) : String :=
  match fault.site with
  | some site => s!"{fault.cause.message} ({site.file}:{site.line})"
  | none => s!"{fault.cause.message} (unknown:0)"

@[simp]
theorem locate_site (fault : EvaluationFault) (site : Site) (h : fault.site = some site)
    (file : String) (line : Nat) : fault.locate file line = fault := by
  simp [locate, h]

@[simp]
theorem cause_locate (fault : EvaluationFault) (file : String) (line : Nat) :
    (fault.locate file line).cause = fault.cause := by
  unfold locate
  split
  · rfl
  · split <;> rfl

end EvaluationFault

/-- A rule handler that its services cannot serve, or a rule that has no handler. -/
inductive ConfigurationFault where
  | missingCapability (strategy capability : String)
  | noStrategy (rule : String)
deriving DecidableEq

def ConfigurationFault.message : ConfigurationFault → String
  | missingCapability strategy capability =>
    s!"Strategy `{strategy}` requires the `{capability}` capability, which the context does not provide"
  | noStrategy rule => s!"No rule strategy handles `{rule}`"

/-- Every failure of the library. `exhausted` says that the bound on recursion was reached, which is
a fact about the bound and not about the input. `torn` says that a text was to be cut inside of a
character, where the program itself stops; so nothing recovers from it. -/
inductive Fault where
  | lexical (fault : LexicalFault)
  | grammar (fault : SyntaxFault)
  | evaluation (fault : EvaluationFault)
  | configuration (fault : ConfigurationFault)
  | exhausted
  | torn
deriving DecidableEq

namespace Fault

def because (cause : Cause) : Fault := .evaluation ⟨cause, none⟩

def message : Fault → String
  | lexical fault => fault.message
  | grammar fault => fault.message
  | evaluation fault => fault.message
  | configuration fault => fault.message
  | exhausted => "Recursion is too deep"
  | torn => "A text is cut inside of a character"

/-- Where the fault is, if it says so; an evaluation knows its line only. -/
def position? : Fault → Option Position
  | lexical fault => some fault.position
  | grammar fault => some fault.position
  | evaluation fault => fault.site.map (fun site => ⟨site.line, 1⟩)
  | configuration _ => none
  | exhausted => none
  | torn => none

def title : Fault → String
  | lexical _ => "Lexical error"
  | grammar _ => "Syntax error"
  | evaluation _ => "Compilation error"
  | configuration _ => "Configuration error"
  | exhausted => "Compilation error"
  | torn => "Internal error"

/-- Name the enclosing statement of an evaluation that failed. -/
def locate (fault : Fault) (file : String) (line : Nat) : Fault :=
  match fault with
  | evaluation fault => .evaluation (fault.locate file line)
  | other => other

end Fault

end Scss
