import Scss.Position
import Scss.Separator

/-!
Expressions as they are written: operators, lists and calls, each with the line that it starts in.
Nothing is evaluated here.
-/
namespace Scss

inductive BinaryOp where
  | add
  | sub
  | mul
  | div
  | mod
  | eq
  | notEq
  | lt
  | gt
  | le
  | ge
  | and
  | or
deriving DecidableEq

def BinaryOp.symbol : BinaryOp → String
  | add => "+"
  | sub => "-"
  | mul => "*"
  | div => "/"
  | mod => "%"
  | eq => "=="
  | notEq => "!="
  | lt => "<"
  | gt => ">"
  | le => "<="
  | ge => ">="
  | and => "and"
  | or => "or"

inductive UnaryOp where
  | not
  | plus
  | minus
deriving DecidableEq

def UnaryOp.symbol : UnaryOp → String
  | not => "not"
  | plus => "+"
  | minus => "-"

inductive Fragment (ε : Type) where
  | literal (text : String)
  | expr (value : ε)

/-- Text with expressions embedded in it. -/
structure Interpolation (ε : Type) where
  parts : List (Fragment ε)
  line : Nat

/-- An argument of a call: by position, by name, or a list that is spread out. -/
structure Argument (ε : Type) where
  name : Option String
  value : ε
  rest : Bool

inductive Expr where
  | number (value : Float) (unit : Option String) (position : Position)
  /-- A quoted string. -/
  | string (value : Interpolation Expr) (line : Nat)
  | identifier (name : String) (position : Position)
  /-- An identifier with expressions embedded in it. -/
  | interpolated (value : Interpolation Expr)
  | hexColor (text : String) (position : Position)
  | namedColor (name : String) (position : Position)
  | boolean (value : Bool) (line : Nat)
  | null (line : Nat)
  | var (name : String) (line : Nat)
  /-- A variable of a module. -/
  | member (qualifier name : String) (line : Nat)
  | list (items : List Expr) (separator : Separator) (bracketed : Bool) (line : Nat)
  | map (pairs : List (Expr × Expr)) (line : Nat)
  | binary (op : BinaryOp) (left right : Expr) (line : Nat)
  | unary (op : UnaryOp) (operand : Expr) (line : Nat)
  /-- Kept, because a slash inside parentheses divides. -/
  | paren (inner : Expr) (line : Nat)
  | call (qualifier : Option String) (name : String) (args : List (Argument Expr)) (line : Nat)
  /-- An unquoted url. -/
  | url (value : Interpolation Expr) (line : Nat)
  /-- The enclosing selector as a value. -/
  | parent (line : Nat)
  /-- `!important` inside a value. -/
  | important (line : Nat)

/-- Text with expressions of the language embedded in it. -/
abbrev Template := Interpolation Expr

namespace Interpolation

variable {ε : Type}

def literal (text : String) (line : Nat) : Interpolation ε := ⟨[.literal text], line⟩

/-- The text, if no expression is embedded in it. -/
def plain? (template : Interpolation ε) : Option String :=
  template.parts.foldlM (fun text part =>
    match part with
    | .literal more => some (text ++ more)
    | .expr _ => none) ""

def isEmpty (template : Interpolation ε) : Bool :=
  template.parts.all fun part =>
    match part with
    | .literal text => text.isEmpty
    | .expr _ => false

/-- Add text to the end; it joins a text that stands there. -/
def pushLiteral (template : Interpolation ε) (text : String) : Interpolation ε :=
  match template.parts.getLast? with
  | some (.literal last) =>
    { template with parts := template.parts.dropLast ++ [.literal (last ++ text)] }
  | _ => { template with parts := template.parts ++ [.literal text] }

def pushExpr (template : Interpolation ε) (value : ε) : Interpolation ε :=
  { template with parts := template.parts ++ [.expr value] }

end Interpolation

namespace Expr

def line : Expr → Nat
  | number _ _ position => position.line
  | string _ line => line
  | identifier _ position => position.line
  | interpolated value => value.line
  | hexColor _ position => position.line
  | namedColor _ position => position.line
  | boolean _ line => line
  | null line => line
  | var _ line => line
  | member _ _ line => line
  | list _ _ _ line => line
  | map _ line => line
  | binary _ _ _ line => line
  | unary _ _ line => line
  | paren _ line => line
  | call _ _ _ line => line
  | url _ line => line
  | parent line => line
  | important line => line

/-- Whether a slash beside this operand divides instead of separating. -/
def isCalculated : Expr → Bool
  | var .. => true
  | member .. => true
  | call .. => true
  | paren .. => true
  | unary .. => true
  | binary .div left right _ => left.isCalculated || right.isCalculated
  | binary .. => true
  | _ => false

end Expr

/-- A parameter of a mixin or a function. -/
structure Parameter where
  name : String
  default : Option Expr

structure Parameters where
  params : List Parameter
  /-- The parameter that takes the arguments left over. -/
  rest : Option String

def Parameters.none : Parameters := ⟨[], Option.none⟩

end Scss
