import Scss.Eval.Job
import Scss.Eval.Operator

/-!
Values of expressions. A slash between two literals separates them; it divides if an operand is
computed, inside parentheses, and inside other operations.
-/
namespace Scss.Eval

variable (setup : Setup) (self : Perform)

/-- The text of a template: strings lose their quotes, and `null` has no text. -/
def interpolate (template : Template) : Run String := do
  let texts ← template.parts.mapM fun part =>
    match part with
    | .literal text => pure text
    | .expr expr => do
      match ← self (.evaluate expr false) with
      | .string text _ => pure text
      | .null => pure ""
      | value => pure (setup.format.value value)
  return String.join texts

/-- Put a value that is spread out among the arguments: the entries of a map by name, the members of
a list by place. -/
def spread (args : CallArgs) (value : Value) : CallArgs :=
  match value with
  | .map entries =>
    { args with
      named := entries.foldl
        (fun named (key, value) => CallArgs.insertNamed (normalizeName key.bare) value named)
        args.named }
  | .list items _ _ => { args with positional := args.positional ++ items }
  | value => { args with positional := args.positional ++ [value] }

def arguments (args : List (Argument Expr)) : Run CallArgs :=
  args.foldlM
    (fun done arg => do
      let value ← self (.evaluate arg.value false)
      if arg.rest then return spread done value
      else
        match arg.name with
        | some name =>
          return { done with named := CallArgs.insertNamed (normalizeName name) value done.named }
        | none => return { done with positional := done.positional ++ [value] })
    ⟨[], []⟩

/-- The places of the arguments of `if()`. -/
structure IfSlots where
  condition : Option Expr
  ifTrue : Option Expr
  ifFalse : Option Expr

namespace IfSlots

def set (slots : IfSlots) (index : Nat) (expr : Expr) : Except Cause IfSlots :=
  match index with
  | 0 => .ok { slots with condition := some expr }
  | 1 => .ok { slots with ifTrue := some expr }
  | 2 => .ok { slots with ifFalse := some expr }
  | _ => .error (.invalidArgument "if() takes at most 3 arguments")

/-- Put arguments into their places; `position` counts those without a name. -/
def fill (slots : IfSlots) (position : Nat) : List (Argument Expr) → Except Cause IfSlots
  | [] => .ok slots
  | arg :: rest => do
    match arg.name with
    | none => (← slots.set position arg.value).fill (position + 1) rest
    | some name =>
      let name := normalizeName name
      match ["condition", "if-true", "if-false"].idxOf? name with
      | some index => (← slots.set index arg.value).fill position rest
      | none => .error (.invalidArgument s!"No argument named ${name} for if()")

end IfSlots

/-- `if()`, of which only the branch that is chosen is evaluated. -/
def ifCall (args : List (Argument Expr)) : Run Value := do
  let slots ← Run.ofCause (IfSlots.fill ⟨none, none, none⟩ 0 args)
  match slots.condition with
  | none => Run.fail (.invalidArgument "Missing argument $condition for if()")
  | some condition =>
    let holds := (← self (.evaluate condition false)).isTruthy
    match if holds then slots.ifTrue else slots.ifFalse with
    | some branch => self (.evaluate branch false)
    | none => return .null

/-- A call. The arguments of `if()` and of `calc()` are not evaluated in advance. -/
def call (qualifier : Option String) (name : String) (args : List (Argument Expr)) : Run Value := do
  let direct : Run Value := do self (.call qualifier name (← arguments self args))
  match qualifier, name, args with
  | none, "if", args => ifCall self args
  | none, "calc", [⟨none, operand, false⟩] =>
    match ← self (.calculate operand) with
    | .number n => return .number n
    | .text css => return .unquoted ("calc(" ++ css ++ ")")
  | _, _, _ => direct

/-- An operation. `and` and `or` evaluate the right operand only if the left one leaves it open, and
result in the operand that decides. -/
def binary (op : BinaryOp) (left right : Expr) (divides : Bool) : Run Value := do
  match op with
  | .and =>
    let value ← self (.evaluate left true)
    if value.isTruthy then self (.evaluate right true) else return value
  | .or =>
    let value ← self (.evaluate left true)
    if value.isTruthy then return value else self (.evaluate right true)
  | op =>
    if op = .div && !divides && !left.isCalculated && !right.isCalculated then
      let left ← self (.evaluate left false)
      let right ← self (.evaluate right false)
      return Operator.joined setup.format .div left right
    else
      let left ← self (.evaluate left true)
      let right ← self (.evaluate right true)
      Run.ofCause (Operator.apply setup.format op left right)

/-- The value of an expression. With `divides`, a slash between two literals divides. -/
def expression (expr : Expr) (divides : Bool) : Run Value := do
  match expr with
  | .number value unit _ => return .number (.ofUnit value (unit.getD ""))
  | .string value _ => return .quoted (← interpolate setup self value)
  | .identifier name _ => return .unquoted name
  | .interpolated value => return .unquoted (← interpolate setup self value)
  | .hexColor text position =>
    match Rgba.ofHex? text with
    | some rgba => return .color (.literal rgba text)
    | none => throw (.lexical (.malformedColor text position))
  | .namedColor name _ =>
    match Rgba.named? name with
    | some rgba => return .color (.literal rgba name)
    | none => return .unquoted name
  | .boolean value _ => return .bool value
  | .null _ => return .null
  | .var name _ =>
    match (← get).lookup? setup.registry name with
    | some value => return value
    | none => Run.fail (.undefinedVariable name)
  | .member qualifier name _ =>
    Run.ofCause ((← get).qualifiedVariable setup.registry qualifier name)
  | .list items separator bracketed _ =>
    return .list (← items.mapM fun item => self (.evaluate item false)) separator bracketed
  | .map pairs _ =>
    let entries ← pairs.mapM fun (key, value) => do
      return (← self (.evaluate key false), ← self (.evaluate value false))
    return .map (Entries.ofPairs entries)
  | .binary op left right _ => binary setup self op left right divides
  | .unary op operand _ =>
    return Operator.applyUnary setup.format op (← self (.evaluate operand true))
  | .paren inner _ => self (.evaluate inner true)
  | .call qualifier name args _ => call self qualifier name args
  | .url value _ => return .unquoted ("url(" ++ (← interpolate setup self value) ++ ")")
  | .parent _ => return ((← get).selector.map Value.unquoted).getD .null
  | .important _ => return .unquoted "!important"

end Scss.Eval
