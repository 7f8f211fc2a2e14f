import Scss.Tree.Expr
import Scss.Value.Map

/-!
Operators on values. Numbers are computed with; other operands are joined as text, or have no such
operation.
-/
namespace Scss.Operator

variable (format : Format)

/-- The cause of an operation that its operands do not have. -/
def undefined (op : BinaryOp) (left right : Value) : Cause :=
  .undefinedOperation (format.value left ++ " " ++ op.symbol ++ " " ++ format.value right)

/-- The operands as text, with the operator between them. -/
def joined (op : BinaryOp) (left right : Value) : Value :=
  .unquoted (format.value left ++ op.symbol ++ format.value right)

def holds (op : BinaryOp) (ordering : Ordering) : Bool :=
  match op with
  | .lt => ordering.isLT
  | .gt => ordering.isGT
  | .le => ordering.isLE
  | .ge => ordering.isGE
  | _ => false

def onNumbers (op : BinaryOp) (a b : Number) : Except Cause Value :=
  match op with
  | .add => Value.number <$> a.add b
  | .sub => Value.number <$> a.sub b
  | .mul => .ok (.number (a.mul b))
  | .div => Value.number <$> a.div b
  | .mod => Value.number <$> a.mod b
  | .lt | .gt | .le | .ge => (fun ordering => .bool (holds op ordering)) <$> a.compare b
  | .eq | .notEq | .and | .or => .error (undefined format op (.number a) (.number b))

/-- The sum of two values that are not both numbers. A string takes any other operand in, and
keeps its own quotes, the left one first. -/
def addTexts (left right : Value) : Except Cause Value :=
  match left, right with
  | .string text quoted, right => .ok (.string (text ++ right.bare) quoted)
  | left, .string text quoted => .ok (.string (format.value left ++ text) quoted)
  | .number a, right => .error (undefined format .add (.number a) right)
  | left, .number b => .error (undefined format .add left (.number b))
  | left, right => .ok (joined format .add left right)

/-- An operator on the values of its operands. `and` and `or` are not among them. -/
def apply (op : BinaryOp) (left right : Value) : Except Cause Value :=
  match op, left, right with
  | .eq, left, right => .ok (.bool (left.equals right))
  | .notEq, left, right => .ok (.bool (!left.equals right))
  | op, .number a, .number b => onNumbers format op a b
  | .add, left, right => addTexts format left right
  | .sub, left, right => .ok (joined format .sub left right)
  | .div, left, right => .ok (joined format .div left right)
  | op, left, right => .error (undefined format op left right)

def applyUnary (op : UnaryOp) (operand : Value) : Value :=
  match op, operand with
  | .not, operand => .bool (!operand.isTruthy)
  | .minus, .number n => .number n.neg
  | .plus, .number n => .number n
  | op, operand => .unquoted (op.symbol ++ format.value operand)

end Scss.Operator
