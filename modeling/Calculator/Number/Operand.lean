import Calculator.Error
import Calculator.Operator

/-!
# Operands

The interface of a type of operands: a reader for the numbers of an expression, the five operations,
and a test for zero. The operations are total; `Operator.apply` refuses a zero right operand of a
division or a remainder before it uses the operation.
-/

namespace Calculator

/-- A type in which expressions can be computed. -/
class Operand (α : Type) where
  /-- The number of a text, if it is one. -/
  ofLiteral? : String → Option α
  isZero : α → Bool
  add : α → α → α
  sub : α → α → α
  mul : α → α → α
  div : α → α → α
  /-- The remainder of the division truncated toward zero; it has the sign of the dividend. -/
  rem : α → α → α

/-- The operator applied to its left and its right operand. -/
def Operator.apply {α : Type} [Operand α] : Operator → α → α → Except EvalError α
  | plus, a, b => .ok (Operand.add a b)
  | minus, a, b => .ok (Operand.sub a b)
  | times, a, b => .ok (Operand.mul a b)
  | divide, a, b => if Operand.isZero b then .error .divisionByZero else .ok (Operand.div a b)
  | modulo, a, b => if Operand.isZero b then .error .moduloByZero else .ok (Operand.rem a b)

end Calculator
