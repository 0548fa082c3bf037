/-!
# Errors

The errors of an evaluation. An error depends on the expression alone, and carries what its message
names: the refused character and its position, the text that is not a number, the length that
exceeds the limit.
-/

namespace Calculator

/-- The error of an evaluation. -/
inductive EvalError where
  /-- The expression has no characters but blanks. -/
  | emptyExpression
  /-- A character that no expression holds; positions count characters from zero. -/
  | invalidCharacter (char : Char) (position : Nat)
  /-- A number that is no literal, or that an operand type does not read. -/
  | invalidNumber (text : String)
  /-- A parenthesis without its partner. -/
  | mismatchedParentheses
  /-- An operator with fewer than two operands, or an empty listing. -/
  | insufficientOperands
  /-- More than one value at the end. -/
  | tooManyOperands
  | divisionByZero
  | moduloByZero
  /-- The expression has `length` characters, and at most `max` are allowed. -/
  | expressionTooLong (length max : Nat)
  deriving DecidableEq

/-- The kind of an error, without the data it carries. -/
inductive ErrorKind where
  | emptyExpression
  | invalidCharacter
  | invalidNumber
  | mismatchedParentheses
  | insufficientOperands
  | tooManyOperands
  | divisionByZero
  | moduloByZero
  | expressionTooLong
  deriving DecidableEq

def EvalError.kind : EvalError → ErrorKind
  | .emptyExpression => .emptyExpression
  | .invalidCharacter .. => .invalidCharacter
  | .invalidNumber _ => .invalidNumber
  | .mismatchedParentheses => .mismatchedParentheses
  | .insufficientOperands => .insufficientOperands
  | .tooManyOperands => .tooManyOperands
  | .divisionByZero => .divisionByZero
  | .moduloByZero => .moduloByZero
  | .expressionTooLong .. => .expressionTooLong

/-- The message shown to the user, in French. -/
def EvalError.message : EvalError → String
  | .emptyExpression => "Entrée vide"
  | .invalidCharacter char position =>
    s!"caractère inattendu: '{char}' (position {position})"
  | .invalidNumber text => s!"nombre invalide: '{text}'"
  | .mismatchedParentheses => "parenthèses non appariées"
  | .insufficientOperands => "expression invalide: opérandes insuffisants"
  | .tooManyOperands => "expression invalide: trop d’opérandes"
  | .divisionByZero => "division par zéro"
  | .moduloByZero => "modulo par zéro"
  | .expressionTooLong length max =>
    s!"expression trop longue: {length} caractères (max {max})"

end Calculator
