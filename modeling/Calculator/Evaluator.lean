import Calculator.Compact
import Calculator.Journal
import Calculator.Number.Binary64.Literal
import Calculator.Number.Reading
import Calculator.Postorder.Value
import Calculator.Postorder.Yard
import Calculator.Settings

/-!
# Evaluating an expression

The entry points of the calculator. Each checks the length of the expression, takes its compact
text, converts it to postorder and computes the value of that listing, in binary64 or in exact
rationals. A failed call sends a record with its error.

The detailed call also returns its workings. It reads all tokens before it converts them, so a text
with two defects may be refused with a different error than by the plain call.
-/

namespace Calculator

/-- The steps of an evaluation, each as one line of text. -/
structure Workings where
  compact : String
  tokens : String
  postorder : String
  deriving DecidableEq

namespace Settings

/-- Checks the limit on the length. A text with few enough bytes is not counted, since no character
takes less than one byte. -/
def checkLength (settings : Settings) (expression : String) : Except EvalError Unit :=
  match settings.maxLength with
  | none => .ok ()
  | some max =>
    if expression.utf8ByteSize ≤ max ∨ expression.length ≤ max then .ok ()
    else .error (.expressionTooLong expression.length max)

/-- The value of an expression in a type of operands. -/
def evaluateIn (α : Type) [Operand α] (settings : Settings) (expression : String) : Call α :=
  .reporting expression do
    settings.checkLength expression
    let text ← compact expression
    let listing ← toPostorder text
    .send (.converted text listing)
    Postorder.value listing

/-- The value in binary64. -/
def evaluate (settings : Settings) (expression : String) : Call Binary64 :=
  settings.evaluateIn Binary64 expression

/-- The exact value. -/
def evaluateExact (settings : Settings) (expression : String) : Call Rat :=
  settings.evaluateIn Rat expression

/-- The exact value and its decimal reading. -/
def evaluateReading (settings : Settings) (expression : String) : Call (Rat × String) := do
  let value ← settings.evaluateExact expression
  return (value, Exact.reading value settings.digits)

/-- The value in binary64, with the workings. -/
def evaluateDetailed (settings : Settings) (expression : String) : Call (Binary64 × Workings) :=
  .reporting expression do
    settings.checkLength expression
    let text ← compact expression
    let tokens ← (Lexer.ofString text).scan.result
    let listing ← toPostorder text
    let value ← Postorder.value listing
    return (value, ⟨text, Token.listing tokens, Token.listing listing⟩)

end Settings

end Calculator
