import Calculator.Error
import Calculator.Text.Blank
import Calculator.Token.Basic

/-!
# Compact text

The compact text of an expression is the expression without its blanks. It exists if the expression
is not blank and all its other characters are accepted; the order of the characters is not checked.
-/

namespace Calculator

/-- The effect of one character, given with its position: a blank is dropped, an accepted character
is kept, and any other character is an error. -/
def compactChar : Char × Nat → Except EvalError (Option Char)
  | (c, position) =>
    if isBlank c then .ok none
    else if isAccepted c then .ok (some c)
    else .error (.invalidCharacter c position)

/-- The expression without its blanks. An expression of blanks only is an error, and so is the first
character that is not accepted, at its position in the expression as given. -/
def compact (expression : String) : Except EvalError String :=
  if expression.toList.all isBlank then .error .emptyExpression
  else String.ofList <$> expression.toList.zipIdx.filterMapM compactChar

end Calculator
