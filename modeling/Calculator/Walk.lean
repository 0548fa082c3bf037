import Calculator.Compact
import Mathlib.Data.List.DropRight

/-!
# The walk for the compact text

The compact text is computed in one pass over the characters of an expression, with a count of the
characters passed and a list of those kept. An expression is empty if nothing is left of it between
the blanks at its ends.
-/

namespace Calculator

/-- The characters between the blanks at both ends. -/
def trimmed (cs : List Char) : List Char :=
  (cs.dropWhile isBlank).rdropWhile isBlank

/-- The state of the walk: the number of characters passed, and those of them that were kept. -/
structure Walk where
  passed : Nat := 0
  kept : List Char := []

/-- Passes one character. -/
def Walk.step (walk : Walk) (c : Char) : Except EvalError Walk :=
  if isBlank c then .ok { walk with passed := walk.passed + 1 }
  else if isAccepted c then .ok ⟨walk.passed + 1, walk.kept ++ [c]⟩
  else .error (.invalidCharacter c walk.passed)

/-- The compact text, computed by the walk. -/
def walk (expression : String) : Except EvalError String :=
  if trimmed expression.toList = [] then .error .emptyExpression
  else (expression.toList.foldlM Walk.step {}).map fun walk => String.ofList walk.kept

end Calculator
