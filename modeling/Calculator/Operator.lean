/-!
# Operators

The five binary operators, with their characters and precedences. All of them associate to the left.
Main fact: `Operator.ofChar?_eq_some_iff`, a character is an operator exactly if it is the symbol of
one.
-/

namespace Calculator

/-- A binary operator. -/
inductive Operator where
  | plus
  | minus
  | times
  | divide
  | modulo
  deriving DecidableEq

namespace Operator

/-- The character of the operator. -/
def symbol : Operator → Char
  | plus => '+'
  | minus => '-'
  | times => '*'
  | divide => '/'
  | modulo => '%'

/-- The operator with this character. -/
def ofChar? : Char → Option Operator
  | '+' => some plus
  | '-' => some minus
  | '*' => some times
  | '/' => some divide
  | '%' => some modulo
  | _ => none

/-- The precedence; a higher one binds tighter. -/
def precedence : Operator → Nat
  | plus | minus => 1
  | times | divide | modulo => 2

@[simp] theorem ofChar?_symbol (o : Operator) : ofChar? o.symbol = some o := by
  cases o <;> rfl

theorem ofChar?_eq_some_iff {c : Char} {o : Operator} : ofChar? c = some o ↔ c = o.symbol := by
  constructor
  · intro h
    unfold ofChar? at h
    split at h <;> cases h <;> rfl
  · rintro rfl
    exact ofChar?_symbol o

theorem precedence_eq_one_or_two (o : Operator) : o.precedence = 1 ∨ o.precedence = 2 := by
  cases o <;> simp [precedence]

end Operator

end Calculator
