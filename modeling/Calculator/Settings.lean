/-!
# Settings

The settings of the calculator: a limit on the length of an expression, and the number of places of
a decimal reading. Every choice is clamped to its range, so that the bounds hold by the type: a
limit is at least one and at most `lengthCap`, and there are at most `digitsCap` places.
-/

namespace Calculator

/-- The highest limit on the length of an expression. -/
def lengthCap : Nat := 1048576

/-- The most places a decimal reading may be asked for. -/
def digitsCap : Nat := 200

/-- The settings of a calculator, with their defaults. -/
structure Settings where
  /-- The most characters an expression may have, blanks included; `none` sets no limit. -/
  maxLength : Option Nat := none
  /-- The places of a decimal reading. -/
  digits : Nat := 20
  maxLength_range : ∀ max ∈ maxLength, 1 ≤ max ∧ max ≤ lengthCap := by simp
  digits_le : digits ≤ digitsCap := by decide
  deriving DecidableEq

namespace Settings

/-- Limits the length of expressions. -/
def withMaxLength (settings : Settings) (length : Nat) : Settings :=
  { settings with
    maxLength := some (min (max length 1) lengthCap)
    maxLength_range := by
      rintro _ ⟨⟩
      simp only [lengthCap]
      omega }

/-- Chooses the places of decimal readings. -/
def withDigits (settings : Settings) (digits : Nat) : Settings :=
  { settings with
    digits := min digits digitsCap
    digits_le := Nat.min_le_right _ _ }

end Settings

end Calculator
