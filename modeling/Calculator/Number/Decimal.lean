import Calculator.Number.Digits

/-!
# Decimals

The written form of a decimal magnitude: digits with at most one point among them, and perhaps a
power of ten behind them. Reading one keeps its digits and where the point is, and computes
nothing that grows with the exponent.
-/

namespace Calculator

/-- A decimal magnitude: the integer with the given digits, times ten to the given exponent. -/
structure Decimal where
  digits : List Char
  exponent : Int

namespace Decimal

/-- From this value on the digits of an exponent are ignored. -/
def exponentCap : Nat := 65536

/-- The value of the digits of an exponent, read from the left until it has reached `exponentCap`. A
greater exponent does not change the nearest number of a magnitude with fewer digits than that. -/
def exponentValue (digits : List Char) : Nat :=
  digits.foldl
    (fun value c => if value < exponentCap then 10 * value + digitsValue [c] else value) 0

/-- An exponent behind the digits: the letter, an optional sign, and at least one digit. The empty
text is the exponent zero. -/
def exponent? : List Char → Option Int
  | [] => some 0
  | c :: cs =>
    let (negative, digits) := splitSign cs
    if (c = 'e' ∨ c = 'E') ∧ digits ≠ [] ∧ digits.all Char.isDigit then
      some (signed negative (exponentValue digits))
    else none

/-- The digits behind a point, and what follows them. -/
def splitFraction : List Char → List Char × List Char
  | '.' :: cs => (cs.takeWhile Char.isDigit, cs.dropWhile Char.isDigit)
  | cs => ([], cs)

/-- Reads a magnitude that has at least one digit. -/
def ofChars? (cs : List Char) : Option Decimal :=
  let whole := cs.takeWhile Char.isDigit
  let (fraction, rest) := splitFraction (cs.dropWhile Char.isDigit)
  if whole.isEmpty && fraction.isEmpty then none
  else (exponent? rest).map fun e => ⟨whole ++ fraction, e - fraction.length⟩

end Decimal

end Calculator
