import Calculator.Number.Binary64.Arithmetic
import Calculator.Number.Decimal
import Calculator.Number.Operand

/-!
# Reading binary64

The text of a number is read as the nearest number of the format, with any number of digits. It has
an optional sign, followed by a decimal magnitude or one of the words for infinity and not-a-number,
in letters of either case.
-/

namespace Calculator

namespace Decimal

/-- The exponent, clamped to a range outside which the result does not change. With `n` digits the
magnitude is below `10 ^ (n + exponent)`, so below the range it is less than any nonzero magnitude
of binary64, and above the range it is zero or greater than all of them. -/
def clampedExponent (d : Decimal) : Int :=
  max (-(d.digits.length + 400)) (min d.exponent 400)

/-- The nearest number of the format, with the given sign. -/
def toBinary64 (negative : Bool) (d : Decimal) : Binary64 :=
  let e := d.clampedExponent
  Binary64.ofQuotient negative
    (digitsValue d.digits * Nat.pow 10 e.toNat * Binary64.unitsOfOne) (Nat.pow 10 (-e).toNat)

end Decimal

namespace Binary64

/-- The number of a text without sign: one of the words, or a decimal magnitude. -/
def ofMagnitude? (negative : Bool) (cs : List Char) : Option Binary64 :=
  let word := String.ofList (cs.map Char.toLower)
  if word = "inf" ∨ word = "infinity" then some (infinite negative)
  else if word = "nan" then some nan
  else (Decimal.ofChars? cs).map (Decimal.toBinary64 negative)

/-- The number of a text. -/
def ofLiteral? (text : String) : Option Binary64 :=
  let (negative, magnitude) := splitSign text.toList
  ofMagnitude? negative magnitude

instance : Operand Binary64 where
  ofLiteral? := ofLiteral?
  isZero := isZero
  add := add
  sub := sub
  mul := mul
  div := div
  rem := rem

end Binary64

end Calculator
