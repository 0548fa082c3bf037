import Calculator.Number.Digits
import Calculator.Number.Operand

/-!
# Exact numbers

Rationals as operands, without rounding: `0.1` is one tenth. A number is written as its numerator,
followed by a slash and the denominator if it is not an integer.
-/

namespace Calculator.Exact

/-- The integer part of a rational, rounded toward zero. -/
def truncate (r : Rat) : Int :=
  r.num.tdiv r.den

/-- The remainder of the division truncated toward zero. -/
def rem (a b : Rat) : Rat :=
  a - b * (truncate (a / b) : Rat)

/-- A natural number: a digit, followed by digits and underscores, which have no value. -/
def natural? : List Char → Option Nat
  | [] => none
  | c :: cs =>
    if c.isDigit && cs.all (fun d => d.isDigit || d == '_') then
      some (digitsValue ((c :: cs).filter Char.isDigit))
    else none

/-- An integer: a natural number with an optional sign. -/
def integer? (cs : List Char) : Option Int :=
  let (negative, magnitude) := splitSign cs
  (natural? magnitude).map (signed negative)

/-- A power of ten, with the exponent as an unsigned 32-bit integer. -/
def powerOfTen (exponent : Nat) : Nat :=
  Nat.pow 10 exponent.toUInt32.toNat

theorem powerOfTen_eq {exponent : Nat} (h : exponent < UInt32.size) :
    powerOfTen exponent = Nat.pow 10 exponent := by
  rw [powerOfTen, Nat.toUInt32, UInt32.toNat_ofNat_of_lt' h]

theorem powerOfTen_pos (exponent : Nat) : 0 < powerOfTen exponent :=
  Nat.pow_pos (by decide)

/-- The characters behind the first point. -/
def behindPoint (cs : List Char) : List Char :=
  (cs.dropWhile (· != '.')).drop 1

/-- The rational of a text: the integer without the point, over ten to the number of characters
behind the point. There is at most one point, and it does not stand alone. -/
def ofLiteral? (text : String) : Option Rat :=
  let whole := text.toList.takeWhile (· != '.')
  let fraction := behindPoint text.toList
  if fraction.contains '.' || (whole.isEmpty && fraction.isEmpty) then none
  else (integer? (whole ++ fraction)).map fun n => mkRat n (powerOfTen fraction.length)

instance : Operand Rat where
  ofLiteral? := ofLiteral?
  isZero r := decide (r = 0)
  add a b := a + b
  sub a b := a - b
  mul a b := a * b
  div a b := a / b
  rem := rem

/-- The written form: the numerator, and the denominator unless it is one. -/
def text (r : Rat) : String :=
  if r.den = 1 then toString r.num else s!"{r.num}/{r.den}"

end Calculator.Exact
