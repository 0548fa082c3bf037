import Calculator.Number.Exact

/-!
# Decimal readings

A rational written as a decimal with a given number of places, truncated toward zero. The magnitude
is counted in units of the last place. The integer part stands before the point, and the remaining
units behind it, padded with zeros to the number of places.
-/

namespace Calculator.Exact

/-- The magnitude of a rational in units of the given decimal place, truncated. -/
def scaled (r : Rat) (places : Nat) : Nat :=
  r.num.natAbs * powerOfTen places / r.den

/-- The digits behind the point: those of the units left by the integer part, padded with zeros to
the number of places. -/
def fractionDigits (units places : Nat) : List Char :=
  (Nat.toDigits 10 (units % powerOfTen places)).leftpad places '0'

/-- The decimal reading. There is no minus sign if the truncated magnitude is zero, and no point if
there are no places. -/
def reading (r : Rat) (places : Nat) : String :=
  let units := scaled r places
  let sign := if r.num < 0 ∧ units ≠ 0 then ['-'] else []
  let whole := Nat.toDigits 10 (units / powerOfTen places)
  String.ofList (sign ++ whole ++ if places = 0 then [] else '.' :: fractionDigits units places)

end Calculator.Exact
