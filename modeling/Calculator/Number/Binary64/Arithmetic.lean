import Calculator.Number.Binary64.Basic
import Calculator.Number.Digits

/-!
# Arithmetic in binary64

Each operation is the exact one followed by one rounding. A sum is exact in units, a product in
squared units, a quotient as a quotient of units, and a remainder is a whole number of units that
needs no rounding.

A zero sum is positive unless both terms are negative; a product or a quotient is negative if
exactly one operand is.
-/

namespace Calculator.Binary64

/-- The units of a finite number, with its sign. -/
def signedUnits (negative : Bool) (rank : Fin infinityRank) : Int :=
  signed negative (unitsOfRank rank)

/-- One in units. -/
def unitsOfOne : Nat :=
  Nat.pow 2 1074

/-- The same magnitude with the other sign. -/
def neg : Binary64 → Binary64
  | finite negative rank => finite (!negative) rank
  | infinite negative => infinite (!negative)
  | nan => nan

/-- The sum; infinities of opposite signs give not-a-number. -/
def add : Binary64 → Binary64 → Binary64
  | finite p j, finite q k =>
    let sum := signedUnits p j + signedUnits q k
    ofQuotient (if sum = 0 then p && q else sum < 0) sum.natAbs 1
  | finite _ _, infinite q => infinite q
  | infinite p, finite _ _ => infinite p
  | infinite p, infinite q => if p = q then infinite p else nan
  | _, _ => nan

/-- The difference: the sum with the opposite. -/
def sub (a b : Binary64) : Binary64 :=
  add a (neg b)

/-- The product; a zero and an infinity give not-a-number. -/
def mul : Binary64 → Binary64 → Binary64
  | finite p j, finite q k =>
    ofQuotient (p != q) (unitsOfRank j * unitsOfRank k) unitsOfOne
  | finite p j, infinite q => if j.val = 0 then nan else infinite (p != q)
  | infinite p, finite q k => if k.val = 0 then nan else infinite (p != q)
  | infinite p, infinite q => infinite (p != q)
  | _, _ => nan

/-- The quotient. Two zeros or two infinities give not-a-number; any other number divided by zero is
infinite. -/
def div : Binary64 → Binary64 → Binary64
  | finite p j, finite q k =>
    if k.val = 0 then if j.val = 0 then nan else infinite (p != q)
    else ofQuotient (p != q) (unitsOfRank j * unitsOfOne) (unitsOfRank k)
  | finite p _, infinite q => zero (p != q)
  | infinite p, finite q _ => infinite (p != q)
  | _, _ => nan

/-- The remainder of the division truncated toward zero, with the sign of the dividend. With an
infinite divisor a finite dividend is unchanged; an infinite dividend or a zero divisor gives
not-a-number. -/
def rem : Binary64 → Binary64 → Binary64
  | finite p j, finite _ k =>
    if k.val = 0 then nan else ofQuotient p (unitsOfRank j % unitsOfRank k) 1
  | finite p j, infinite _ => finite p j
  | _, _ => nan

end Calculator.Binary64
