import Calculator.Number.Rounding

/-!
# Binary64

The numbers of the 64-bit binary format: the finite ones, two infinities, and one datum for
not-a-number. The finite magnitudes are numbered upward from zero, and a finite number is its sign
and the *rank* of its magnitude; the rank is also what the format stores behind the sign bit.

All finite magnitudes are multiples of the smallest one, `2 ^ -1074`. In these *units*
(`unitsOfRank`) they are natural numbers, so every exact result that has to be rounded is a quotient
of two natural numbers, and `ofQuotient` rounds it to the nearest magnitude.
-/

namespace Calculator

/-- The number of magnitudes with one exponent: the significands of the format have fifty-two
bits behind the leading one. -/
def binadeSize : Nat :=
  Nat.pow 2 52

/-- The first rank that is not a finite magnitude. -/
def infinityRank : Nat :=
  2047 * binadeSize

/-- A datum of the format. -/
inductive Binary64 where
  | finite (negative : Bool) (rank : Fin infinityRank)
  | infinite (negative : Bool)
  | nan
  deriving DecidableEq

namespace Binary64

/-! ## Ranks and units -/

/-- The shift of the units in the binade of a rank. The lowest two binades, the subnormal magnitudes
and the next one, count single units. -/
def shiftOfRank (rank : Nat) : Nat :=
  rank / binadeSize - 1

/-- The magnitude of a rank, in units of `2 ^ -1074`. -/
def unitsOfRank (rank : Nat) : Nat :=
  (rank - shiftOfRank rank * binadeSize) * Nat.pow 2 (shiftOfRank rank)

/-- The rank of the magnitude nearest to `num / den` units, with ties to even. The shift leaves
fifty-three bits before the point, or is zero if there are fewer. -/
def nearestRank (num den : Nat) : Nat :=
  let shift := Nat.log2 (num / den) - 52
  shift * binadeSize + roundQuotient num (den * Nat.pow 2 shift)

/-- The number of the given sign nearest to `num / den` units, or an infinity beyond the range of
the format. -/
def ofQuotient (negative : Bool) (num den : Nat) : Binary64 :=
  let rank := nearestRank num den
  if h : rank < infinityRank then finite negative ⟨rank, h⟩ else infinite negative

/-- The zero of the given sign. -/
def zero (negative : Bool) : Binary64 :=
  finite negative ⟨0, by decide⟩

@[simp] theorem unitsOfRank_zero : unitsOfRank 0 = 0 := by
  simp [unitsOfRank]

theorem unitsOfRank_of_lt {rank : Nat} (h : rank < 2 * binadeSize) : unitsOfRank rank = rank := by
  have hshift : shiftOfRank rank = 0 := by
    have := Nat.div_lt_of_lt_mul (Nat.mul_comm 2 binadeSize ▸ h)
    simp only [shiftOfRank]
    omega
  simp [unitsOfRank, hshift]

/-- Whether the datum is a zero of either sign. -/
def isZero : Binary64 → Bool
  | finite _ rank => rank.val = 0
  | _ => false

/-! ## Bit patterns -/

/-- The weight of the sign in a pattern. -/
def signBit (negative : Bool) : Nat :=
  if negative then Nat.pow 2 63 else 0

/-- The stored pattern. Not-a-number is stored as the quiet pattern without sign and payload. -/
def bits : Binary64 → Nat
  | finite negative rank => signBit negative + rank.val
  | infinite negative => signBit negative + infinityRank
  | nan => infinityRank + Nat.pow 2 51

/-- The pattern in sixteen hexadecimal digits; not-a-number is written by name. -/
def pattern : Binary64 → String
  | nan => "NaN"
  | value => String.ofList ((Nat.toDigits 16 value.bits).leftpad 16 '0')

end Binary64

end Calculator
