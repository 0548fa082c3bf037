import Calculator.Number.Reading
import Mathlib.Data.Rat.Floor
import Mathlib.Tactic.Positivity

/-!
# Truncation

A rational is a quotient of natural numbers, with a sign. Truncation toward zero keeps the sign and
truncates the quotient.

Main result: `Exact.truncate_mul_natCast`, the truncation of a multiple of a rational.
-/

namespace Calculator.Exact

/-! ## Quotients of natural numbers -/

theorem natAbs_num_div_den_of_nonneg {r : Rat} (h : 0 ≤ r) :
    (r.num.natAbs : Rat) / r.den = r := by
  have hnum : (r.num.natAbs : Rat) = r.num := by
    rw [← Int.cast_natCast, Int.natAbs_of_nonneg (Rat.num_nonneg.2 h)]
  rw [hnum, Rat.num_div_den]

theorem natAbs_num_div_den_of_neg {r : Rat} (h : r < 0) :
    -((r.num.natAbs : Rat) / r.den) = r := by
  have hnum : (r.num.natAbs : Rat) = -r.num := by
    rw [← Int.cast_natCast, Int.ofNat_natAbs_of_nonpos (Rat.num_neg.2 h).le, Int.cast_neg]
  rw [hnum, neg_div, neg_neg, Rat.num_div_den]

/-! ## Truncation of quotients -/

theorem truncate_neg (r : Rat) : truncate (-r) = -truncate r := by
  rw [truncate, Rat.neg_num, Rat.neg_den, Int.neg_tdiv, truncate]

theorem truncate_natCast_div_natCast (n d : Nat) : truncate ((n : Rat) / d) = (n / d : Nat) := by
  have hnonneg : 0 ≤ (n : Rat) / d := by positivity
  rw [truncate, Int.tdiv_eq_ediv_of_nonneg (Rat.num_nonneg.2 hnonneg), ← Rat.floor_def',
    Rat.floor_natCast_div_natCast, Int.natCast_ediv]

/-- **A multiple is truncated** to a quotient of natural numbers, with the sign of the number. -/
theorem truncate_mul_natCast (r : Rat) (m : Nat) :
    truncate (r * m) = signed (decide (r < 0)) (r.num.natAbs * m / r.den) := by
  have hquotient : truncate ((r.num.natAbs : Rat) / r.den * m) =
      (r.num.natAbs * m / r.den : Nat) := by
    rw [div_mul_eq_mul_div, ← Nat.cast_mul, truncate_natCast_div_natCast]
  by_cases hneg : r < 0
  · conv_lhs => rw [← natAbs_num_div_den_of_neg hneg]
    rw [neg_mul, truncate_neg, hquotient, decide_eq_true hneg]
    rfl
  · conv_lhs => rw [← natAbs_num_div_den_of_nonneg (not_lt.1 hneg)]
    rw [hquotient, decide_eq_false hneg]
    rfl

theorem truncate_eq_signed (r : Rat) :
    truncate r = signed (decide (r < 0)) (r.num.natAbs / r.den) := by
  simpa using truncate_mul_natCast r 1

/-! ## Units of a decimal place -/

/-- The units of a decimal place, with the sign of the number. -/
theorem truncate_mul_powerOfTen (r : Rat) (places : Nat) :
    truncate (r * powerOfTen places) = signed (decide (r < 0)) (scaled r places) :=
  truncate_mul_natCast r (powerOfTen places)

theorem truncate_mul_powerOfTen_eq_zero_iff (r : Rat) (places : Nat) :
    truncate (r * powerOfTen places) = 0 ↔ scaled r places = 0 := by
  rw [truncate_mul_powerOfTen, ← Int.natAbs_eq_zero, natAbs_signed]

theorem scaled_div_powerOfTen (r : Rat) (places : Nat) :
    scaled r places / powerOfTen places = (truncate r).natAbs := by
  rw [truncate_eq_signed, natAbs_signed, scaled, Nat.div_div_eq_div_mul]
  exact Nat.mul_div_mul_right _ _ (powerOfTen_pos places)

end Calculator.Exact
