/-!
# Rounding a quotient

The natural number nearest to a quotient, with ties to even. Main fact: `roundQuotient_le_iff`, the
rounded quotient is the first number whose midpoint to the next one is not exceeded.
-/

namespace Calculator

/-- The natural number nearest to `num / den`, with ties to even. -/
def roundQuotient (num den : Nat) : Nat :=
  let floor := num / den
  let rest := num % den
  if 2 * rest < den ∨ (2 * rest = den ∧ floor % 2 = 0) then floor else floor + 1

theorem roundQuotient_eq_or (num den : Nat) :
    roundQuotient num den = num / den ∨ roundQuotient num den = num / den + 1 := by
  simp only [roundQuotient]
  split
  · exact .inl rfl
  · exact .inr rfl

/-- The rounded quotient is at most `k` exactly if the quotient lies below the midpoint of `k` and
`k + 1`, or at it and `k` is even. -/
theorem roundQuotient_le_iff (num k : Nat) {den : Nat} (hden : 0 < den) :
    roundQuotient num den ≤ k ↔
      2 * num < (2 * k + 1) * den ∨ (2 * num = (2 * k + 1) * den ∧ k % 2 = 0) := by
  have hsum := Nat.div_add_mod' num den
  have hrest := Nat.mod_lt num hden
  have hodd : (2 * k + 1) * den = 2 * (k * den) + den := by
    rw [Nat.add_mul, Nat.mul_assoc, Nat.one_mul]
  simp only [roundQuotient, hodd]
  rcases Nat.lt_trichotomy k (num / den) with hlt | rfl | hgt
  · have hmul := Nat.mul_le_mul_right den hlt
    rw [Nat.succ_mul] at hmul
    split <;> omega
  · split <;> omega
  · have hmul := Nat.mul_le_mul_right den hgt
    rw [Nat.succ_mul] at hmul
    split <;> omega

end Calculator
