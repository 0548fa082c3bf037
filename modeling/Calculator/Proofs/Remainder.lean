import Calculator.Proofs.Composition
import Calculator.Proofs.Truncation
import Mathlib.Data.Sign.Basic
import Mathlib.Tactic.Linarith
import Mathlib.Tactic.NormNum
import Mathlib.Tactic.Ring

/-!
# The exact remainder

The remainder of two rationals differs from the dividend by an integer multiple of the divisor, is
smaller than the divisor in magnitude, and has the sign of the dividend unless it is zero
(`IsRemainder`). It is unique, since two such numbers have the same sign and magnitudes less than
that of the divisor.

Main results: `Exact.isRemainder_iff`, and `evaluateExact_remainder`, which transfers it to the
value of an expression.
-/

namespace Calculator

namespace Exact

/-! ## Truncation -/

/-- A rational rounded toward zero: the floor of a nonnegative one, and the ceiling of a negative
one. -/
def towardZero (z : Rat) : Int :=
  if 0 ≤ z then ⌊z⌋ else ⌈z⌉

theorem truncate_of_nonneg {z : Rat} (h : 0 ≤ z) : truncate z = ⌊z⌋ := by
  rw [truncate, Int.tdiv_eq_ediv_of_nonneg (Rat.num_nonneg.2 h), ← Rat.floor_def']

theorem truncate_eq_towardZero (z : Rat) : truncate z = towardZero z := by
  unfold towardZero
  split
  · next h => exact truncate_of_nonneg h
  · next h =>
    have hneg : 0 ≤ -z := by linarith
    rw [← neg_neg z, truncate_neg, truncate_of_nonneg hneg, Int.ceil_neg]

theorem abs_sub_towardZero_lt_one (z : Rat) : |z - towardZero z| < 1 := by
  unfold towardZero
  split
  · rw [abs_of_nonneg (sub_nonneg.2 (Int.floor_le z))]
    linarith [Int.lt_floor_add_one z]
  · rw [abs_of_nonpos (sub_nonpos.2 (Int.le_ceil z))]
    linarith [Int.ceil_lt_add_one z]

theorem sign_sub_towardZero (z : Rat) :
    z - towardZero z = 0 ∨ SignType.sign (z - towardZero z) = SignType.sign z := by
  unfold towardZero
  split
  · next h =>
    rcases (sub_nonneg.2 (Int.floor_le z)).eq_or_lt with hzero | hpos
    · exact .inl hzero.symm
    · have hfloor : (0 : Rat) ≤ ⌊z⌋ := by exact_mod_cast Int.floor_nonneg.2 h
      rw [sign_pos hpos, sign_pos (by linarith)]
      exact .inr rfl
  · next h =>
    rcases (sub_nonpos.2 (Int.le_ceil z)).eq_or_lt with hzero | hneg
    · exact .inl hzero
    · rw [sign_neg hneg, sign_neg (not_le.1 h)]
      exact .inr rfl

/-! ## Remainders -/

/-- The number `r` differs from `x` by an integer multiple of `y`, is smaller than `y` in magnitude,
and has the sign of `x` or is zero. -/
structure IsRemainder (x y r : Rat) : Prop where
  exists_multiple : ∃ k : Int, x - r = k * y
  abs_lt_abs : |r| < |y|
  sign_eq : r = 0 ∨ SignType.sign r = SignType.sign x

variable {x y r s : Rat}

theorem IsRemainder.nonneg (h : IsRemainder x y r) (hx : 0 ≤ x) : 0 ≤ r := by
  rcases h.sign_eq with rfl | hsign
  · exact le_rfl
  · exact sign_nonneg_iff.1 (hsign ▸ sign_nonneg_iff.2 hx)

theorem IsRemainder.nonpos (h : IsRemainder x y r) (hx : x ≤ 0) : r ≤ 0 := by
  rcases h.sign_eq with rfl | hsign
  · exact le_rfl
  · exact sign_nonpos_iff.1 (hsign ▸ sign_nonpos_iff.2 hx)

theorem IsRemainder.abs_sub_lt (hr : IsRemainder x y r) (hs : IsRemainder x y s) :
    |r - s| < |y| := by
  have hrlt := hr.abs_lt_abs
  have hslt := hs.abs_lt_abs
  rw [abs_lt] at hrlt hslt ⊢
  rcases le_total 0 x with hx | hx
  · have := hr.nonneg hx
    have := hs.nonneg hx
    constructor <;> linarith
  · have := hr.nonpos hx
    have := hs.nonpos hx
    constructor <;> linarith

/-- **The remainder is unique.** -/
theorem IsRemainder.unique (hr : IsRemainder x y r) (hs : IsRemainder x y s) : r = s := by
  have hlt := hr.abs_sub_lt hs
  obtain ⟨k, hk⟩ := hr.exists_multiple
  obtain ⟨m, hm⟩ := hs.exists_multiple
  have hsub : r - s = ((m - k : Int) : Rat) * y := by
    push_cast
    linarith
  have hy : 0 < |y| := lt_of_le_of_lt (abs_nonneg _) hlt
  rw [hsub, abs_mul, mul_lt_iff_lt_one_left hy] at hlt
  have hzero : m - k = 0 := by
    rw [← Int.abs_lt_one_iff]
    exact_mod_cast hlt
  rw [hzero, Int.cast_zero, zero_mul] at hsub
  exact sub_eq_zero.1 hsub

theorem rem_eq_mul (hy : y ≠ 0) : rem x y = y * (x / y - towardZero (x / y)) := by
  rw [rem, truncate_eq_towardZero, mul_sub, mul_div_cancel₀ _ hy]

theorem isRemainder_rem (hy : y ≠ 0) : IsRemainder x y (rem x y) := by
  constructor
  case exists_multiple =>
    refine ⟨truncate (x / y), ?_⟩
    rw [rem]
    ring
  case abs_lt_abs =>
    rw [rem_eq_mul hy, abs_mul]
    exact mul_lt_of_lt_one_right (abs_pos.2 hy) (abs_sub_towardZero_lt_one _)
  case sign_eq =>
    rw [rem_eq_mul hy]
    rcases sign_sub_towardZero (x / y) with hzero | hsign
    · exact .inl (by rw [hzero, mul_zero])
    · refine .inr ?_
      rw [sign_mul, hsign, ← sign_mul, mul_div_cancel₀ _ hy]

theorem isRemainder_iff (hy : y ≠ 0) : IsRemainder x y r ↔ r = rem x y := by
  constructor
  · intro h
    exact h.unique (isRemainder_rem hy)
  · rintro rfl
    exact isRemainder_rem hy

end Exact

/-! ## The value of a remainder -/

theorem remainder_text (left right : String) :
    "(" ++ left ++ ")%(" ++ right ++ ")" =
      "(" ++ left ++ ")" ++ String.singleton Operator.modulo.symbol ++ "(" ++ right ++ ")" := by
  refine String.toList_inj.1 ?_
  simp [Operator.symbol]

/-- **The exact remainder is the truncated one.** For all expressions of the operands, the value of
the operation is the unique number that differs from the dividend by an integer multiple of the
divisor, is smaller than the divisor in magnitude and has the sign of the dividend unless it is
zero. The multiple is given by the quotient of the operands, truncated toward zero. -/
theorem evaluateExact_remainder {settings : Settings} (hlimit : settings.maxLength = none)
    {left right : String} {x y : Rat} (hleft : (settings.evaluateExact left).result = .ok x)
    (hright : (settings.evaluateExact right).result = .ok y) (hy : y ≠ 0) :
    ∃ r, (settings.evaluateExact ("(" ++ left ++ ")%(" ++ right ++ ")")).result = .ok r ∧
      (∀ other, Exact.IsRemainder x y other ↔ other = r) ∧
      (x - r) / y = Exact.towardZero (x / y) ∧ x = y * Exact.towardZero (x / y) + r := by
  have hresult : (settings.evaluateExact ("(" ++ left ++ ")%(" ++ right ++ ")")).result =
      .ok (Exact.rem x y) := by
    rw [remainder_text, Settings.evaluateExact,
      Settings.result_operation hlimit .modulo hleft hright]
    exact Operator.apply_eq_ok_iff.2 ⟨fun _ => by simpa [Operand.isZero] using hy, rfl⟩
  have hquotient : x - Exact.rem x y = y * Exact.towardZero (x / y) := by
    rw [Exact.rem, Exact.truncate_eq_towardZero, sub_sub_cancel]
  refine ⟨_, hresult, fun _ => Exact.isRemainder_iff hy, ?_, ?_⟩
  · rw [hquotient, mul_div_cancel_left₀ _ hy]
  · rw [← hquotient, sub_add_cancel]

/-- Both operands are negative fractions, with different denominators. -/
theorem evaluateExact_remainder_of_negatives :
    (({} : Settings).evaluateExact " 0 - 7/2").result = .ok (-7 / 2) ∧
      (({} : Settings).evaluateExact ".75-1.5").result = .ok (-3 / 4) ∧
      (({} : Settings).evaluateExact ("(" ++ " 0 - 7/2" ++ ")%(" ++ ".75-1.5" ++ ")")).result =
        .ok (-1 / 2) := by
  have hleft : (({} : Settings).evaluateExact " 0 - 7/2").result = .ok (-7 / 2) := by
    decide +kernel
  have hright : (({} : Settings).evaluateExact ".75-1.5").result = .ok (-3 / 4) := by
    decide +kernel
  have hhalf : Exact.IsRemainder (-7 / 2) (-3 / 4) (-1 / 2) := by
    refine ⟨⟨4, by norm_num⟩, by norm_num [abs_of_neg], .inr ?_⟩
    rw [sign_neg (by norm_num), sign_neg (by norm_num)]
  obtain ⟨r, hresult, hunique, -, -⟩ := evaluateExact_remainder
    (rfl : ({} : Settings).maxLength = none) hleft hright (by norm_num)
  rw [(hunique _).1 hhalf]
  exact ⟨hleft, hright, hresult⟩

end Calculator
