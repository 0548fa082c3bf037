import Calculator.Number.Binary64.Arithmetic
import Calculator.Proofs.Midpoints
import Calculator.Proofs.Ranks
import Mathlib.Tactic.FieldSimp
import Mathlib.Tactic.NormNum
import Mathlib.Tactic.Positivity

/-!
# Bit patterns

Binary64 is stored in sixty-four bits: a sign, an exponent and a fraction. A pattern has a rational
value, unless its exponent is the highest one. Rounding is correct if it takes, of all finite
patterns, one with the nearest value, with an even significand in a tie (`Pattern.IsNearest`), and
an infinity beyond them (`Pattern.Rounds`).

These definitions do not mention ranks. But the bits behind the sign are the rank (`Pattern.rank`),
and the values are those of the ranks, so the nearest patterns of one sign are determined by the
midpoints of ranks; a pattern of the other sign is never nearer.

Main result: `Binary64.rounds_ofQuotient`.
-/

namespace Calculator

/-- A stored number: a sign bit, eleven bits of exponent, and fifty-two bits of fraction. -/
abbrev Pattern := BitVec 64

namespace Pattern

/-! ## The value of a pattern -/

/-- The exponent as it is stored. -/
def storedExponent (p : Pattern) : Nat :=
  (p.extractLsb' 52 11).toNat

/-- The fraction as it is stored. -/
def fraction (p : Pattern) : Nat :=
  (p.extractLsb' 0 52).toNat

/-- The highest exponent is that of the infinities and of not-a-number. -/
def IsFinite (p : Pattern) : Prop :=
  p.storedExponent ≠ 2047

/-- The fraction with a leading one, except with the lowest exponent. -/
def significand (p : Pattern) : Nat :=
  if p.storedExponent = 0 then p.fraction else 2 ^ 52 + p.fraction

/-- The power of two of the last bit of the significand. The lowest two stored exponents have the
same one. -/
def exponent (p : Pattern) : Int :=
  (max p.storedExponent 1 : Nat) - 1075

def magnitude (p : Pattern) : Rat :=
  p.significand * 2 ^ p.exponent

/-- The number of this magnitude and sign. -/
def withSign (negative : Bool) (x : Rat) : Rat :=
  if negative then -x else x

/-- The rational value of a finite pattern. -/
def value (p : Pattern) : Rat :=
  withSign p.msb p.magnitude

/-- The pattern of an infinity. -/
def infinity (negative : Bool) : Pattern :=
  if negative then 0xfff0000000000000#64 else 0x7ff0000000000000#64

/-! ## Correct rounding -/

/-- No finite pattern has a value nearer to `r`, and if one with another value is equally near, the
significand is even. -/
structure IsNearest (p : Pattern) (r : Rat) : Prop where
  isFinite : p.IsFinite
  dist_le : ∀ q : Pattern, q.IsFinite → |p.value - r| ≤ |q.value - r|
  even : ∀ q : Pattern, q.IsFinite → q.value ≠ p.value → |q.value - r| = |p.value - r| →
    p.significand % 2 = 0

/-- The midpoint of the greatest finite magnitude and the next power of two. -/
def overflow : Rat :=
  2 ^ 1024 - 2 ^ 970

/-- The pattern of a sign that a rational of this sign is correctly rounded to. The sign is given,
since a rational zero has none. -/
structure Rounds (p : Pattern) (negative : Bool) (r : Rat) : Prop where
  msb_eq : p.msb = negative
  nearest : |r| < overflow → p.IsNearest r
  infinite : overflow ≤ |r| → p = infinity (decide (r < 0))
  zero : |r| ≤ 2 ^ (-1075 : Int) → p.IsFinite ∧ p.value = 0

/-! ## Patterns and ranks -/

/-- The bits behind the sign. -/
def rank (p : Pattern) : Nat :=
  p.toNat % 2 ^ 63

variable {p q : Pattern}

theorem toNat_eq (p : Pattern) : p.toNat = Binary64.signBit p.msb + p.rank := by
  have hlt := p.isLt
  rw [rank]
  cases hsign : p.msb with
  | false =>
    have hsmall : p.toNat < 2 ^ 63 := BitVec.toNat_lt_of_msb_false hsign
    rw [Nat.mod_eq_of_lt hsmall]
    exact (Nat.zero_add _).symm
  | true =>
    have hlarge : 2 ^ 63 ≤ p.toNat := BitVec.le_toNat_of_msb_true hsign
    rw [show Binary64.signBit true = 2 ^ 63 from rfl]
    omega

theorem rank_lt (p : Pattern) : p.rank < 2048 * binadeSize :=
  Nat.mod_lt _ (by decide)

theorem ext_rank (hsign : p.msb = q.msb) (hrank : p.rank = q.rank) : p = q :=
  BitVec.eq_of_toNat_eq (by rw [toNat_eq p, toNat_eq q, hsign, hrank])

theorem exists_of_rank (negative : Bool) {k : Nat} (hk : k < infinityRank) :
    ∃ p : Pattern, p.msb = negative ∧ p.rank = k := by
  have hk : k < 2 ^ 63 := hk.trans (by decide)
  refine ⟨BitVec.ofNat 64 (Binary64.signBit negative + k), ?_, ?_⟩
  · rw [BitVec.msb_eq_decide, BitVec.toNat_ofNat]
    cases negative <;> simp [Binary64.signBit] <;> omega
  · rw [rank, BitVec.toNat_ofNat]
    cases negative <;> simp [Binary64.signBit] <;> omega

theorem storedExponent_eq (p : Pattern) : p.storedExponent = p.rank / binadeSize := by
  have hlt := p.isLt
  rw [storedExponent, BitVec.extractLsb'_toNat, Nat.shiftRight_eq_div_pow, rank,
    show binadeSize = 2 ^ 52 from rfl]
  omega

theorem fraction_eq (p : Pattern) : p.fraction = p.rank % binadeSize := by
  rw [fraction, BitVec.extractLsb'_toNat, Nat.shiftRight_zero, rank,
    show binadeSize = 2 ^ 52 from rfl]
  omega

theorem isFinite_iff : p.IsFinite ↔ p.rank < infinityRank := by
  have hlt := p.rank_lt
  rw [IsFinite, storedExponent_eq, infinityRank, show binadeSize = 2 ^ 52 from rfl] at *
  omega

theorem significand_mod_two (p : Pattern) : p.significand % 2 = p.rank % 2 := by
  rw [significand, storedExponent_eq, fraction_eq, show binadeSize = 2 ^ 52 from rfl]
  split <;> omega

/-! ## Magnitudes -/

/-- The magnitude of a rank. -/
def magnitudeOfRank (k : Nat) : Rat :=
  Binary64.unitsOfRank k / Binary64.unitsOfOne

theorem cast_two_pow (n : Nat) : ((Nat.pow 2 n : Nat) : Rat) = 2 ^ n := by
  rw [Nat.pow_eq, Nat.cast_pow, Nat.cast_ofNat]

theorem cast_unitsOfOne : (Binary64.unitsOfOne : Rat) = 2 ^ 1074 := by
  unfold Binary64.unitsOfOne
  generalize 1074 = n
  exact cast_two_pow n

theorem unitsOfOne_pos : (0 : Rat) < Binary64.unitsOfOne := by
  rw [cast_unitsOfOne]
  positivity

theorem strictMono_magnitudeOfRank : StrictMono magnitudeOfRank := by
  intro j k hlt
  have hunits := Binary64.strictMono_unitsOfRank hlt
  exact div_lt_div_of_pos_right (Nat.cast_lt.2 hunits) unitsOfOne_pos

theorem significand_eq (p : Pattern) :
    p.significand = p.rank - Binary64.shiftOfRank p.rank * binadeSize := by
  have hrank := Nat.div_add_mod' p.rank binadeSize
  rw [significand, storedExponent_eq, fraction_eq, Binary64.shiftOfRank]
  cases hbinade : p.rank / binadeSize with
  | zero =>
    rw [hbinade, Nat.zero_mul, Nat.zero_add] at hrank
    rw [if_pos rfl, hrank, Nat.zero_sub, Nat.zero_mul, Nat.sub_zero]
  | succ shift =>
    rw [hbinade, Nat.succ_mul] at hrank
    rw [if_neg (Nat.succ_ne_zero shift), Nat.add_sub_cancel, show 2 ^ 52 = binadeSize from rfl]
    omega

theorem exponent_eq (p : Pattern) : p.exponent = (Binary64.shiftOfRank p.rank : Int) - 1074 := by
  rw [exponent, storedExponent_eq, Binary64.shiftOfRank]
  omega

/-- The magnitude of a pattern is that of its rank. -/
theorem magnitude_eq (p : Pattern) : p.magnitude = magnitudeOfRank p.rank := by
  rw [magnitude, significand_eq, exponent_eq, magnitudeOfRank, Binary64.unitsOfRank,
    zpow_sub₀ two_ne_zero, zpow_natCast, Nat.cast_mul, cast_two_pow, mul_div_assoc,
    cast_unitsOfOne]
  rfl

theorem magnitudeOfRank_nonneg (k : Nat) : 0 ≤ magnitudeOfRank k :=
  div_nonneg (Nat.cast_nonneg _) unitsOfOne_pos.le

@[simp] theorem magnitudeOfRank_zero : magnitudeOfRank 0 = 0 := by
  rw [magnitudeOfRank, Binary64.unitsOfRank_zero, Nat.cast_zero, zero_div]

/-! ## Signs -/

theorem abs_withSign (negative : Bool) (x : Rat) : |withSign negative x| = |x| := by
  cases negative
  · rfl
  · exact abs_neg x

theorem abs_withSign_sub (negative : Bool) (x y : Rat) :
    |withSign negative x - withSign negative y| = |x - y| := by
  cases negative
  · rfl
  · rw [show withSign true x - withSign true y = -(x - y) by simp only [withSign, if_true]; ring,
      abs_neg]

theorem decide_withSign_lt_zero (negative : Bool) {x : Rat} (hx : 0 < x) :
    decide (withSign negative x < 0) = negative := by
  cases negative
  · simp [withSign, hx.le]
  · simp [withSign, hx]

theorem abs_value (p : Pattern) : |p.value| = magnitudeOfRank p.rank := by
  rw [value, abs_withSign, magnitude_eq, abs_of_nonneg (magnitudeOfRank_nonneg _)]

theorem abs_value_sub (p : Pattern) (x : Rat) :
    |p.value - withSign p.msb x| = |magnitudeOfRank p.rank - x| := by
  rw [value, abs_withSign_sub, magnitude_eq]

theorem abs_magnitude_sub_le (q : Pattern) (negative : Bool) {x : Rat} (hx : 0 ≤ x) :
    |magnitudeOfRank q.rank - x| ≤ |q.value - withSign negative x| := by
  have habs := abs_abs_sub_abs_le q.value (withSign negative x)
  rwa [abs_value, abs_withSign, abs_of_nonneg hx] at habs

theorem value_eq_of_abs_eq {x : Rat} (hx : 0 ≤ x) (hrank : q.rank = p.rank)
    (hzero : |magnitudeOfRank p.rank - x| ≤ x)
    (h : |q.value - withSign p.msb x| = |magnitudeOfRank p.rank - x|) : q.value = p.value := by
  by_cases hsign : q.msb = p.msb
  · rw [value, value, hsign, magnitude_eq, magnitude_eq, hrank]
  · have hnonneg := magnitudeOfRank_nonneg p.rank
    have hopposite : q.value = withSign p.msb (-magnitudeOfRank p.rank) := by
      rw [value, magnitude_eq, hrank]
      cases hq : q.msb <;> cases hp : p.msb <;> simp_all [withSign]
    have hsum : |-magnitudeOfRank p.rank - x| = magnitudeOfRank p.rank + x := by
      rw [abs_of_nonpos (by linarith)]
      ring
    rw [hopposite, abs_withSign_sub, hsum] at h
    have hnone : magnitudeOfRank p.rank = 0 := by linarith
    rw [hopposite, value, magnitude_eq, hnone, neg_zero]

/-- **Nearest patterns are those of nearest ranks.** -/
theorem isNearest_iff {x : Rat} (hx : 0 ≤ x) :
    p.IsNearest (withSign p.msb x) ↔ IsNearestBelow magnitudeOfRank infinityRank x p.rank := by
  constructor
  · intro h
    -- The patterns of the same sign are as many as the ranks.
    have hpattern : ∀ k < infinityRank, ∃ q : Pattern, q.IsFinite ∧ q.rank = k ∧
        |q.value - withSign p.msb x| = |magnitudeOfRank k - x| := by
      intro k hk
      obtain ⟨q, hsign, hrank⟩ := exists_of_rank p.msb hk
      refine ⟨q, isFinite_iff.2 (hrank ▸ hk), hrank, ?_⟩
      rw [← hsign, abs_value_sub, hrank]
    refine ⟨isFinite_iff.1 h.isFinite, fun k hk => ?_, fun k hk hne htie => ?_⟩
    · obtain ⟨q, hfinite, -, hdist⟩ := hpattern k hk
      rw [← abs_value_sub, ← hdist]
      exact h.dist_le q hfinite
    · obtain ⟨q, hfinite, hrank, hdist⟩ := hpattern k hk
      rw [← significand_mod_two]
      refine h.even q hfinite (fun hvalue => hne ?_) (by rw [hdist, htie, abs_value_sub])
      rw [← hrank]
      exact strictMono_magnitudeOfRank.injective (by rw [← abs_value, hvalue, abs_value])
  · intro h
    refine ⟨isFinite_iff.2 h.lt, fun q hq => ?_, fun q hq hne htie => ?_⟩
    · rw [abs_value_sub]
      exact (h.dist_le _ (isFinite_iff.1 hq)).trans (abs_magnitude_sub_le q _ hx)
    · rw [abs_value_sub] at htie
      have hdist := h.dist_le _ (isFinite_iff.1 hq)
      have hmagnitude := abs_magnitude_sub_le q p.msb hx
      have hzero := h.dist_le 0 (Nat.mul_pos (by decide) (Nat.pow_pos (by decide)))
      rw [magnitudeOfRank_zero, zero_sub, abs_neg, abs_of_nonneg hx] at hzero
      rw [significand_mod_two]
      refine h.even q.rank (isFinite_iff.1 hq) (fun hrank => hne ?_) (by linarith)
      exact value_eq_of_abs_eq hx hrank hzero htie

/-! ## The limits of the format -/

/-- The nearest rank of a quotient of units is the place that its magnitude is rounded to. -/
theorem roundsAt_nearestRank (num : Nat) {den : Nat} (hden : 0 < den) :
    RoundsAt magnitudeOfRank (num / den / Binary64.unitsOfOne)
      (Binary64.nearestRank num den) := by
  intro k
  have hpos : (0 : Rat) < den := Nat.cast_pos.2 hden
  rw [Binary64.nearestRank_le_iff hden, magnitudeOfRank, magnitudeOfRank, ← add_div,
    ← mul_div_assoc, ← mul_div_assoc, div_lt_div_iff_of_pos_right unitsOfOne_pos,
    div_left_inj' unitsOfOne_pos.ne', div_lt_iff₀ hpos, div_eq_iff hpos.ne']
  norm_cast

theorem magnitudeOfRank_add_infinityRank :
    magnitudeOfRank (infinityRank - 1) + magnitudeOfRank infinityRank = 2 * overflow := by
  have hlast := Binary64.unitsOfRank_add 2045 (2 ^ 53 - 1) (.inr (by decide)) (by decide)
  have hnext := Binary64.unitsOfRank_succ (infinityRank - 1)
  rw [show 2045 * binadeSize + (2 ^ 53 - 1) = infinityRank - 1 by decide] at hlast
  rw [show infinityRank - 1 + 1 = infinityRank by decide,
    show Binary64.shiftOfRank (infinityRank - 1) = 2045 by decide] at hnext
  have hpow : (2 : Rat) ^ 2045 = 2 ^ 970 * 2 * 2 ^ 1074 := by
    rw [← pow_succ, ← pow_add]
  have hoverflow : overflow = (2 ^ 54 - 1) * 2 ^ 970 := by
    rw [overflow, sub_mul, ← pow_add, one_mul]
  have hunit : (2 : Rat) ^ 1074 ≠ 0 := by positivity
  rw [magnitudeOfRank, magnitudeOfRank, hnext, hlast, Nat.cast_add, Nat.cast_mul, Nat.cast_pow,
    Nat.cast_ofNat, cast_unitsOfOne, hpow, hoverflow]
  generalize (2 : Rat) ^ 1074 = unit at hunit
  generalize (2 : Rat) ^ 970 = step
  field_simp
  norm_num

variable {x : Rat} {k : Nat}

/-- A quotient is rounded to a finite rank exactly if it is below the overflow. The midpoint itself
is rounded up, since the rank behind the last is even. -/
theorem lt_infinityRank_iff (h : RoundsAt magnitudeOfRank x k) :
    k < infinityRank ↔ x < overflow := by
  have hlast := h (infinityRank - 1)
  rw [show infinityRank - 1 + 1 = infinityRank by decide, magnitudeOfRank_add_infinityRank,
    show (infinityRank - 1) % 2 = 1 by decide] at hlast
  rw [Nat.lt_iff_le_pred (by decide), hlast]
  simp

theorem eq_zero_iff (h : RoundsAt magnitudeOfRank x k) : k = 0 ↔ x ≤ 2 ^ (-1075 : Int) := by
  have hfirst := h 0
  have hunit : magnitudeOfRank 1 = 2 * 2 ^ (-1075 : Int) := by
    rw [magnitudeOfRank, Binary64.unitsOfRank_of_lt (by decide), cast_unitsOfOne,
      show (-1075 : Int) = -((1074 + 1 : Nat) : Int) by rfl, zpow_neg, zpow_natCast]
    generalize 1074 = n
    rw [pow_succ]
    field_simp
    norm_num
  rw [magnitudeOfRank_zero, zero_add, hunit] at hfirst
  rw [← Nat.le_zero, hfirst, le_iff_lt_or_eq]
  simp

/-! ## Rounding a quotient -/

theorem overflow_pos : 0 < overflow :=
  sub_pos.2 (pow_lt_pow_right₀ (by norm_num) (by norm_num))

theorem msb_infinity (negative : Bool) : (infinity negative).msb = negative := by
  cases negative <;> decide

theorem toNat_infinity (negative : Bool) :
    (infinity negative).toNat = Binary64.signBit negative + infinityRank := by
  cases negative <;> decide

/-- A magnitude with a finite rank is rounded to the pattern of that rank only. -/
theorem rounds_iff_of_lt {negative : Bool} (hx : 0 ≤ x) (h : RoundsAt magnitudeOfRank x k)
    (hk : k < infinityRank) :
    q.Rounds negative (withSign negative x) ↔ q.msb = negative ∧ q.rank = k := by
  have hnearest := h.isNearestBelow_iff strictMono_magnitudeOfRank hk (k := q.rank)
  have habs : |withSign negative x| = x := by rw [abs_withSign, abs_of_nonneg hx]
  have hlt := (lt_infinityRank_iff h).1 hk
  constructor
  · intro hrounds
    refine ⟨hrounds.msb_eq, hnearest.1 ?_⟩
    rw [← isNearest_iff hx, hrounds.msb_eq]
    exact hrounds.nearest (habs.symm ▸ hlt)
  · rintro ⟨rfl, hrank⟩
    have hq := (isNearest_iff hx).2 (hnearest.2 hrank)
    refine ⟨rfl, fun _ => hq, fun hle => ?_, fun hle => ⟨hq.isFinite, ?_⟩⟩
    · exact absurd (habs ▸ hle) (not_le.2 hlt)
    · rw [habs, ← eq_zero_iff h] at hle
      rw [← abs_eq_zero, abs_value, hrank, hle, magnitudeOfRank_zero]

/-- A magnitude beyond the finite ranks is rounded to an infinity only. -/
theorem rounds_iff_of_le {negative : Bool} (hx : 0 ≤ x) (h : RoundsAt magnitudeOfRank x k)
    (hk : infinityRank ≤ k) :
    q.Rounds negative (withSign negative x) ↔ q = infinity negative := by
  have habs : |withSign negative x| = x := by rw [abs_withSign, abs_of_nonneg hx]
  have hle := not_lt.1 (mt (lt_infinityRank_iff h).2 (Nat.not_lt.2 hk))
  have hsign := decide_withSign_lt_zero negative (overflow_pos.trans_le hle)
  constructor
  · intro hrounds
    rw [← hsign]
    exact hrounds.infinite (habs.symm ▸ hle)
  · rintro rfl
    refine ⟨msb_infinity negative, fun hlt => ?_, fun _ => by rw [hsign], fun hzero => ?_⟩
    · exact absurd (habs ▸ hlt) (not_lt.2 hle)
    · rw [habs, ← eq_zero_iff h] at hzero
      rw [hzero] at hk
      exact absurd hk (by decide)

end Pattern

/-- **A quotient is correctly rounded**: its pattern, and no other, is the one that its value is
rounded to. -/
theorem Binary64.rounds_ofQuotient (negative : Bool) (num : Nat) {den : Nat} (hden : 0 < den) :
    ∃ p : Pattern, (ofQuotient negative num den).bits = p.toNat ∧
      ∀ q : Pattern,
        q.Rounds negative (Pattern.withSign negative (num / den / unitsOfOne)) ↔ q = p := by
  have hx : (0 : Rat) ≤ num / den / unitsOfOne :=
    div_nonneg (div_nonneg (Nat.cast_nonneg _) (Nat.cast_nonneg _)) Pattern.unitsOfOne_pos.le
  have hrounds := Pattern.roundsAt_nearestRank num hden
  rcases Nat.lt_or_ge (nearestRank num den) infinityRank with hlt | hge
  · obtain ⟨p, hsign, hrank⟩ := Pattern.exists_of_rank negative hlt
    refine ⟨p, ?_, fun q => ?_⟩
    · rw [p.toNat_eq, hsign, hrank, ofQuotient]
      simp only [hlt, dif_pos]
      rfl
    · rw [Pattern.rounds_iff_of_lt hx hrounds hlt]
      constructor
      · rintro ⟨hsign', hrank'⟩
        exact Pattern.ext_rank (hsign'.trans hsign.symm) (hrank'.trans hrank.symm)
      · rintro rfl
        exact ⟨hsign, hrank⟩
  · refine ⟨Pattern.infinity negative, ?_, fun q => Pattern.rounds_iff_of_le hx hrounds hge⟩
    rw [Pattern.toNat_infinity, ofQuotient]
    simp only [Nat.not_lt.2 hge, dif_neg, not_false_iff]
    rfl

end Calculator
