import Mathlib.Algebra.Order.Field.Rat
import Mathlib.Algebra.Order.Ring.Abs
import Mathlib.Order.Monotone.Basic
import Mathlib.Tactic.Linarith
import Mathlib.Tactic.Ring

/-!
# Rounding by midpoints

A number is rounded to the nearest member of a strictly increasing row, and at a midpoint to the
member at an even place. This is stated in two ways: by comparison with the midpoints of neighbours
(`RoundsAt`), which is how the rounding is computed, and by comparison of the distances from all
members (`IsNearestBelow`), which is the specification.

Main result: `RoundsAt.isNearestBelow_iff`, both agree on the places up to any bound.
-/

namespace Calculator

/-- The place in a row that a number is rounded to: the first one whose midpoint to the next exceeds
the number, or equals it if the place is even. -/
def RoundsAt (row : Nat → Rat) (x : Rat) (place : Nat) : Prop :=
  ∀ k, place ≤ k ↔
    2 * x < row k + row (k + 1) ∨ (2 * x = row k + row (k + 1) ∧ k % 2 = 0)

/-- Of the first members of a row, none is nearer than the one at this place; if another is equally
near, the place is even. -/
structure IsNearestBelow (row : Nat → Rat) (bound : Nat) (x : Rat) (place : Nat) : Prop where
  lt : place < bound
  dist_le : ∀ k < bound, |row place - x| ≤ |row k - x|
  even : ∀ k < bound, k ≠ place → |row k - x| = |row place - x| → place % 2 = 0

/-! ## Two numbers of a row -/

section

variable {a b x : Rat}

theorem abs_sub_le_abs_sub_iff (h : a < b) : |a - x| ≤ |b - x| ↔ 2 * x ≤ a + b := by
  have hsquares : (b - x) ^ 2 - (a - x) ^ 2 = (b - a) * (a + b - 2 * x) := by ring
  rw [← sq_le_sq, ← sub_nonneg, hsquares, mul_nonneg_iff_of_pos_left (sub_pos.2 h), sub_nonneg]

theorem abs_sub_ge_abs_sub_iff (h : a < b) : |b - x| ≤ |a - x| ↔ a + b ≤ 2 * x := by
  have hsquares : (a - x) ^ 2 - (b - x) ^ 2 = (b - a) * (2 * x - (a + b)) := by ring
  rw [← sq_le_sq, ← sub_nonneg, hsquares, mul_nonneg_iff_of_pos_left (sub_pos.2 h), sub_nonneg]

theorem abs_sub_eq_abs_sub_iff (h : a < b) : |a - x| = |b - x| ↔ 2 * x = a + b := by
  rw [le_antisymm_iff, abs_sub_le_abs_sub_iff h, abs_sub_ge_abs_sub_iff h, ← le_antisymm_iff]

end

/-! ## The nearest of a row -/

section

variable {row : Nat → Rat} (hrow : StrictMono row) {x : Rat} {place bound : Nat}
  (h : RoundsAt row x place)

include h

theorem RoundsAt.le_midpoint :
    2 * x < row place + row (place + 1) ∨
      (2 * x = row place + row (place + 1) ∧ place % 2 = 0) :=
  (h place).1 (Nat.le_refl _)

theorem RoundsAt.midpoint_le {k : Nat} (hk : k < place) :
    row k + row (k + 1) < 2 * x ∨ (2 * x = row k + row (k + 1) ∧ k % 2 = 1) := by
  have hnot := mt (h k).2 (Nat.not_le.2 hk)
  simp only [not_or, not_and, not_lt] at hnot
  rcases hnot.1.lt_or_eq with hlt | heq
  · exact .inl hlt
  · have := hnot.2 heq.symm
    exact .inr ⟨heq.symm, by omega⟩

include hrow

/-- No member of the row is nearer than the one that is rounded to. -/
theorem RoundsAt.dist_le (k : Nat) : |row place - x| ≤ |row k - x| := by
  rcases Nat.lt_trichotomy k place with hlt | rfl | hgt
  · obtain ⟨next, rfl⟩ := Nat.exists_eq_add_of_lt hlt
    have hmid := h.midpoint_le (k := k + next) (Nat.lt_add_one _)
    have hle := hrow.monotone (Nat.le_add_right k next)
    rw [abs_sub_ge_abs_sub_iff (hrow hlt)]
    rcases hmid with hmid | ⟨hmid, -⟩ <;> linarith
  · exact le_rfl
  · have hle := hrow.monotone (Nat.succ_le_of_lt hgt)
    rw [abs_sub_le_abs_sub_iff (hrow hgt)]
    rcases h.le_midpoint with hmid | ⟨hmid, -⟩ <;> linarith

/-- If another member is equally near, it is a neighbour at an odd place. -/
theorem RoundsAt.even_of_tie {k : Nat} (hne : k ≠ place) (htie : |row k - x| = |row place - x|) :
    place % 2 = 0 := by
  rcases Nat.lt_or_gt_of_ne hne with hlt | hgt
  · obtain ⟨next, rfl⟩ := Nat.exists_eq_add_of_lt hlt
    have hle := hrow.monotone (Nat.le_add_right k next)
    have heq := (abs_sub_eq_abs_sub_iff (hrow hlt)).1 htie
    rcases h.midpoint_le (k := k + next) (Nat.lt_add_one _) with hmid | ⟨-, hodd⟩
    · linarith
    · omega
  · have hle := hrow.monotone (Nat.succ_le_of_lt hgt)
    have heq := (abs_sub_eq_abs_sub_iff (hrow hgt)).1 htie.symm
    rcases h.le_midpoint with hmid | ⟨-, heven⟩
    · linarith
    · exact heven

/-- **Rounding by midpoints is rounding to nearest.** -/
theorem RoundsAt.isNearestBelow_iff (hbound : place < bound) {k : Nat} :
    IsNearestBelow row bound x k ↔ k = place := by
  constructor
  · intro hk
    refine Nat.le_antisymm (Nat.not_lt.1 fun hlt => ?_) ((h k).2 ?_)
    · -- The midpoint below is left behind, but not by what is rounded to the place below it.
      obtain ⟨below, rfl⟩ : ∃ below, k = below + 1 := ⟨k - 1, by omega⟩
      have hbelow := below.lt_add_one
      have hmid := (abs_sub_ge_abs_sub_iff (hrow hbelow)).1 (hk.dist_le below (hbelow.trans hk.lt))
      rcases (h below).1 (Nat.le_of_lt_succ hlt) with hless | ⟨heq, heven⟩
      · linarith
      · have := hk.even below (hbelow.trans hk.lt) hbelow.ne
          ((abs_sub_eq_abs_sub_iff (hrow hbelow)).2 heq)
        omega
    · rcases Nat.lt_or_ge (k + 1) bound with habove | hlast
      · have hmid := (abs_sub_le_abs_sub_iff (hrow k.lt_add_one)).1 (hk.dist_le _ habove)
        rcases hmid.lt_or_eq with hless | heq
        · exact .inl hless
        · exact .inr ⟨heq, hk.even _ habove (Nat.succ_ne_self k)
            ((abs_sub_eq_abs_sub_iff (hrow k.lt_add_one)).2 heq).symm⟩
      · exact (h k).1 (by omega)
  · rintro rfl
    exact ⟨hbound, fun j _ => h.dist_le hrow j, fun j _ hne htie => h.even_of_tie hrow hne htie⟩

end

end Calculator
