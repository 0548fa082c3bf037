import Calculator.Number.Binary64.Basic
import Mathlib.Order.Monotone.Basic
import Mathlib.Tactic.Ring

/-!
# Ranks

The finite magnitudes of binary64 are numbered upward from zero. A rank is a place in a binade
(`unitsOfRank_add`), and from one rank to the next the units grow by the unit of the binade
(`unitsOfRank_succ`). So ranks and magnitudes are in the same order, including the rank behind the
last finite one, at which the next binade would start.

Main result: `nearestRank_le_iff`. The nearest rank of a number of units is the first one whose
midpoint to the next exceeds it, or equals it if the rank is even.
-/

namespace Calculator.Binary64

/-! ## Units -/

/-- The units at a place of a binade. The place behind the last is the first of the next binade. -/
theorem unitsOfRank_add (shift place : Nat) (hlow : shift = 0 ∨ binadeSize ≤ place)
    (hhigh : place ≤ 2 * binadeSize) :
    unitsOfRank (shift * binadeSize + place) = place * 2 ^ shift := by
  have hsize : 0 < binadeSize := Nat.pow_pos (by decide)
  have hquotient : (shift * binadeSize + place) / binadeSize = shift + place / binadeSize := by
    rw [Nat.add_comm, Nat.add_mul_div_right _ _ hsize, Nat.add_comm]
  rcases Nat.lt_or_eq_of_le hhigh with hlt | rfl
  · have hshift : shiftOfRank (shift * binadeSize + place) = shift := by
      rw [shiftOfRank, hquotient]
      rcases Nat.lt_or_ge place binadeSize with hsmall | hlarge
      · rw [Nat.div_eq_of_lt hsmall]
        omega
      · rw [Nat.div_eq_of_lt_le (by omega) (by omega : place < (1 + 1) * binadeSize)]
        omega
    rw [unitsOfRank, hshift, Nat.add_sub_cancel_left]
    rfl
  · have hshift : shiftOfRank (shift * binadeSize + 2 * binadeSize) = shift + 1 := by
      rw [shiftOfRank, hquotient, Nat.mul_div_cancel _ hsize]
      omega
    have hplace : shift * binadeSize + 2 * binadeSize - (shift + 1) * binadeSize = binadeSize := by
      rw [Nat.add_mul]
      omega
    rw [unitsOfRank, hshift, hplace, Nat.pow_eq]
    ring

theorem exists_place (rank : Nat) :
    ∃ place, rank = shiftOfRank rank * binadeSize + place ∧
      (shiftOfRank rank = 0 ∨ binadeSize ≤ place) ∧ place < 2 * binadeSize := by
  have hsize : 0 < binadeSize := Nat.pow_pos (by decide)
  have hsum := Nat.div_add_mod' rank binadeSize
  have hmod := Nat.mod_lt rank hsize
  generalize rank % binadeSize = rest at hsum hmod
  refine ⟨rank - shiftOfRank rank * binadeSize, ?_⟩
  unfold shiftOfRank
  cases hquotient : rank / binadeSize with
  | zero =>
    rw [hquotient] at hsum
    simp only [Nat.zero_sub, Nat.zero_mul, Nat.sub_zero, Nat.zero_add] at hsum ⊢
    exact ⟨trivial, .inl trivial, by omega⟩
  | succ binade =>
    rw [hquotient, Nat.succ_mul] at hsum
    simp only [Nat.succ_sub_one]
    omega

theorem unitsOfRank_succ (rank : Nat) :
    unitsOfRank (rank + 1) = unitsOfRank rank + 2 ^ shiftOfRank rank := by
  obtain ⟨place, hrank, hlow, hhigh⟩ := exists_place rank
  have hnext := unitsOfRank_add (shiftOfRank rank) (place + 1) (by omega) hhigh
  rw [← Nat.add_assoc, ← hrank] at hnext
  have hthis := unitsOfRank_add _ _ hlow hhigh.le
  rw [← hrank] at hthis
  rw [hnext, hthis, Nat.succ_mul]

theorem strictMono_unitsOfRank : StrictMono unitsOfRank :=
  strictMono_nat_of_lt_succ fun rank => by
    have := Nat.two_pow_pos (shiftOfRank rank)
    rw [unitsOfRank_succ]
    omega

/-! ## The nearest rank -/

theorem exists_shift (num den : Nat) :
    ∃ shift, nearestRank num den =
        shift * binadeSize + roundQuotient num (den * 2 ^ shift) ∧
      (shift = 0 ∨ binadeSize ≤ num / (den * 2 ^ shift)) ∧
      num / (den * 2 ^ shift) < 2 * binadeSize := by
  refine ⟨Nat.log2 (num / den) - 52, rfl, ?_⟩
  generalize hn : num / den = n
  rw [← Nat.div_div_eq_div_mul, hn]
  have hsize : 2 * binadeSize = 2 ^ 53 := rfl
  have hlt := Nat.lt_log2_self (n := n)
  rcases Nat.lt_or_ge 52 n.log2 with hlarge | hsmall
  · constructor
    · refine .inr ((Nat.le_div_iff_mul_le (Nat.two_pow_pos _)).2 ?_)
      rw [binadeSize, Nat.pow_eq, ← Nat.pow_add, Nat.add_sub_cancel' hlarge.le]
      exact Nat.log2_self_le (by rintro rfl; simp at hlarge)
    · rw [Nat.div_lt_iff_lt_mul (Nat.two_pow_pos _), hsize, ← Nat.pow_add]
      rwa [show 53 + (n.log2 - 52) = n.log2 + 1 by omega]
  · rw [Nat.sub_eq_zero_of_le hsmall, Nat.pow_zero, Nat.div_one, hsize]
    exact ⟨.inl rfl, hlt.trans_le (Nat.pow_le_pow_right (by decide) (by omega))⟩

/-- A number of units lies between those of two neighbouring ranks, and is rounded to one of them by
their midpoint. -/
theorem exists_neighbours (num : Nat) {den : Nat} (hden : 0 < den) :
    ∃ rank, unitsOfRank rank * den ≤ num ∧ num < unitsOfRank (rank + 1) * den ∧
      (nearestRank num den = rank ∨ nearestRank num den = rank + 1) ∧
      (nearestRank num den ≤ rank ↔
        2 * num < (unitsOfRank rank + unitsOfRank (rank + 1)) * den ∨
          (2 * num = (unitsOfRank rank + unitsOfRank (rank + 1)) * den ∧ rank % 2 = 0)) := by
  obtain ⟨shift, hrank, hlow, hhigh⟩ := exists_shift num den
  have hpos : 0 < den * 2 ^ shift := Nat.mul_pos hden (Nat.two_pow_pos shift)
  have hunits : ∀ place, (shift = 0 ∨ binadeSize ≤ place) → place ≤ 2 * binadeSize →
      unitsOfRank (shift * binadeSize + place) * den = place * (den * 2 ^ shift) := by
    intro place hlow hhigh
    rw [unitsOfRank_add _ _ hlow hhigh]
    ring
  have hfloor := hunits _ hlow hhigh.le
  have hceil := hunits (num / (den * 2 ^ shift) + 1) (by omega) hhigh
  have hneighbour := roundQuotient_eq_or num (den * 2 ^ shift)
  have hround := roundQuotient_le_iff num (num / (den * 2 ^ shift)) hpos
  have hsum := Nat.div_add_mod' num (den * 2 ^ shift)
  have hrest := Nat.mod_lt num hpos
  generalize num / (den * 2 ^ shift) = place at *
  generalize den * 2 ^ shift = d at *
  rw [← Nat.add_assoc] at hceil
  -- A binade has an even number of ranks, so a rank is even exactly if its place is.
  have heven : (shift * binadeSize + place) % 2 = place % 2 := by
    have : shift * binadeSize = 2 * (shift * 2 ^ 51) := by rw [binadeSize, Nat.pow_eq]; ring
    omega
  have hmiddle : (unitsOfRank (shift * binadeSize + place) +
      unitsOfRank (shift * binadeSize + place + 1)) * den = (2 * place + 1) * d := by
    rw [Nat.add_mul, hfloor, hceil]
    ring
  refine ⟨shift * binadeSize + place, ?_, ?_, ?_, ?_⟩
  · omega
  · rw [hceil, Nat.succ_mul]
    omega
  · omega
  · rw [hmiddle, heven, ← hround]
    omega

/-- **The nearest rank** is at most a rank exactly if the number of units is below the midpoint to
the next rank, or equals it and the rank is even. -/
theorem nearestRank_le_iff {num den k : Nat} (hden : 0 < den) :
    nearestRank num den ≤ k ↔
      2 * num < (unitsOfRank k + unitsOfRank (k + 1)) * den ∨
        (2 * num = (unitsOfRank k + unitsOfRank (k + 1)) * den ∧ k % 2 = 0) := by
  obtain ⟨rank, hfloor, hceil, hneighbour, hround⟩ := exists_neighbours num hden
  rcases Nat.lt_trichotomy k rank with hlt | rfl | hgt
  · have hthis := strictMono_unitsOfRank (Nat.lt_add_one k)
    have hnext := strictMono_unitsOfRank.monotone (Nat.add_one_le_of_lt hlt)
    have hbeyond : (unitsOfRank k + unitsOfRank (k + 1)) * den < 2 * num := by
      calc (unitsOfRank k + unitsOfRank (k + 1)) * den
          < 2 * unitsOfRank rank * den := Nat.mul_lt_mul_of_pos_right (by omega) hden
        _ ≤ 2 * num := by rw [Nat.mul_assoc]; omega
    omega
  · exact hround
  · have hthis := strictMono_unitsOfRank.monotone (Nat.add_one_le_of_lt hgt)
    have hnext := strictMono_unitsOfRank (Nat.lt_add_one k)
    have hbefore : 2 * num < (unitsOfRank k + unitsOfRank (k + 1)) * den := by
      calc 2 * num < 2 * unitsOfRank (rank + 1) * den := by rw [Nat.mul_assoc]; omega
        _ ≤ (unitsOfRank k + unitsOfRank (k + 1)) * den :=
            Nat.mul_le_mul_right den (by omega)
    omega

end Calculator.Binary64
