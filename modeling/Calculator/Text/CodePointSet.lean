/-!
# Sets of code points

A property of characters, given by ranges of code points in ascending order. Membership is tested by
binary search. The order of the ranges is part of the structure, so the search finds exactly the
characters in the ranges (`CodePointSet.contains_iff`).
-/

namespace Calculator

/-- Whether ranges with both ends included ascend from a code point on without overlap. -/
def ascendFrom : Nat → List (Nat × Nat) → Bool
  | _, [] => true
  | least, (low, high) :: ranges => least ≤ low && low ≤ high && ascendFrom (high + 1) ranges

/-- A set of characters, given by ranges of code points. -/
structure CodePointSet where
  /-- The ranges, with both ends included. -/
  ranges : Array (Nat × Nat)
  /-- The ranges ascend, as the search needs it. -/
  ascending : ascendFrom 0 ranges.toList = true := by decide +kernel

namespace CodePointSet

instance : Membership Char CodePointSet where
  mem set c := ∃ range ∈ set.ranges, range.1 ≤ c.toNat ∧ c.toNat ≤ range.2

/-- Whether a range ends before another starts. -/
def before (range other : Nat × Nat) : Bool :=
  range.2 < other.1

/-- Whether a character is in the set. Only a range that contains its code point is neither before
nor after it. -/
def contains (set : CodePointSet) (c : Char) : Bool :=
  set.ranges.binSearchContains (c.toNat, c.toNat) before

/-! ## The search -/

theorem pairwise_of_ascendFrom {least : Nat} {ranges : List (Nat × Nat)}
    (h : ascendFrom least ranges) :
    (∀ range ∈ ranges, least ≤ range.1 ∧ range.1 ≤ range.2) ∧
      ranges.Pairwise fun range other => range.2 < other.1 := by
  induction ranges generalizing least with
  | nil => exact ⟨by simp, .nil⟩
  | cons range ranges ih =>
    obtain ⟨low, high⟩ := range
    simp only [ascendFrom, Bool.and_eq_true, decide_eq_true_eq] at h
    obtain ⟨⟨hleast, hrange⟩, hrest⟩ := h
    obtain ⟨hmem, hpairwise⟩ := ih hrest
    refine ⟨List.forall_mem_cons.2 ⟨⟨hleast, hrange⟩, fun other hother => ?_⟩,
      .cons (fun other hother => (hmem other hother).1) hpairwise⟩
    have hother := hmem other hother
    omega

variable {set : CodePointSet} {i j code : Nat}

theorem fst_le_snd (h : i < set.ranges.size) : set.ranges[i].1 ≤ set.ranges[i].2 :=
  ((pairwise_of_ascendFrom set.ascending).1 _ (Array.getElem_mem h).val).2

theorem snd_lt_fst (hij : i < j) (h : j < set.ranges.size) :
    set.ranges[i].2 < set.ranges[j].1 :=
  List.pairwise_iff_getElem.1 (pairwise_of_ascendFrom set.ascending).2 i j (by simp; omega) h hij

/-- Ranges that come in this order have their ends in this order. -/
theorem ends_le_ends (hij : i ≤ j) (h : j < set.ranges.size) :
    set.ranges[i].1 ≤ set.ranges[j].1 ∧ set.ranges[i].2 ≤ set.ranges[j].2 := by
  rcases Nat.lt_or_eq_of_le hij with hij | rfl
  · have hfirst := fst_le_snd (Nat.lt_trans hij h)
    have hgap := snd_lt_fst hij h
    have hsecond := fst_le_snd h
    omega
  · exact ⟨Nat.le_refl _, Nat.le_refl _⟩

theorem lt_of_snd_lt (hi : i < set.ranges.size) (hj : j < set.ranges.size)
    (hlow : set.ranges[i].2 < code) (hcode : code ≤ set.ranges[j].2) : i < j := by
  refine Nat.lt_of_not_le fun hji => ?_
  have hends := ends_le_ends hji hi
  omega

theorem lt_of_lt_fst (hi : i < set.ranges.size) (hj : j < set.ranges.size)
    (hhigh : code < set.ranges[j].1) (hcode : set.ranges[i].1 ≤ code) : i < j := by
  refine Nat.lt_of_not_le fun hji => ?_
  have hends := ends_le_ends hji hi
  omega

/-- The search of a window finds a range in it that contains the code point, if there is one. The
half that is left out lies on one side of the code point. -/
theorem binSearchAux_iff (code : Nat) (lo : Fin (set.ranges.size + 1)) (hi : Fin set.ranges.size)
    (h : lo.1 ≤ hi.1) :
    Array.binSearchAux before Option.isSome set.ranges (code, code) lo hi h ↔
      ∃ i, ∃ hsize : i < set.ranges.size, lo.1 ≤ i ∧ i ≤ hi.1 ∧
        set.ranges[i].1 ≤ code ∧ code ≤ set.ranges[i].2 := by
  fun_induction Array.binSearchAux with
  | case1 lo hi h m a hlow hnext _ ih =>
    have hm : m < set.ranges.size := by omega
    have hlow : set.ranges[m].2 < code := of_decide_eq_true hlow
    rw [ih]
    -- No range up to the middle contains the code point.
    constructor
    · rintro ⟨i, hsize, hlo, hhi, hcode⟩
      have hlo : m + 1 ≤ i := hlo
      exact ⟨i, hsize, by omega, hhi, hcode⟩
    · rintro ⟨i, hsize, hlo, hhi, hcode⟩
      exact ⟨i, hsize, lt_of_snd_lt hm hsize hlow hcode.2, hhi, hcode⟩
  | case2 lo hi h m a hlow hend _ =>
    have hm : m < set.ranges.size := by omega
    have hlow : set.ranges[m].2 < code := of_decide_eq_true hlow
    refine iff_of_false (by simp) ?_
    rintro ⟨i, hsize, hlo, hhi, hcode⟩
    have hlater := lt_of_snd_lt hm hsize hlow hcode.2
    omega
  | case3 lo hi h m a _ hhigh hend _ =>
    have hm : m < set.ranges.size := by omega
    have hhigh : code < set.ranges[m].1 := of_decide_eq_true hhigh
    refine iff_of_false (by simp) ?_
    rintro ⟨i, hsize, hlo, hhi, hcode⟩
    have hearlier := lt_of_lt_fst hsize hm hhigh hcode.1
    omega
  | case4 lo hi h m a _ hhigh hnext _ ih =>
    have hm : m < set.ranges.size := by omega
    have hhigh : code < set.ranges[m].1 := of_decide_eq_true hhigh
    rw [ih]
    -- No range from the middle on contains the code point.
    constructor
    · rintro ⟨i, hsize, hlo, hhi, hcode⟩
      have hhi : i ≤ m - 1 := hhi
      exact ⟨i, hsize, hlo, by omega, hcode⟩
    · rintro ⟨i, hsize, hlo, hhi, hcode⟩
      exact ⟨i, hsize, hlo, Nat.le_pred_of_lt (lt_of_lt_fst hsize hm hhigh hcode.1), hcode⟩
  | case5 lo hi h m a hlow hhigh _ =>
    have hm : m < set.ranges.size := by omega
    have hlow : ¬set.ranges[m].2 < code := fun h => hlow (decide_eq_true h)
    have hhigh : ¬code < set.ranges[m].1 := fun h => hhigh (decide_eq_true h)
    exact iff_of_true rfl ⟨m, hm, by omega, by omega, by omega, by omega⟩

/-- **The search decides membership.** -/
theorem contains_iff (set : CodePointSet) (c : Char) : set.contains c ↔ c ∈ set := by
  have hmem : c ∈ set ↔ ∃ i, ∃ hi : i < set.ranges.size,
      set.ranges[i].1 ≤ c.toNat ∧ c.toNat ≤ set.ranges[i].2 := by
    constructor
    · rintro ⟨range, hrange, hcode⟩
      obtain ⟨i, hi, rfl⟩ := Array.mem_iff_getElem.1 hrange
      exact ⟨i, hi, hcode⟩
    · rintro ⟨i, hi, hcode⟩
      exact ⟨_, Array.getElem_mem hi, hcode⟩
  rw [hmem, contains, Array.binSearchContains]
  split
  · next hsome =>
    rw [dif_pos (Nat.zero_le _), binSearchAux_iff]
    constructor
    · rintro ⟨i, hi, -, -, hcode⟩
      exact ⟨i, hi, hcode⟩
    · rintro ⟨i, hi, hcode⟩
      exact ⟨i, hi, Nat.zero_le i, by simp; omega, hcode⟩
  · next hnone =>
    refine iff_of_false (by simp) ?_
    rintro ⟨i, hi, -⟩
    omega

instance (set : CodePointSet) (c : Char) : Decidable (c ∈ set) :=
  decidable_of_iff (set.contains c) (set.contains_iff c)

end CodePointSet

end Calculator
