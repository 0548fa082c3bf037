import Calculator.Proofs.LiteralAgreement
import Calculator.Proofs.Pattern

/-!
# Both readings of a literal

Each type of operands reads texts that the other does not: binary64 reads words and exponents, exact
numbers read underscores. Words and exponents have letters, which exact numbers do not have, and a
magnitude of binary64 has no underscores. So the texts that both read are decimals with at most one
sign (`both_read_iff`).

From such a text both take the same integer over the same power of ten. The exact number is that
quotient, binary64 rounds it (`Binary64.rounds_ofQuotient`), and the exponent of a text without a
power of ten is within the range of exponents (`Decimal.toBinary64_eq_ofQuotient`).

Main result: `literal_correctlyRounded`.
-/

namespace Calculator

/-! ## Signed decimals -/

/-- The text of a decimal with at most one sign. -/
structure IsSignedDecimal (cs sign magnitude : List Char) (negative : Bool)
    (whole fraction : List Char) : Prop where
  eq_append : cs = sign ++ magnitude
  isSign : IsSign sign negative
  isDecimal : IsDecimal magnitude whole fraction

theorem exists_isSign (cs : List Char) :
    ∃ sign, cs = sign ++ (splitSign cs).2 ∧ IsSign sign (splitSign cs).1 := by
  unfold splitSign
  split
  · exact ⟨['-'], rfl, .minus⟩
  · exact ⟨['+'], rfl, .plus⟩
  · exact ⟨[], rfl, .none⟩

theorem IsSignedDecimal.head_eq {cs sign magnitude whole fraction : List Char} {negative : Bool}
    (h : IsSignedDecimal cs sign magnitude negative whole fraction) :
    (cs.head? == some '-') = negative := by
  obtain ⟨rfl, hsign, hdecimal⟩ := h
  cases hsign with
  | none =>
    rw [beq_eq_false_iff_ne]
    intro hhead
    exact absurd (hdecimal.isNumeral_of_mem (List.mem_of_mem_head? hhead)) (by decide)
  | plus => rfl
  | minus => rfl

/-! ## Texts that both types read -/

namespace Exact

/-- The characters of exact numbers. -/
def IsMark (c : Char) : Prop :=
  c.isDigit ∨ c = '+' ∨ c = '-' ∨ c = '.' ∨ c = '_'

theorem isMark_of_isSign {sign : List Char} {negative : Bool} (h : IsSign sign negative) {c : Char}
    (hc : c ∈ sign) : IsMark c := by
  cases h with
  | none => cases hc
  | plus => exact .inr (.inl (List.mem_singleton.1 hc))
  | minus => exact .inr (.inr (.inl (List.mem_singleton.1 hc)))

theorem isMark_of_natural? {cs : List Char} (h : (natural? cs).isSome) {c : Char} (hc : c ∈ cs) :
    IsMark c := by
  cases cs with
  | nil => cases hc
  | cons d cs =>
    rw [natural?] at h
    split at h
    · next hgo =>
      obtain ⟨hd, hcs⟩ := Bool.and_eq_true_iff.1 hgo
      rcases List.mem_cons.1 hc with rfl | hc
      · exact .inl hd
      · rcases Bool.or_eq_true_iff.1 (List.all_eq_true.1 hcs c hc) with hdigit | hscore
        · exact .inl hdigit
        · exact .inr (.inr (.inr (.inr (beq_iff_eq.1 hscore))))
    · cases h

theorem isMark_of_integer? {cs : List Char} (h : (integer? cs).isSome) {c : Char} (hc : c ∈ cs) :
    IsMark c := by
  obtain ⟨sign, hcs, hsign⟩ := exists_isSign cs
  rw [hcs] at hc
  rcases List.mem_append.1 hc with hc | hc
  · exact isMark_of_isSign hsign hc
  · have hmagnitude : (natural? (splitSign cs).2).isSome := by simpa [integer?] using h
    exact isMark_of_natural? hmagnitude hc

theorem eq_or_mem_of_mem_dropWhile {a c : Char} {cs : List Char}
    (hc : c ∈ cs.dropWhile (· != a)) : c = a ∨ c ∈ (cs.dropWhile (· != a)).drop 1 := by
  induction cs with
  | nil => cases hc
  | cons d cs ih =>
    by_cases hd : d = a
    · rw [List.dropWhile_cons_of_neg (by simpa using hd)] at hc ⊢
      exact hd ▸ List.mem_cons.1 hc
    · rw [List.dropWhile_cons_of_pos (by simpa using hd)] at hc ⊢
      exact ih hc

/-- Exact numbers have only digits, signs, points and underscores. -/
theorem isMark_of_ofLiteral? {text : String} (h : (ofLiteral? text).isSome) {c : Char}
    (hc : c ∈ text.toList) : IsMark c := by
  unfold ofLiteral? at h
  dsimp only at h
  split at h
  · cases h
  · rw [Option.isSome_map] at h
    rw [← List.takeWhile_append_dropWhile (p := (· != '.')) (l := text.toList)] at hc
    rcases List.mem_append.1 hc with hwhole | hrest
    · exact isMark_of_integer? h (List.mem_append_left _ hwhole)
    · rcases eq_or_mem_of_mem_dropWhile hrest with hpoint | hfraction
      · exact .inr (.inr (.inr (.inl hpoint)))
      · exact isMark_of_integer? h (List.mem_append_right _ hfraction)

theorem IsMark.ne_letter {c : Char} (h : IsMark c) : c ≠ 'e' ∧ c ≠ 'E' ∧ c.toLower ≠ 'n' := by
  rcases h with hdigit | rfl | rfl | rfl | rfl
  · have hlower := Binary64.toLower_of_isNumeral (c := c) (by simp [isNumeral, hdigit])
    rw [hlower]
    refine ⟨?_, ?_, ?_⟩ <;> rintro rfl <;> exact absurd hdigit (by decide)
  all_goals decide

end Exact

/-- **Both types read exactly the decimals** with at most one sign. -/
theorem both_read_iff (text : String) :
    (Binary64.ofLiteral? text).isSome ∧ (Exact.ofLiteral? text).isSome ↔
      ∃ sign magnitude negative whole fraction,
        IsSignedDecimal text.toList sign magnitude negative whole fraction := by
  constructor
  · rintro ⟨hbinary, hexact⟩
    obtain ⟨sign, htext, hsign⟩ := exists_isSign text.toList
    have hletter : ∀ c ∈ (splitSign text.toList).2, c ≠ 'e' ∧ c ≠ 'E' ∧ c.toLower ≠ 'n' := by
      intro c hc
      refine (Exact.isMark_of_ofLiteral? hexact ?_).ne_letter
      rw [htext]
      exact List.mem_append_right _ hc
    have hread : (Decimal.ofChars? (splitSign text.toList).2).isSome := by
      have heq := Binary64.ofMagnitude?_eq (splitSign text.toList).1 fun c hc => (hletter c hc).2.2
      rw [← Option.isSome_map, ← heq]
      exact hbinary
    obtain ⟨whole, fraction, hdecimal⟩ :=
      Decimal.exists_isDecimal (fun c hc => ⟨(hletter c hc).1, (hletter c hc).2.1⟩) hread
    exact ⟨sign, _, _, whole, fraction, htext, hsign, hdecimal⟩
  · rintro ⟨sign, magnitude, negative, whole, fraction, htext, hsign, hdecimal⟩
    rw [Binary64.ofLiteral?_signed_digits hsign hdecimal htext,
      Exact.ofLiteral?_signed_digits hsign hdecimal htext]
    exact ⟨rfl, rfl⟩

/-! ## The rounded value -/

theorem mkRat_signed (negative : Bool) (num den : Nat) :
    mkRat (signed negative num) den = Pattern.withSign negative (num / den) := by
  cases negative <;> simp [signed, Pattern.withSign, Rat.mkRat_eq_div, neg_div]

namespace Decimal

theorem toBinary64_eq_ofQuotient (negative : Bool) (whole fraction : List Char) :
    toBinary64 negative ⟨whole ++ fraction, -(fraction.length : Int)⟩ =
      Binary64.ofQuotient negative (digitsValue (whole ++ fraction) * Binary64.unitsOfOne)
        (Nat.pow 10 fraction.length) := by
  have hclamped : clampedExponent ⟨whole ++ fraction, -(fraction.length : Int)⟩ =
      -(fraction.length : Int) := by
    simp only [clampedExponent, List.length_append, Nat.cast_add]
    omega
  have hzero : (-(fraction.length : Int)).toNat = 0 := by omega
  simp only [toBinary64, hclamped, hzero, neg_neg, Int.toNat_natCast, Nat.pow_eq, Nat.pow_zero,
    Nat.mul_one]

/-- A decimal is rounded as the exact number of its digits over the same power of ten. -/
theorem rounds_toBinary64 (negative : Bool) (whole : List Char) {fraction : List Char}
    (hplaces : fraction.length < 2 ^ 32) :
    ∃ p : Pattern,
      (toBinary64 negative ⟨whole ++ fraction, -(fraction.length : Int)⟩).bits = p.toNat ∧
        ∀ q : Pattern, q.Rounds negative
          (mkRat (signed negative (digitsValue (whole ++ fraction)))
            (Exact.powerOfTen fraction.length)) ↔ q = p := by
  have hden : 0 < Nat.pow 10 fraction.length := Nat.pow_pos (by decide)
  rw [toBinary64_eq_ofQuotient, mkRat_signed, Exact.powerOfTen_eq hplaces]
  generalize digitsValue (whole ++ fraction) = num
  generalize Nat.pow 10 fraction.length = den at *
  have hunits : ((num * Binary64.unitsOfOne : Nat) : Rat) / den / Binary64.unitsOfOne =
      num / den := by
    rw [Nat.cast_mul, div_right_comm, mul_div_cancel_right₀ _ Pattern.unitsOfOne_pos.ne']
  rw [← hunits]
  exact Binary64.rounds_ofQuotient negative (num * Binary64.unitsOfOne) hden

end Decimal

/-- **Literals are correctly rounded.** The texts that both types read are the decimals with at most
one sign. If there are fewer than `2 ^ 32` places, the binary64 number has the pattern, and no
other, that the exact number is rounded to: the nearest finite number, with ties to even, and an
infinity from the midpoint behind the last finite number on. -/
theorem literal_correctlyRounded (text : String) :
    ((Binary64.ofLiteral? text).isSome ∧ (Exact.ofLiteral? text).isSome ↔
        ∃ sign magnitude negative whole fraction,
          IsSignedDecimal text.toList sign magnitude negative whole fraction) ∧
      ∀ f r, Binary64.ofLiteral? text = some f → Exact.ofLiteral? text = some r →
        (Exact.behindPoint text.toList).length < 2 ^ 32 → ∃ p : Pattern, f.bits = p.toNat ∧
          ∀ q : Pattern, q.Rounds (text.toList.head? == some '-') r ↔ q = p := by
  refine ⟨both_read_iff text, fun f r hf hr hplaces => ?_⟩
  obtain ⟨sign, magnitude, negative, whole, fraction, h⟩ :=
    (both_read_iff text).1 ⟨by rw [hf]; rfl, by rw [hr]; rfl⟩
  rw [Binary64.ofLiteral?_signed_digits h.isSign h.isDecimal h.eq_append] at hf
  rw [Exact.ofLiteral?_signed_digits h.isSign h.isDecimal h.eq_append] at hr
  rw [h.eq_append, (Exact.split_signed_digits h.isSign h.isDecimal).2] at hplaces
  rw [h.head_eq, ← Option.some.inj hf, ← Option.some.inj hr]
  exact Decimal.rounds_toBinary64 negative whole hplaces

/-- The first integer that is not a binary64 number, with a minus. Its magnitude is the midpoint of
two neighbours and is rounded to the lower one, whose significand is even. -/
theorem literal_correctlyRounded_half_way :
    (Binary64.ofLiteral? "-9007199254740993").map Binary64.bits = some 0xc340000000000000 ∧
      Exact.ofLiteral? "-9007199254740993" = some (-9007199254740993) ∧
      ∀ q : Pattern, q.Rounds true (-9007199254740993) ↔ q = 0xc340000000000000#64 := by
  have hbinary : Binary64.ofLiteral? "-9007199254740993" =
      some (.finite true ⟨0x4340000000000000, by decide⟩) := by decide +kernel
  have hexact : Exact.ofLiteral? "-9007199254740993" = some (-9007199254740993) := by
    decide +kernel
  obtain ⟨-, hrounds⟩ := literal_correctlyRounded "-9007199254740993"
  obtain ⟨p, hbits, hp⟩ := hrounds _ _ hbinary hexact (by decide)
  have hpattern : p = 0xc340000000000000#64 := BitVec.eq_of_toNat_eq (hbits.symm.trans (by decide))
  refine ⟨by rw [hbinary]; decide, hexact, fun q => ?_⟩
  rw [← hpattern, ← hp]
  rfl

end Calculator
