import Calculator.Proofs.LiteralReading
import Calculator.Proofs.Truncation

/-!
# Decimal readings are truncated numbers

The digits before the point are those of the integer part, and behind the point there is one digit
for each place. Both rows together have the value of the units of the last place
(`Exact.digitsValue_append_fractionDigits`). So the reading is a literal, with a minus sign if the
number is negative and the truncated magnitude is not zero, and it is read back as the truncated
number.

Main result: `Exact.ofLiteral?_reading`.
-/

namespace Calculator.Exact

/-! ## Digits behind the point -/

theorem isDigit_of_mem_fractionDigits {units places : Nat} {c : Char}
    (hc : c ∈ fractionDigits units places) : c.isDigit := by
  rcases List.mem_append.1 hc with hzero | hdigit
  · rw [List.eq_of_mem_replicate hzero]
    rfl
  · exact Nat.isDigit_of_mem_toDigits (by decide) (by decide) hdigit

/-- There is one digit behind the point for each place. -/
theorem length_fractionDigits (units : Nat) {places : Nat} (hne : places ≠ 0)
    (hplaces : places < 2 ^ 32) : (fractionDigits units places).length = places := by
  have hlength : (Nat.toDigits 10 (units % powerOfTen places)).length ≤ places := by
    rw [Nat.length_toDigits_le_iff (by decide) (Nat.pos_of_ne_zero hne), powerOfTen_eq hplaces]
    exact Nat.mod_lt _ (Nat.pow_pos (by decide))
  rw [fractionDigits, List.length_leftpad, Nat.max_eq_left hlength]

/-- **The digits of a number of units**: those of the integer part, followed by those behind the
point. -/
theorem digitsValue_append_fractionDigits (units : Nat) {places : Nat} (hne : places ≠ 0)
    (hplaces : places < 2 ^ 32) :
    digitsValue (Nat.toDigits 10 (units / powerOfTen places) ++ fractionDigits units places) =
      units := by
  have hwhole : Nat.ofDigitChars 10 (Nat.toDigits 10 (units / powerOfTen places)) 0 =
      units / powerOfTen places := Nat.ofDigitChars_ten_toDigits
  have hfraction : Nat.ofDigitChars 10 (fractionDigits units places) 0 =
      units % powerOfTen places := by
    simp [fractionDigits, List.leftpad, Nat.ofDigitChars_append]
  rw [digitsValue, Nat.ofDigitChars_append, hwhole, Nat.ofDigitChars_eq_ofDigitChars_zero,
    hfraction, length_fractionDigits units hne hplaces, powerOfTen_eq hplaces]
  exact Nat.div_add_mod units _

/-! ## Decimals -/

/-- The written form of a decimal: a minus sign if it is negative, the digits before the point, and
a point with the digits behind it, if there are any. -/
def decimalText (negative : Bool) (whole fraction : List Char) : List Char :=
  (if negative then ['-'] else []) ++ (whole ++ if fraction = [] then [] else '.' :: fraction)

theorem ofLiteral?_decimalText {text : String} {negative : Bool} {whole fraction : List Char}
    (htext : text.toList = decimalText negative whole fraction) (hne : whole ≠ [])
    (hwhole : ∀ c ∈ whole, c.isDigit) (hfraction : ∀ c ∈ fraction, c.isDigit) :
    ofLiteral? text =
      some (mkRat (signed negative (digitsValue (whole ++ fraction)))
        (powerOfTen fraction.length)) := by
  have hsign : IsSign (if negative then ['-'] else []) negative := by
    cases negative with
    | false => exact .none
    | true => exact .minus
  refine ofLiteral?_signed_digits hsign ?_ htext
  refine ⟨hwhole, hfraction, List.append_ne_nil_of_left_ne_nil hne _, ?_⟩
  by_cases hnone : fraction = []
  · exact .inr ⟨by rw [if_pos hnone, List.append_nil], hnone⟩
  · exact .inl (by rw [if_neg hnone])

/-- A reading is a decimal whose digits together are those of the units. -/
theorem exists_toList_reading (r : Rat) {places : Nat} (hplaces : places < 2 ^ 32) :
    ∃ fraction, fraction.length = places ∧ (∀ c ∈ fraction, c.isDigit) ∧
      digitsValue (Nat.toDigits 10 (truncate r).natAbs ++ fraction) = scaled r places ∧
      (reading r places).toList =
        decimalText (decide (r < 0 ∧ scaled r places ≠ 0))
          (Nat.toDigits 10 (truncate r).natAbs) fraction := by
  have hwhole := scaled_div_powerOfTen r places
  by_cases hnone : places = 0
  · -- There are no digits behind the point, and no point.
    subst hnone
    have hunits : (truncate r).natAbs = scaled r 0 := by
      rw [← hwhole, powerOfTen_eq hplaces, Nat.pow_eq, Nat.pow_zero, Nat.div_one]
    refine ⟨[], rfl, by simp, ?_, ?_⟩
    · rw [List.append_nil, digitsValue, Nat.ofDigitChars_ten_toDigits, hunits]
    · simp [reading, decimalText, hwhole, Rat.num_neg]
  · have hlength := length_fractionDigits (scaled r places) hnone hplaces
    have hsome : fractionDigits (scaled r places) places ≠ [] := fun h => by
      rw [h] at hlength
      exact hnone hlength.symm
    refine ⟨_, hlength, fun c => isDigit_of_mem_fractionDigits, ?_, ?_⟩
    · rw [← hwhole, digitsValue_append_fractionDigits _ hnone hplaces]
    · simp [reading, decimalText, hwhole, hnone, hsome, Rat.num_neg]

theorem signed_and_ne_zero (p : Prop) [Decidable p] (n : Nat) :
    signed (decide (p ∧ n ≠ 0)) n = signed (decide p) n := by
  by_cases hn : n = 0 <;> simp [hn, signed]

/-- **A decimal reading is the truncated number.** It consists of the integer part and one digit for
each place, with a minus sign if the number is negative and the truncated number is not zero. It is
read back as the truncated number. -/
theorem ofLiteral?_reading (r : Rat) (places : Nat) (hplaces : places < 2 ^ 32) :
    (∃ fraction, fraction.length = places ∧ (∀ c ∈ fraction, c.isDigit) ∧
      (reading r places).toList =
        decimalText (decide (r < 0 ∧ truncate (r * 10 ^ places) ≠ 0))
          (toString (truncate r).natAbs).toList fraction) ∧
      ofLiteral? (reading r places) = some ((truncate (r * 10 ^ places) : Rat) / 10 ^ places) := by
  obtain ⟨fraction, hlength, hfraction, hvalue, htext⟩ := exists_toList_reading r hplaces
  rw [← cast_powerOfTen hplaces]
  constructor
  · rw [Nat.toString_eq_ofList_toDigits, String.toList_ofList]
    simp only [ne_eq, truncate_mul_powerOfTen_eq_zero_iff]
    exact ⟨fraction, hlength, hfraction, htext⟩
  · have hwhole : ∀ c ∈ Nat.toDigits 10 (truncate r).natAbs, c.isDigit := fun c hc =>
      Nat.isDigit_of_mem_toDigits (by decide) (by decide) hc
    rw [ofLiteral?_decimalText htext Nat.toDigits_ne_nil hwhole hfraction, hvalue, hlength,
      Rat.mkRat_eq_div, signed_and_ne_zero, ← truncate_mul_powerOfTen]

/-- Minus one third to three places is truncated toward zero and keeps its sign. -/
theorem ofLiteral?_reading_third :
    3 < 2 ^ 32 ∧ reading (-1 / 3) 3 = "-0.333" ∧ ofLiteral? "-0.333" = some (-333 / 10 ^ 3) := by
  have htext : reading (-1 / 3) 3 = "-0.333" := by decide +kernel
  have htruncate : truncate (-1 / 3 * 10 ^ 3) = -333 := by decide +kernel
  obtain ⟨-, hread⟩ := ofLiteral?_reading (-1 / 3) 3 (by decide)
  rw [htext, htruncate] at hread
  exact ⟨by decide, htext, hread⟩

end Calculator.Exact
