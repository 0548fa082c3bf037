import Calculator.Proofs.Evaluation
import Calculator.Proofs.ListingValue
import Calculator.Proofs.Truncation

/-!
# Exact texts are read back

An exact value is written as an integer or as a fraction. A text without a sign is an expression, a
literal or a division of two, and its value is the number. Operands have no sign, so the text of a
negative number is not an expression; behind a zero the sign is an operator, and the fraction after
it binds tighter.

Main result: `evaluateExact_text`.
-/

namespace Calculator

/-! ## Numbers of the grammar -/

namespace Phrase

/-- The literal of a natural number. -/
def natural (n : Nat) : Phrase .factor :=
  .literal (toString n) (isDecimal_toString n).all_isNumeral (isDecimal_toString n).isLiteral

/-- A fraction of natural numbers, without a denominator of one. -/
def fraction (num den : Nat) : Phrase .product :=
  if den = 1 then .ofFactor (natural num)
  else .multiply (.ofFactor (natural num)) .divide rfl (natural den)

/-- Zero minus a fraction. -/
def zeroMinus (num den : Nat) : Phrase .sum :=
  .add (.ofProduct (.ofFactor (natural 0))) .minus rfl (fraction num den)

theorem text_fraction (num den : Nat) :
    (fraction num den).text =
      if den = 1 then toString num else toString num ++ "/" ++ toString den := by
  refine String.toList_inj.1 ?_
  unfold fraction
  by_cases hone : den = 1
  · simp [hone, text, tokens, natural, Token.text]
  · simp [hone, text, tokens, natural, Token.text, Operator.symbol]

theorem text_zeroMinus (num den : Nat) :
    (zeroMinus num den).text = "0-" ++ (fraction num den).text := by
  refine String.toList_inj.1 ?_
  simp [text, zeroMinus, tokens, natural, Token.text, Operator.symbol]

theorem hasValue_natural (n : Nat) : (natural n).expression.HasValue (n : Rat) := by
  have hread : Exact.ofLiteral? (toString n) = some (n : Rat) := by
    rw [Exact.ofLiteral?_digits (isDecimal_toString n), List.append_nil, digitsValue,
      Nat.ofDigitChars_ten_toDigits]
    exact congrArg some (Rat.mkRat_one n)
  exact .literal hread

theorem hasValue_fraction (num : Nat) {den : Nat} (hden : den ≠ 0) :
    (fraction num den).expression.HasValue ((num : Rat) / den) := by
  unfold fraction
  by_cases hone : den = 1
  · rw [if_pos hone, hone, Nat.cast_one, div_one]
    exact hasValue_natural num
  · rw [if_neg hone]
    have hnonzero : ¬Operand.isZero (den : Rat) := by simpa [Operand.isZero] using hden
    exact .binary (hasValue_natural num) (hasValue_natural den) fun _ => hnonzero

theorem hasValue_zeroMinus (num : Nat) {den : Nat} (hden : den ≠ 0) :
    (zeroMinus num den).expression.HasValue (-((num : Rat) / den)) := by
  rw [← zero_sub, ← Nat.cast_zero]
  exact .binary (hasValue_natural 0) (hasValue_fraction num hden) fun h => by cases h

theorem result_evaluateExact_text {kind : PhraseKind} {phrase : Phrase kind} {settings : Settings}
    (hlimit : settings.maxLength = none) {r : Rat} (h : phrase.expression.HasValue r) :
    (settings.evaluateExact phrase.text).result = .ok r := by
  have hblanks : withoutBlanks phrase.text = phrase.text :=
    withoutBlanks_eq_self fun _ hc => Token.isAccepted_of_mem_concat phrase.readable_tokens hc
  rw [Settings.evaluateExact, phrase.result_evaluateIn Rat hlimit hblanks]
  exact Expression.evaluate_eq_ok_iff_hasValue.2 h

end Phrase

/-! ## Exact texts -/

namespace Exact

theorem text_of_nonneg {r : Rat} (h : 0 ≤ r) :
    text r = (Phrase.fraction r.num.natAbs r.den).text := by
  have hnum : toString r.num = toString r.num.natAbs := by
    obtain ⟨n, hn⟩ := Int.eq_ofNat_of_zero_le (Rat.num_nonneg.2 h)
    rw [hn]
    rfl
  rw [Phrase.text_fraction, text, ← hnum]
  rfl

theorem zero_append_text_of_neg {r : Rat} (h : r < 0) :
    "0" ++ text r = (Phrase.zeroMinus r.num.natAbs r.den).text := by
  have hnum : toString r.num = "-" ++ toString r.num.natAbs := by
    obtain ⟨n, hn⟩ := Int.eq_negSucc_of_lt_zero (Rat.num_neg.2 h)
    rw [hn]
    rfl
  rw [Phrase.text_zeroMinus, Phrase.text_fraction, text, hnum]
  by_cases hone : r.den = 1
  · rw [if_pos hone, if_pos hone, ← String.append_assoc]
    rfl
  · rw [if_neg hone, if_neg hone]
    simp only [← String.append_assoc]
    rfl

end Exact

/-- **An exact text evaluates to its number**, behind a zero if the number is negative. -/
theorem evaluateExact_text {settings : Settings} (hlimit : settings.maxLength = none) (r : Rat) :
    (0 ≤ r → (settings.evaluateExact (Exact.text r)).result = .ok r) ∧
      (r < 0 → (settings.evaluateExact ("0" ++ Exact.text r)).result = .ok r) := by
  constructor
  · intro h
    have hvalue := Phrase.hasValue_fraction r.num.natAbs r.den_ne_zero
    rw [Exact.natAbs_num_div_den_of_nonneg h] at hvalue
    rw [Exact.text_of_nonneg h]
    exact Phrase.result_evaluateExact_text hlimit hvalue
  · intro h
    have hvalue := Phrase.hasValue_zeroMinus r.num.natAbs r.den_ne_zero
    rw [Exact.natAbs_num_div_den_of_neg h] at hvalue
    rw [Exact.zero_append_text_of_neg h]
    exact Phrase.result_evaluateExact_text hlimit hvalue

/-- A negative fraction is written in lowest terms, and is read behind a zero. -/
theorem evaluateExact_zero_minus_three_halves :
    mkRat (-6) 4 < 0 ∧ "0" ++ Exact.text (mkRat (-6) 4) = "0-3/2" ∧
      (({} : Settings).evaluateExact "0-3/2").result = .ok (mkRat (-6) 4) := by
  have hneg : mkRat (-6) 4 < 0 := by decide +kernel
  have htext : "0" ++ Exact.text (mkRat (-6) 4) = "0-3/2" := by decide +kernel
  refine ⟨hneg, htext, ?_⟩
  rw [← htext]
  exact (evaluateExact_text (rfl : ({} : Settings).maxLength = none) (mkRat (-6) 4)).2 hneg

/-- Without the zero there is no operand in front of the sign. -/
example : (({} : Settings).evaluateExact (Exact.text (mkRat (-6) 4))).result =
    .error .insufficientOperands := by
  decide +kernel

end Calculator
