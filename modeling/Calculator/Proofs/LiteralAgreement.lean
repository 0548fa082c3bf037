import Calculator.Proofs.LiteralReading
import Mathlib.Data.Rat.Defs
import Mathlib.Tactic.FieldSimp
import Mathlib.Tactic.Ring

/-!
# Three readers of literals

Three functions read a row of digits and points. The check of a literal counts digits and points,
exact numbers are split at the first point, and binary64 takes digits, a point and digits from the
left. They accept the same rows: digits before or behind at most one point (`IsDecimal`).

The exact value is that of the digits before the point plus that of the digits behind it over a
power of ten. The reader takes both rows as one integer and divides once, which is the same by
`placeValue_append`.

Main result: `literals_agree`.
-/

namespace Calculator

/-! ## The value of digits -/

/-- The value of a row of digits: each digit times ten to the number of digits behind it. -/
def placeValue : List Char → Nat
  | [] => 0
  | c :: cs => (c.toNat - '0'.toNat) * 10 ^ cs.length + placeValue cs

/-- The value of two rows in a row. -/
theorem placeValue_append (cs ds : List Char) :
    placeValue (cs ++ ds) = placeValue cs * 10 ^ ds.length + placeValue ds := by
  induction cs with
  | nil => simp [placeValue]
  | cons c cs ih =>
    rw [List.cons_append, placeValue, placeValue, ih, List.length_append]
    ring

theorem digitsValue_eq_placeValue (cs : List Char) : digitsValue cs = placeValue cs := by
  induction cs with
  | nil => rfl
  | cons c cs ih =>
    have hrest : Nat.ofDigitChars 10 cs 0 = placeValue cs := ih
    rw [digitsValue, Nat.ofDigitChars_cons, Nat.ofDigitChars_eq_ofDigitChars_zero, hrest,
      placeValue]
    ring

@[simp] theorem placeValue_replicate_zero (n : Nat) : placeValue (List.replicate n '0') = 0 := by
  rw [← digitsValue_eq_placeValue, digitsValue, Nat.ofDigitChars_replicate_zero, Nat.mul_zero]

/-- The number with these digits before and behind the point. -/
def decimalValue (whole fraction : List Char) : Rat :=
  placeValue whole + placeValue fraction / 10 ^ fraction.length

theorem mkRat_digitsValue_append (whole : List Char) {fraction : List Char}
    (hplaces : fraction.length < 2 ^ 32) :
    mkRat (digitsValue (whole ++ fraction)) (Exact.powerOfTen fraction.length) =
      decimalValue whole fraction := by
  rw [digitsValue_eq_placeValue, placeValue_append, Rat.mkRat_eq_div, decimalValue,
    Int.cast_natCast, Exact.cast_powerOfTen hplaces]
  push_cast
  field_simp

theorem digitsValue_replicate_append (n : Nat) (cs : List Char) :
    digitsValue (List.replicate n '0' ++ cs) = digitsValue cs := by
  rw [digitsValue_eq_placeValue, placeValue_append, placeValue_replicate_zero, Nat.zero_mul,
    Nat.zero_add, digitsValue_eq_placeValue]

theorem decimalValue_append_replicate (n : Nat) (whole fraction : List Char) :
    decimalValue whole (fraction ++ List.replicate n '0') = decimalValue whole fraction := by
  rw [decimalValue, placeValue_append, placeValue_replicate_zero, Nat.add_zero, List.length_append,
    List.length_replicate, pow_add, Nat.cast_mul, Nat.cast_pow, Nat.cast_ofNat,
    mul_div_mul_right _ _ (pow_ne_zero n (by decide)), decimalValue]

/-! ## Other spellings of a literal -/

namespace IsDecimal

variable {cs whole fraction : List Char}

theorem isDigit_of_mem_replicate {n : Nat} {c : Char} (h : c ∈ List.replicate n '0') :
    c.isDigit := by
  rw [List.eq_of_mem_replicate h]
  rfl

theorem replicate_append (h : IsDecimal cs whole fraction) (n : Nat) :
    IsDecimal (List.replicate n '0' ++ cs) (List.replicate n '0' ++ whole) fraction := by
  obtain ⟨hwhole, hfraction, hne, hcs⟩ := h
  refine ⟨List.forall_mem_append.2 ⟨fun c hc => isDigit_of_mem_replicate hc, hwhole⟩, hfraction, ?_,
    ?_⟩
  · rw [List.append_assoc]
    exact List.append_ne_nil_of_right_ne_nil _ hne
  · rcases hcs with rfl | ⟨rfl, hnone⟩
    · exact .inl (List.append_assoc ..).symm
    · exact .inr ⟨rfl, hnone⟩

theorem eq_of_point_mem (h : IsDecimal cs whole fraction) (hpoint : '.' ∈ cs) :
    cs = whole ++ '.' :: fraction := by
  rcases h.2.2.2 with hcs | ⟨rfl, -⟩
  · exact hcs
  · exact absurd rfl (ne_point_of_isDigit (h.1 _ hpoint))

theorem append_replicate (h : IsDecimal cs whole fraction) (hpoint : '.' ∈ cs) (n : Nat) :
    IsDecimal (cs ++ List.replicate n '0') whole (fraction ++ List.replicate n '0') := by
  have hcs := h.eq_of_point_mem hpoint
  obtain ⟨hwhole, hfraction, hne, -⟩ := h
  refine ⟨hwhole, List.forall_mem_append.2 ⟨hfraction, fun c hc => isDigit_of_mem_replicate hc⟩, ?_,
    .inl ?_⟩
  · rw [← List.append_assoc]
    exact List.append_ne_nil_of_left_ne_nil hne _
  · rw [hcs, List.append_assoc]
    rfl

theorem append_point (h : IsDecimal cs whole fraction) (hpoint : '.' ∉ cs) :
    IsDecimal (cs ++ ['.']) whole fraction := by
  obtain ⟨hwhole, hfraction, hne, hcs⟩ := h
  rcases hcs with rfl | ⟨rfl, rfl⟩
  · exact absurd (List.mem_append_right _ List.mem_cons_self) hpoint
  · exact ⟨hwhole, hfraction, hne, .inl rfl⟩

end IsDecimal

/-! ## Acceptance -/

section

variable {cs : List Char} {p : Char → Bool}

theorem isDecimal_of_span {fraction : List Char} (hwhole : ∀ c ∈ cs.takeWhile p, c.isDigit)
    (hfraction : ∀ c ∈ fraction, c.isDigit) (hne : cs.takeWhile p ++ fraction ≠ [])
    (hdrop : cs.dropWhile p = '.' :: fraction ∨ (cs.dropWhile p = [] ∧ fraction = [])) :
    IsDecimal cs (cs.takeWhile p) fraction := by
  have hcs : cs.takeWhile p ++ cs.dropWhile p = cs := List.takeWhile_append_dropWhile
  refine ⟨hwhole, hfraction, hne, ?_⟩
  rcases hdrop with hdrop | ⟨hdrop, hnone⟩
  · exact .inl (by rw [← hdrop, hcs])
  · rw [hdrop, List.append_nil] at hcs
    exact .inr ⟨hcs.symm, hnone⟩

/-- In a text of digits and points, the leading digits end at a point or at the end of the text. -/
theorem span_of_isNumeral (hnum : ∀ c ∈ cs, isNumeral c)
    (hp : ∀ c, isNumeral c → (p c ↔ c.isDigit)) :
    (∀ c ∈ cs.takeWhile p, c.isDigit) ∧
      (cs.dropWhile p = [] ∨
        ∃ rest, cs.dropWhile p = '.' :: rest ∧ ∀ c ∈ rest, isNumeral c) := by
  constructor
  · intro c hc
    exact (hp c (hnum c ((List.takeWhile_sublist p).subset hc))).1 (List.mem_takeWhile_imp hc)
  · cases hdrop : cs.dropWhile p with
    | nil => exact .inl rfl
    | cons c rest =>
      have hmem : ∀ d ∈ c :: rest, isNumeral d := fun d hd =>
        hnum d ((List.dropWhile_suffix p).subset (hdrop ▸ hd))
      have hstop : ¬p c := by
        have hhead := List.head_dropWhile_not p (by simp [hdrop] : cs.dropWhile p ≠ [])
        simpa [hdrop] using hhead
      have hpoint : c = '.' := by
        by_contra hne
        have hc := hmem c List.mem_cons_self
        exact hstop ((hp c hc).2 (isDigit_of_isNumeral hc hne))
      rw [hpoint]
      exact .inr ⟨rest, rfl, fun d hd => hmem d (List.mem_cons_of_mem _ hd)⟩

end

/-- The check of a literal accepts exactly the decimals. -/
theorem isLiteral_iff_exists_isDecimal {cs : List Char} (hnum : cs.all isNumeral) :
    isLiteral cs ↔ ∃ whole fraction, IsDecimal cs whole fraction := by
  constructor
  · exact exists_digits_of_isLiteral hnum
  · intro h
    obtain ⟨whole, fraction, h⟩ := h
    exact h.isLiteral

/-- Exact numbers are read exactly from decimals, as there is no second point. -/
theorem Exact.isSome_ofLiteral?_iff {text : String} (hnum : text.toList.all isNumeral) :
    (ofLiteral? text).isSome ↔ ∃ whole fraction, IsDecimal text.toList whole fraction := by
  have hspan := span_of_isNumeral (p := (· != '.')) (List.all_eq_true.1 hnum) fun c hc => by
    refine ⟨fun hne => isDigit_of_isNumeral hc (by simpa using hne), fun hdigit => ?_⟩
    simpa using ne_point_of_isDigit hdigit
  obtain ⟨hwhole, hdrop⟩ := hspan
  constructor
  · intro h
    unfold ofLiteral? at h
    dsimp only at h
    split at h
    · cases h
    · next hgo =>
      rcases hdrop with hdrop | ⟨fraction, hdrop, hfraction⟩
      · refine ⟨_, [], isDecimal_of_span hwhole (by simp) ?_ (.inr ⟨hdrop, rfl⟩)⟩
        simpa [behindPoint, hdrop] using hgo
      · simp only [behindPoint, hdrop, List.drop_one, List.tail_cons, Bool.or_eq_true, not_or,
          List.contains_iff_mem] at hgo
        refine ⟨_, fraction, isDecimal_of_span hwhole (fun c hc => ?_) ?_ (.inl hdrop)⟩
        · exact isDigit_of_isNumeral (hfraction c hc) fun hpoint => hgo.1 (hpoint ▸ hc)
        · simpa using hgo.2
  · intro h
    obtain ⟨whole, fraction, h⟩ := h
    rw [ofLiteral?_digits h]
    rfl

theorem Decimal.eq_nil_of_exponent? {cs : List Char} (hletter : ∀ c ∈ cs, c ≠ 'e' ∧ c ≠ 'E')
    (h : (exponent? cs).isSome) : cs = [] := by
  cases cs with
  | nil => rfl
  | cons c cs =>
    obtain ⟨hlower, hupper⟩ := hletter c List.mem_cons_self
    simp only [exponent?] at h
    split at h
    · next hstart => exact absurd hstart.1 (not_or.2 ⟨hlower, hupper⟩)
    · cases h

theorem Decimal.splitFraction_eq (cs : List Char) :
    (∀ c ∈ (splitFraction cs).1, c.isDigit) ∧
      (cs = '.' :: ((splitFraction cs).1 ++ (splitFraction cs).2) ∨
        (cs = (splitFraction cs).2 ∧ (splitFraction cs).1 = [])) := by
  unfold splitFraction
  split
  · next rest =>
    refine ⟨fun c hc => List.mem_takeWhile_imp hc, .inl ?_⟩
    rw [List.takeWhile_append_dropWhile]
  · exact ⟨by simp, .inr ⟨rfl, rfl⟩⟩

/-- A magnitude that is read without an exponent is a decimal. -/
theorem Decimal.exists_isDecimal {cs : List Char} (hletter : ∀ c ∈ cs, c ≠ 'e' ∧ c ≠ 'E')
    (h : (ofChars? cs).isSome) : ∃ whole fraction, IsDecimal cs whole fraction := by
  obtain ⟨hfraction, hsplit⟩ := splitFraction_eq (cs.dropWhile Char.isDigit)
  unfold ofChars? at h
  dsimp only at h
  split at h
  · cases h
  · next hgo =>
    rw [Option.isSome_map] at h
    have hend : (splitFraction (cs.dropWhile Char.isDigit)).2 = [] := by
      refine eq_nil_of_exponent? (fun c hc => hletter c ?_) h
      have hmem : c ∈ cs.dropWhile Char.isDigit := by
        rcases hsplit with hsplit | ⟨hsplit, -⟩ <;> rw [hsplit]
        · exact List.mem_cons_of_mem _ (List.mem_append_right _ hc)
        · exact hc
      exact (List.dropWhile_suffix _).subset hmem
    rw [hend, List.append_nil] at hsplit
    refine ⟨_, _, isDecimal_of_span (fun c hc => List.mem_takeWhile_imp hc) hfraction ?_ hsplit⟩
    simpa using hgo

theorem Binary64.isSome_ofLiteral?_iff {text : String} (hnum : text.toList.all isNumeral) :
    (ofLiteral? text).isSome ↔ ∃ whole fraction, IsDecimal text.toList whole fraction := by
  have hnum : ∀ c ∈ text.toList, isNumeral c := List.all_eq_true.1 hnum
  constructor
  · intro h
    rw [ofLiteral?_of_isNumeral hnum, Option.isSome_map] at h
    refine Decimal.exists_isDecimal (fun c hc => ⟨?_, ?_⟩) h
    · rintro rfl
      exact absurd (hnum _ hc) (by decide)
    · rintro rfl
      exact absurd (hnum _ hc) (by decide)
  · intro h
    obtain ⟨whole, fraction, h⟩ := h
    rw [ofLiteral?_digits h]
    rfl

/-! ## Agreement -/

/-- The value of a literal with these digits before and behind the point. It does not change with
leading zeros, with trailing zeros behind a point, and with a point at the end. The number of places
must fit in 32 bits. -/
structure Exact.ReadsAs (text : String) (whole fraction : List Char) : Prop where
  value : fraction.length < 2 ^ 32 → ofLiteral? text = some (decimalValue whole fraction)
  zeros_append : ∀ n,
    ofLiteral? (String.ofList (List.replicate n '0') ++ text) = ofLiteral? text
  append_zeros : '.' ∈ text.toList → ∀ n, fraction.length + n < 2 ^ 32 →
    ofLiteral? (text ++ String.ofList (List.replicate n '0')) = ofLiteral? text
  append_point : '.' ∉ text.toList → ofLiteral? (text ++ ".") = ofLiteral? text

theorem Exact.ofLiteral?_isDecimal {text : String} {whole fraction : List Char}
    (h : IsDecimal text.toList whole fraction) (hplaces : fraction.length < 2 ^ 32) :
    ofLiteral? text = some (decimalValue whole fraction) := by
  rw [ofLiteral?_digits h, mkRat_digitsValue_append whole hplaces]

theorem Exact.readsAs_of_isDecimal {text : String} {whole fraction : List Char}
    (h : IsDecimal text.toList whole fraction) : ReadsAs text whole fraction := by
  constructor
  case value => exact ofLiteral?_isDecimal h
  case zeros_append =>
    intro n
    have hzeros : IsDecimal (String.ofList (List.replicate n '0') ++ text).toList
        (List.replicate n '0' ++ whole) fraction := by
      rw [String.toList_append, String.toList_ofList]
      exact h.replicate_append n
    -- The digits have the same value and the places are unchanged, so no bound is needed.
    rw [ofLiteral?_digits hzeros, List.append_assoc, digitsValue_replicate_append,
      ofLiteral?_digits h]
  case append_zeros =>
    intro hpoint n hplaces
    have hzeros : IsDecimal (text ++ String.ofList (List.replicate n '0')).toList whole
        (fraction ++ List.replicate n '0') := by
      rw [String.toList_append, String.toList_ofList]
      exact h.append_replicate hpoint n
    rw [ofLiteral?_isDecimal hzeros (by simpa using hplaces), decimalValue_append_replicate,
      ofLiteral?_isDecimal h (by omega)]
  case append_point =>
    intro hpoint
    have hend : IsDecimal (text ++ ".").toList whole fraction := by
      rw [String.toList_append]
      exact h.append_point hpoint
    rw [ofLiteral?_digits hend, ofLiteral?_digits h]

/-- **Literals are the same to all readers.** Of the texts in digits and points, the check of a
literal, binary64 and exact numbers accept exactly those with digits around at most one point. The
exact value is that of the digits before the point plus that of the digits behind it over a power of
ten. -/
theorem literals_agree (text : String) (hnum : text.toList.all isNumeral) :
    (isLiteral text.toList ↔ (Binary64.ofLiteral? text).isSome) ∧
      ((Binary64.ofLiteral? text).isSome ↔ (Exact.ofLiteral? text).isSome) ∧
      ((Exact.ofLiteral? text).isSome ↔ ∃ whole fraction, IsDecimal text.toList whole fraction) ∧
      ∀ whole fraction, IsDecimal text.toList whole fraction →
        Exact.ReadsAs text whole fraction := by
  refine ⟨?_, ?_, Exact.isSome_ofLiteral?_iff hnum, fun _ _ h => Exact.readsAs_of_isDecimal h⟩
  · rw [isLiteral_iff_exists_isDecimal hnum, Binary64.isSome_ofLiteral?_iff hnum]
  · rw [Binary64.isSome_ofLiteral?_iff hnum, Exact.isSome_ofLiteral?_iff hnum]

/-- A literal that starts with its point, with a leading zero and with trailing zeros, and two texts
in digits and points that are no literals. -/
theorem literals_agree_on_half :
    Exact.ofLiteral? ".5" = some (1 / 2) ∧
      Exact.ofLiteral? (String.ofList (List.replicate 1 '0') ++ ".5") = some (1 / 2) ∧
      Exact.ofLiteral? (".5" ++ String.ofList (List.replicate 2 '0')) = some (1 / 2) ∧
      ¬(Binary64.ofLiteral? "1.2.3").isSome ∧ ¬(Exact.ofLiteral? ".").isSome := by
  obtain ⟨-, -, -, hhalf⟩ := literals_agree ".5" (by decide)
  obtain ⟨hthree, -, -, -⟩ := literals_agree "1.2.3" (by decide)
  obtain ⟨hpoint, hpoint', -, -⟩ := literals_agree "." (by decide)
  have hreads := hhalf [] ['5'] ⟨by simp, List.forall_mem_singleton.2 rfl, by simp, .inl rfl⟩
  have hvalue : decimalValue [] ['5'] = 1 / 2 := by decide +kernel
  have hread := hreads.value (by decide)
  rw [hvalue] at hread
  refine ⟨?_, ?_, ?_, ?_, ?_⟩
  · rw [hread]
  · rw [hreads.zeros_append, hread]
  · rw [hreads.append_zeros (by decide) 2 (by decide), hread]
  · exact mt hthree.2 (by decide)
  · exact mt (hpoint.trans hpoint').2 (by decide)

end Calculator
