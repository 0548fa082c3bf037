import Calculator.Number.Binary64.Literal
import Calculator.Number.Exact
import Calculator.Token.Basic
import Mathlib.Algebra.Ring.Rat
import Mathlib.Data.List.TakeWhile
import Mathlib.Data.Nat.Cast.Basic

/-!
# Reading well formed literals

A well formed literal is a row of digits, or two rows with a point between them that are not both
empty (`exists_digits_of_isLiteral`). Both types of operands read it: exact numbers as the integer
without the point over a power of ten, binary64 as the number nearest to that.

Main results: `Exact.ofLiteral?_signed_digits` and `Binary64.ofLiteral?_signed_digits`, the value of
a literal with an optional sign, and the class `ReadsLiterals`.
-/

namespace Calculator

/-! ## The parts of a literal -/

/-- The text of a literal with these digits before and behind the point; without a point there are
no digits behind it. -/
def IsDecimal (cs whole fraction : List Char) : Prop :=
  (∀ c ∈ whole, c.isDigit) ∧ (∀ c ∈ fraction, c.isDigit) ∧ whole ++ fraction ≠ [] ∧
    (cs = whole ++ '.' :: fraction ∨ (cs = whole ∧ fraction = []))

theorem isDigit_of_isNumeral {c : Char} (h : isNumeral c) (hpoint : c ≠ '.') : c.isDigit := by
  simpa [isNumeral, hpoint] using h

theorem ne_point_of_isDigit {c : Char} (h : c.isDigit) : c ≠ '.' := by
  intro hc
  rw [hc] at h
  exact absurd h (by decide)

/-- A well formed literal consists of digits and at most one point. -/
theorem exists_digits_of_isLiteral {cs : List Char} (hnum : cs.all isNumeral) (h : isLiteral cs) :
    ∃ whole fraction, IsDecimal cs whole fraction := by
  obtain ⟨hdigit, hcount⟩ := Bool.and_eq_true_iff.1 h
  have hnum : ∀ c ∈ cs, isNumeral c := List.all_eq_true.1 hnum
  by_cases hpoint : '.' ∈ cs
  · obtain ⟨whole, fraction, rfl, hwhole⟩ := List.eq_append_cons_of_mem hpoint
    -- The one point that is allowed is the one found.
    have hfraction : '.' ∉ fraction := by
      have hone : (whole ++ '.' :: fraction).count '.' ≤ 1 := of_decide_eq_true hcount
      rw [List.count_append, List.count_cons_self] at hone
      exact List.count_eq_zero.1 (by omega)
    refine ⟨whole, fraction, fun c hc => ?_, fun c hc => ?_, fun hempty => ?_, .inl rfl⟩
    · exact isDigit_of_isNumeral (hnum c (List.mem_append_left _ hc)) fun h => hwhole (h ▸ hc)
    · exact isDigit_of_isNumeral (hnum c (List.mem_append_right _ (List.mem_cons_of_mem _ hc)))
        fun h => hfraction (h ▸ hc)
    · obtain ⟨rfl, rfl⟩ := List.append_eq_nil_iff.1 hempty
      exact absurd hdigit (by decide)
  · have hdigits : ∀ c ∈ cs, c.isDigit := fun c hc =>
      isDigit_of_isNumeral (hnum c hc) fun hc' => hpoint (hc' ▸ hc)
    refine ⟨cs, [], hdigits, by simp, ?_, .inr ⟨rfl, rfl⟩⟩
    rw [List.append_nil]
    exact ne_nil_of_isLiteral h

theorem splitSign_of_isNumeral {cs : List Char} (h : ∀ c ∈ cs.head?, isNumeral c) :
    splitSign cs = (false, cs) := by
  unfold splitSign
  split
  · exact absurd (h '-' rfl) (by decide)
  · exact absurd (h '+' rfl) (by decide)
  · rfl

/-- An optional sign, and whether it makes the number negative. -/
inductive IsSign : List Char → Bool → Prop
  | none : IsSign [] false
  | plus : IsSign ['+'] false
  | minus : IsSign ['-'] true

theorem IsSign.ne_point {sign : List Char} {negative : Bool} (h : IsSign sign negative) {c : Char}
    (hc : c ∈ sign) : c ≠ '.' := by
  cases h <;> simp_all

theorem IsSign.splitSign_append {sign cs : List Char} {negative : Bool} (h : IsSign sign negative)
    (hcs : ∀ c ∈ cs.head?, isNumeral c) : splitSign (sign ++ cs) = (negative, cs) := by
  cases h with
  | none => exact splitSign_of_isNumeral hcs
  | plus => rfl
  | minus => rfl

namespace IsDecimal

variable {cs whole fraction : List Char}

theorem isDigit_of_mem (h : IsDecimal cs whole fraction) {c : Char} (hc : c ∈ whole ++ fraction) :
    c.isDigit := by
  rcases List.mem_append.1 hc with hc | hc
  · exact h.1 c hc
  · exact h.2.1 c hc

theorem isNumeral_of_mem (h : IsDecimal cs whole fraction) {c : Char} (hc : c ∈ cs) :
    isNumeral c := by
  have key : c ∈ whole ++ fraction ∨ c = '.' := by
    rcases h.2.2.2 with rfl | ⟨rfl, rfl⟩
    · rcases List.mem_append.1 hc with hc | hc
      · exact .inl (List.mem_append_left _ hc)
      · rcases List.mem_cons.1 hc with hc | hc
        · exact .inr hc
        · exact .inl (List.mem_append_right _ hc)
    · exact .inl (List.mem_append_left _ hc)
  rcases key with hc | rfl
  · simp [isNumeral, h.isDigit_of_mem hc]
  · rfl

theorem all_isNumeral (h : IsDecimal cs whole fraction) : cs.all isNumeral :=
  List.all_eq_true.2 fun _ hc => h.isNumeral_of_mem hc

theorem isLiteral (h : IsDecimal cs whole fraction) : Calculator.isLiteral cs := by
  have hdigit : cs.any Char.isDigit := by
    obtain ⟨c, hc⟩ := List.exists_mem_of_ne_nil _ h.2.2.1
    refine List.any_eq_true.2 ⟨c, ?_, h.isDigit_of_mem hc⟩
    rcases h.2.2.2 with rfl | ⟨rfl, rfl⟩
    · rcases List.mem_append.1 hc with hc | hc
      · exact List.mem_append_left _ hc
      · exact List.mem_append_right _ (List.mem_cons_of_mem _ hc)
    · rwa [List.append_nil] at hc
  have hwhole : whole.count '.' = 0 :=
    List.count_eq_zero.2 fun hmem => ne_point_of_isDigit (h.1 _ hmem) rfl
  have hfraction : fraction.count '.' = 0 :=
    List.count_eq_zero.2 fun hmem => ne_point_of_isDigit (h.2.1 _ hmem) rfl
  have hpoint : cs.count '.' ≤ 1 := by
    rcases h.2.2.2 with rfl | ⟨rfl, -⟩
    · rw [List.count_append, List.count_cons_self, hwhole, hfraction]
    · omega
  exact Bool.and_eq_true_iff.2 ⟨hdigit, decide_eq_true hpoint⟩

/-- The literal split by a test that accepts digits and refuses the point. -/
theorem span_whole (h : IsDecimal cs whole fraction) {p : Char → Bool}
    (hp : ∀ c, c.isDigit → p c) (hpoint : ¬p '.') :
    cs.takeWhile p = whole ∧
      (cs.dropWhile p = '.' :: fraction ∨ (cs.dropWhile p = [] ∧ fraction = [])) := by
  have hwhole : ∀ c ∈ whole, p c := fun c hc => hp c (h.1 c hc)
  rcases h.2.2.2 with rfl | ⟨rfl, rfl⟩
  · rw [List.takeWhile_append_of_pos hwhole, List.dropWhile_append_of_pos hwhole,
      List.takeWhile_cons_of_neg hpoint, List.dropWhile_cons_of_neg hpoint, List.append_nil]
    exact ⟨rfl, .inl rfl⟩
  · exact ⟨List.takeWhile_eq_self_iff.2 hwhole, .inr ⟨List.dropWhile_eq_nil_iff.2 hwhole, rfl⟩⟩

end IsDecimal

theorem isDecimal_toString (n : Nat) : IsDecimal (toString n).toList (Nat.toDigits 10 n) [] := by
  refine ⟨?_, by simp, by simp, .inr ⟨?_, rfl⟩⟩
  · intro c hc
    exact Nat.isDigit_of_mem_toDigits (by decide) (by decide) hc
  · rw [Nat.toString_eq_ofList_toDigits, String.toList_ofList]

/-! ## Exact numbers -/

namespace Exact

theorem cast_powerOfTen {exponent : Nat} (h : exponent < 2 ^ 32) :
    (powerOfTen exponent : Rat) = 10 ^ exponent := by
  rw [powerOfTen_eq h, Nat.pow_eq, Nat.cast_pow, Nat.cast_ofNat]

theorem natural?_of_isDigit {cs : List Char} (hne : cs ≠ []) (h : ∀ c ∈ cs, c.isDigit) :
    natural? cs = some (digitsValue cs) := by
  cases cs with
  | nil => exact absurd rfl hne
  | cons c cs =>
    have hfilter : (c :: cs).filter Char.isDigit = c :: cs := List.filter_eq_self.2 h
    have hcs : ∀ d ∈ cs, d.isDigit := fun d hd => h d (List.mem_cons_of_mem _ hd)
    rw [natural?, hfilter, if_pos]
    rw [h c List.mem_cons_self, Bool.true_and, List.all_eq_true]
    intro d hd
    rw [hcs d hd, Bool.true_or]

theorem split_signed_digits {sign cs whole fraction : List Char} {negative : Bool}
    (hsign : IsSign sign negative) (h : IsDecimal cs whole fraction) :
    (sign ++ cs).takeWhile (· != '.') = sign ++ whole ∧ behindPoint (sign ++ cs) = fraction := by
  obtain ⟨htake, hdrop⟩ := h.span_whole (p := (· != '.'))
    (fun c hc => by simpa using ne_point_of_isDigit hc) (by decide)
  have hbefore : ∀ c ∈ sign, c != '.' := fun c hc => by simpa using hsign.ne_point hc
  rw [behindPoint, List.takeWhile_append_of_pos hbefore, htake,
    List.dropWhile_append_of_pos hbefore]
  refine ⟨rfl, ?_⟩
  rcases hdrop with hdrop | ⟨hdrop, rfl⟩ <;> rw [hdrop] <;> rfl

/-- A literal is read as the integer of its digits, with the sign in front, over a power of ten. -/
theorem ofLiteral?_signed_digits {text : String} {sign cs whole fraction : List Char}
    {negative : Bool} (hsign : IsSign sign negative) (h : IsDecimal cs whole fraction)
    (htext : text.toList = sign ++ cs) :
    ofLiteral? text =
      some (mkRat (signed negative (digitsValue (whole ++ fraction)))
        (powerOfTen fraction.length)) := by
  obtain ⟨hwhole, hfraction⟩ := split_signed_digits hsign h
  rw [← htext] at hwhole hfraction
  have hpoint : fraction.contains '.' = false := by
    by_contra hc
    exact ne_point_of_isDigit (h.2.1 '.' (by simpa using hc)) rfl
  have hsome : ((sign ++ whole).isEmpty && fraction.isEmpty) = false := by
    by_contra hc
    obtain ⟨-, hempty, hnone⟩ : sign = [] ∧ whole = [] ∧ fraction = [] := by simpa using hc
    exact h.2.2.1 (by rw [hempty, hnone]; rfl)
  have hdigits : ∀ c ∈ whole ++ fraction, c.isDigit := fun c hc => h.isDigit_of_mem hc
  have hsplit : splitSign (sign ++ whole ++ fraction) = (negative, whole ++ fraction) := by
    rw [List.append_assoc]
    exact hsign.splitSign_append fun c hc => by
      simp [isNumeral, hdigits c (List.mem_of_mem_head? hc)]
  have hint : integer? (sign ++ whole ++ fraction) =
      some (signed negative (digitsValue (whole ++ fraction))) := by
    rw [integer?, hsplit]
    show (natural? (whole ++ fraction)).map (signed negative) = _
    rw [natural?_of_isDigit h.2.2.1 hdigits]
    rfl
  simp only [ofLiteral?, hwhole, hfraction, hpoint, hsome, hint]
  rfl

theorem ofLiteral?_digits {text : String} {whole fraction : List Char}
    (h : IsDecimal text.toList whole fraction) :
    ofLiteral? text =
      some (mkRat (digitsValue (whole ++ fraction)) (powerOfTen fraction.length)) :=
  ofLiteral?_signed_digits .none h rfl

end Exact

/-! ## Binary64 -/

theorem IsDecimal.ofChars?_eq {cs whole fraction : List Char} (h : IsDecimal cs whole fraction) :
    Decimal.ofChars? cs = some ⟨whole ++ fraction, -(fraction.length : Int)⟩ := by
  obtain ⟨htake, hdrop⟩ := h.span_whole (p := Char.isDigit) (fun _ hc => hc) (by decide)
  have hsome : (whole.isEmpty && fraction.isEmpty) = false := by
    by_contra hc
    exact h.2.2.1 (by simpa using hc)
  have hsplit : Decimal.splitFraction (cs.dropWhile Char.isDigit) = (fraction, []) := by
    rcases hdrop with hdrop | ⟨hdrop, rfl⟩
    · have hall : fraction.takeWhile Char.isDigit = fraction := List.takeWhile_eq_self_iff.2 h.2.1
      have hend : fraction.dropWhile Char.isDigit = [] := List.dropWhile_eq_nil_iff.2 h.2.1
      rw [hdrop, Decimal.splitFraction, hall, hend]
    · rw [hdrop]
      rfl
  simp only [Decimal.ofChars?, htake, hsplit, hsome]
  simp [Decimal.exponent?]

namespace Binary64

theorem toLower_of_isNumeral {c : Char} (h : isNumeral c) : c.toLower = c := by
  have hle : c.val ≤ '9'.val := by
    rcases Bool.or_eq_true_iff.1 h with hdigit | hpoint
    · exact of_decide_eq_true (Bool.and_eq_true_iff.1 hdigit).2
    · rw [beq_iff_eq.1 hpoint]
      decide
  refine dif_neg fun hupper => ?_
  exact absurd (UInt32.le_trans hupper.1 hle) (by decide)

theorem word_ne {cs : List Char} (hletter : ∀ c ∈ cs, c.toLower ≠ 'n') {word : String}
    (hword : 'n' ∈ word.toList) : String.ofList (cs.map Char.toLower) ≠ word := by
  rintro rfl
  rw [String.toList_ofList] at hword
  obtain ⟨c, hc, hlower⟩ := List.mem_map.1 hword
  exact hletter c hc hlower

theorem ofMagnitude?_eq (negative : Bool) {cs : List Char}
    (hletter : ∀ c ∈ cs, c.toLower ≠ 'n') :
    ofMagnitude? negative cs = (Decimal.ofChars? cs).map (Decimal.toBinary64 negative) := by
  have hinf : ¬(String.ofList (cs.map Char.toLower) = "inf" ∨
      String.ofList (cs.map Char.toLower) = "infinity") :=
    not_or.2 ⟨word_ne hletter (by decide), word_ne hletter (by decide)⟩
  have hnan : String.ofList (cs.map Char.toLower) ≠ "nan" := word_ne hletter (by decide)
  simp only [ofMagnitude?, if_neg hinf, if_neg hnan]

theorem ofMagnitude?_of_isNumeral (negative : Bool) {cs : List Char}
    (hnum : ∀ c ∈ cs, isNumeral c) :
    ofMagnitude? negative cs = (Decimal.ofChars? cs).map (Decimal.toBinary64 negative) := by
  refine ofMagnitude?_eq negative fun c hc => ?_
  rw [toLower_of_isNumeral (hnum c hc)]
  rintro rfl
  exact absurd (hnum _ hc) (by decide)

theorem ofLiteral?_of_isNumeral {text : String} (hnum : ∀ c ∈ text.toList, isNumeral c) :
    ofLiteral? text = (Decimal.ofChars? text.toList).map (Decimal.toBinary64 false) := by
  have hsplit : splitSign text.toList = (false, text.toList) :=
    splitSign_of_isNumeral fun c hc => hnum c (List.mem_of_mem_head? hc)
  rw [ofLiteral?, hsplit]
  exact ofMagnitude?_of_isNumeral false hnum

/-- A literal is read as the number nearest to its digits over a power of ten, with the sign in
front. -/
theorem ofLiteral?_signed_digits {text : String} {sign cs whole fraction : List Char}
    {negative : Bool} (hsign : IsSign sign negative) (h : IsDecimal cs whole fraction)
    (htext : text.toList = sign ++ cs) :
    ofLiteral? text =
      some (Decimal.toBinary64 negative ⟨whole ++ fraction, -(fraction.length : Int)⟩) := by
  have hnum : ∀ c ∈ cs, isNumeral c := fun c hc => h.isNumeral_of_mem hc
  have hsplit : splitSign text.toList = (negative, cs) := by
    rw [htext]
    exact hsign.splitSign_append fun c hc => hnum c (List.mem_of_mem_head? hc)
  rw [ofLiteral?, hsplit]
  show ofMagnitude? negative cs = _
  rw [ofMagnitude?_of_isNumeral negative hnum, h.ofChars?_eq]
  rfl

theorem ofLiteral?_digits {text : String} {whole fraction : List Char}
    (h : IsDecimal text.toList whole fraction) :
    ofLiteral? text =
      some (Decimal.toBinary64 false ⟨whole ++ fraction, -(fraction.length : Int)⟩) :=
  ofLiteral?_signed_digits .none h rfl

end Binary64

/-! ## Both types of operands -/

/-- A type of operands that reads every well formed literal. -/
class ReadsLiterals (α : Type) [Operand α] : Prop where
  exists_value : ∀ text : String, text.toList.all isNumeral → isLiteral text.toList →
    ∃ v : α, Operand.ofLiteral? text = some v

instance : ReadsLiterals Rat where
  exists_value _ hnum h := by
    obtain ⟨whole, fraction, hdecimal⟩ := exists_digits_of_isLiteral hnum h
    exact ⟨_, Exact.ofLiteral?_digits hdecimal⟩

instance : ReadsLiterals Binary64 where
  exists_value _ hnum h := by
    obtain ⟨whole, fraction, hdecimal⟩ := exists_digits_of_isLiteral hnum h
    exact ⟨_, Binary64.ofLiteral?_digits hdecimal⟩

end Calculator
