import Calculator.Compact

/-!
# Compact text is the text without blanks

`compact` passes over an expression once, counts all characters, drops the blanks and stops at the
first refused character. Here it is compared with a filter and a search.

Main results: `filterMapM_compactChar`, the pass from any position on, and `compact_eq_ok_iff`: an
expression has a compact text exactly if something is left without its blanks and all of it is
accepted, and then this is its compact text.
-/

namespace Calculator

/-- The expression without its blanks. -/
def withoutBlanks (expression : String) : String :=
  String.ofList (expression.toList.filter fun c => !isBlank c)

/-- Whether a character, given with its position, is refused. -/
def isRefused : Char × Nat → Bool
  | (c, _) => !isBlank c && !isAccepted c

/-- **The pass is a filter that stops at the first refused character.** -/
theorem filterMapM_compactChar (cs : List Char) (position : Nat) :
    (cs.zipIdx position).filterMapM compactChar =
      match (cs.zipIdx position).find? isRefused with
      | none => .ok (cs.filter fun c => !isBlank c)
      | some (c, i) => .error (.invalidCharacter c i) := by
  induction cs generalizing position with
  | nil => rfl
  | cons c cs ih =>
    rw [List.zipIdx_cons, List.filterMapM_cons, ih, List.find?_cons]
    by_cases hblank : isBlank c
    · have hchar : compactChar (c, position) = .ok none := if_pos hblank
      have hgo : isRefused (c, position) = false := by simp [isRefused, hblank]
      rw [hchar, hgo, List.filter_cons_of_neg (by simp [hblank])]
      cases (cs.zipIdx (position + 1)).find? isRefused <;> rfl
    · by_cases haccepted : isAccepted c
      · have hchar : compactChar (c, position) = .ok (some c) := by
          simp [compactChar, hblank, haccepted]
        have hgo : isRefused (c, position) = false := by simp [isRefused, haccepted]
        rw [hchar, hgo, List.filter_cons_of_pos (by simp [hblank])]
        cases (cs.zipIdx (position + 1)).find? isRefused <;> rfl
      · have hchar : compactChar (c, position) = .error (.invalidCharacter c position) := by
          simp [compactChar, hblank, haccepted]
        have hstop : isRefused (c, position) = true := by simp [isRefused, hblank, haccepted]
        rw [hchar, hstop]
        rfl

theorem find?_isRefused_eq_none_iff (cs : List Char) (position : Nat) :
    (cs.zipIdx position).find? isRefused = none ↔
      ∀ c ∈ cs.filter fun c => !isBlank c, isAccepted c := by
  induction cs generalizing position with
  | nil => simp
  | cons c cs ih =>
    rw [List.zipIdx_cons, List.find?_cons, List.filter_cons]
    by_cases hblank : isBlank c <;> by_cases haccepted : isAccepted c <;>
      simp [isRefused, hblank, haccepted, ih]

/-- **The compact text by cases**: nothing is left without blanks, a character is refused, or
neither. -/
theorem compact_eq_match (expression : String) :
    compact expression =
      if (withoutBlanks expression).toList = [] then .error .emptyExpression
      else match expression.toList.zipIdx.find? isRefused with
        | none => .ok (withoutBlanks expression)
        | some (c, i) => .error (.invalidCharacter c i) := by
  have hempty : (withoutBlanks expression).toList = [] ↔ expression.toList.all isBlank := by
    simp [withoutBlanks]
  unfold compact
  rw [filterMapM_compactChar]
  by_cases hblank : expression.toList.all isBlank
  · rw [if_pos hblank, if_pos (hempty.2 hblank)]
  · rw [if_neg hblank, if_neg (mt hempty.1 hblank)]
    cases expression.toList.zipIdx.find? isRefused <;> rfl

/-- **When there is a compact text, and which.** -/
theorem compact_eq_ok_iff {expression text : String} :
    compact expression = .ok text ↔
      text = withoutBlanks expression ∧ text.toList ≠ [] ∧ ∀ c ∈ text.toList, isAccepted c := by
  have hnone : expression.toList.zipIdx.find? isRefused = none ↔
      ∀ c ∈ (withoutBlanks expression).toList, isAccepted c := by
    rw [find?_isRefused_eq_none_iff, withoutBlanks, String.toList_ofList]
  rw [compact_eq_match]
  constructor
  · intro h
    split at h
    · cases h
    · next hne =>
      split at h
      · next hfind =>
        cases h
        exact ⟨rfl, hne, hnone.1 hfind⟩
      · cases h
  · rintro ⟨rfl, hne, haccepted⟩
    rw [if_neg hne, hnone.2 haccepted]

/-! ## Texts in which nothing is refused -/

/-- The text consists of blanks and accepted characters. -/
def Admissible (text : String) : Prop :=
  ∀ c ∈ text.toList, isBlank c ∨ isAccepted c

instance (text : String) : Decidable (Admissible text) :=
  List.decidableBAll (fun c => isBlank c ∨ isAccepted c) text.toList

theorem admissible_iff {text : String} :
    Admissible text ↔ ∀ c ∈ (withoutBlanks text).toList, isAccepted c := by
  simp [Admissible, withoutBlanks, Decidable.or_iff_not_imp_left]

theorem admissible_append {s t : String} : Admissible (s ++ t) ↔ Admissible s ∧ Admissible t := by
  simp only [Admissible, String.toList_append, List.forall_mem_append]

theorem withoutBlanks_append (s t : String) :
    withoutBlanks (s ++ t) = withoutBlanks s ++ withoutBlanks t := by
  simp [withoutBlanks]

theorem Admissible.compact_eq {text : String} (h : Admissible text)
    (hne : (withoutBlanks text).toList ≠ []) : compact text = .ok (withoutBlanks text) :=
  compact_eq_ok_iff.2 ⟨rfl, hne, admissible_iff.1 h⟩

/-! ## The alphabet -/

/-- The accepted characters, one by one. -/
def alphabet : List Char :=
  "0123456789.+-*/%()".toList

theorem mem_alphabet_of_isDigit {c : Char} (h : c.isDigit) : c ∈ alphabet := by
  have hlow : 48 ≤ c.toNat := of_decide_eq_true (Bool.and_eq_true_iff.1 h).1
  have hhigh : c.toNat ≤ 57 := of_decide_eq_true (Bool.and_eq_true_iff.1 h).2
  have hdigits : ∀ n < 10, Char.ofNat (48 + n) ∈ alphabet := by decide
  have hmem := hdigits (c.toNat - 48) (by omega)
  rwa [Nat.add_sub_cancel' hlow, Char.ofNat_toNat] at hmem

/-- The accepted characters are those of the alphabet. -/
theorem isAccepted_iff_mem_alphabet {c : Char} : isAccepted c ↔ c ∈ alphabet := by
  constructor
  · intro h
    rcases Bool.or_eq_true_iff.1 h with hnumeral | htoken
    · rcases Bool.or_eq_true_iff.1 hnumeral with hdigit | hpoint
      · exact mem_alphabet_of_isDigit hdigit
      · rw [beq_iff_eq.1 hpoint]
        decide
    · obtain ⟨t, ht⟩ := Option.isSome_iff_exists.1 htoken
      unfold Token.ofChar? at ht
      split at ht
      · decide
      · decide
      · obtain ⟨o, ho, -⟩ := Option.map_eq_some_iff.1 ht
        rw [Operator.ofChar?_eq_some_iff.1 ho]
        cases o <;> decide
  · have hall : alphabet.all isAccepted := by decide
    exact List.all_eq_true.1 hall c

/-! ## Texts without blanks -/

theorem not_isBlank_of_isAccepted {c : Char} (h : isAccepted c) : ¬isBlank c := by
  have hall : alphabet.all fun d => !isBlank d := by decide
  simpa using List.all_eq_true.1 hall c (isAccepted_iff_mem_alphabet.1 h)

theorem withoutBlanks_eq_self {text : String} (h : ∀ c ∈ text.toList, isAccepted c) :
    withoutBlanks text = text := by
  have hfilter : text.toList.filter (fun c => !isBlank c) = text.toList := by
    refine List.filter_eq_self.2 fun c hc => ?_
    simpa using not_isBlank_of_isAccepted (h c hc)
  rw [withoutBlanks, hfilter, String.ofList_toList]

end Calculator
