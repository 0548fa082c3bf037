import Calculator.Proofs.LastWrites
import Calculator.Proofs.StructuralErrors

/-!
# The limit on the length

A limit counts the characters of an expression as given, blanks included. Counting is skipped if the
number of bytes is within the limit, since no character takes less than one byte
(`length_le_utf8ByteSize`), so the limit is exact for characters of several bytes too.

The check comes before all stages, and none of these has an error about the length. So a call is
refused for its length exactly if the expression exceeds the limit, and any other call is as without
a limit.

Main result: `call_maxLength`.
-/

namespace Calculator

/-- A character takes at least one byte. -/
theorem length_le_utf8ByteSize (text : String) : text.length ≤ text.utf8ByteSize := by
  induction text using String.push_induction with
  | empty => exact Nat.le_refl 0
  | push text c ih =>
    have hc := c.utf8Size_pos
    rw [String.length_push, String.utf8ByteSize_push]
    omega

/-! ## Errors about the length -/

theorem notTooLong_of_stages {α : Type} {expression : String} {next : String → Except EvalError α}
    (hnext : ∀ text, compact expression = .ok text → FailsOnlyWith (·.isStructural) (next text)) :
    FailsOnlyWith (·.kind ≠ .expressionTooLong) (compact expression >>= next) := by
  refine .bind ?_ fun text hcompact => (hnext text hcompact).mono fun _ he =>
    (EvalError.kind_ne_of_isStructural he).2
  rw [compact_eq_match]
  split
  · exact .error (by decide)
  · split
    · exact .ok _
    · exact .error (by simp [EvalError.kind])

namespace Settings

variable {settings : Settings} {expression : String}

theorem notTooLong_evaluateIn {α : Type} [Operand α] [ReadsLiterals α]
    (h : settings.checkLength expression = .ok ()) :
    FailsOnlyWith (·.kind ≠ .expressionTooLong) (settings.evaluateIn α expression).result := by
  rw [result_evaluateIn, h]
  exact notTooLong_of_stages fun _ h => failsStructurally_of_compact h

theorem notTooLong_evaluateDetailed (h : settings.checkLength expression = .ok ()) :
    FailsOnlyWith (·.kind ≠ .expressionTooLong) (settings.evaluateDetailed expression).result := by
  rw [result_evaluateDetailed, h]
  exact notTooLong_of_stages fun _ => failsStructurally_of_compact_detailed

/-- A call within the limit is not refused for its length. -/
theorem notTooLong_call (h : settings.checkLength expression = .ok ()) (entry : Entry) :
    FailsOnlyWith (·.kind ≠ .expressionTooLong) (settings.call expression entry).result := by
  refine call_induction
    (motive := fun call => FailsOnlyWith (·.kind ≠ .expressionTooLong) call.result) ?_ ?_ ?_ entry
  all_goals
    intro f
    rw [Call.result_map]
  · exact (notTooLong_evaluateIn h).map f
  · exact (notTooLong_evaluateIn h).map f
  · exact (notTooLong_evaluateDetailed h).map f

theorem result_call_of_checkLength_error {e : EvalError}
    (h : settings.checkLength expression = .error e) (entry : Entry) :
    (settings.call expression entry).result = .error e := by
  have hin (α : Type) [Operand α] : (settings.evaluateIn α expression).result = .error e := by
    rw [result_evaluateIn, h]
    rfl
  have hdetailed : (settings.evaluateDetailed expression).result = .error e := by
    rw [result_evaluateDetailed, h]
    rfl
  refine call_induction (motive := fun call => call.result = .error e) ?_ ?_ ?_ entry
  · intro f
    rw [Call.result_map, hin]
    rfl
  · intro f
    rw [Call.result_map, hin]
    rfl
  · intro f
    rw [Call.result_map, hdetailed]
    rfl

/-! ## The check -/

/-- **The limit counts characters**, although bytes are compared first. -/
theorem checkLength_of_maxLength {max : Nat} (h : settings.maxLength = some max)
    (expression : String) :
    settings.checkLength expression =
      if expression.length ≤ max then .ok ()
      else .error (.expressionTooLong expression.length max) := by
  have hcount : expression.utf8ByteSize ≤ max ∨ expression.length ≤ max ↔
      expression.length ≤ max := by
    have hbytes := length_le_utf8ByteSize expression
    omega
  simp only [checkLength, h, hcount]

/-- A call under a limit is refused with its length, or gives what it gives without a limit. -/
structure LimitsCall (settings : Settings) (expression : String) (entry : Entry) (max : Nat) :
    Prop where
  check_iff : settings.checkLength expression = .ok () ↔ expression.length ≤ max
  error_iff : ∀ l m, (settings.call expression entry).result = .error (.expressionTooLong l m) ↔
    max < expression.length ∧ l = expression.length ∧ m = max
  eq_unlimited : expression.length ≤ max → ∀ unlimited : Settings, unlimited.maxLength = none →
    unlimited.digits = settings.digits →
    settings.call expression entry = unlimited.call expression entry

theorem limitsCall_of_maxLength {max : Nat} (h : settings.maxLength = some max)
    (expression : String) (entry : Entry) : settings.LimitsCall expression entry max := by
  have hcheck := checkLength_of_maxLength h expression
  by_cases hle : expression.length ≤ max
  · rw [if_pos hle] at hcheck
    constructor
    case check_iff => exact ⟨fun _ => hle, fun _ => hcheck⟩
    case error_iff =>
      intro l m
      constructor
      · intro herror
        exact absurd rfl (notTooLong_call hcheck entry _ herror)
      · intro hlong
        omega
    case eq_unlimited =>
      intro _ unlimited hnone hdigits
      refine call_congr ?_ fun _ => hdigits.symm
      rw [hcheck, checkLength_of_none hnone]
  · rw [if_neg hle] at hcheck
    have hresult := result_call_of_checkLength_error hcheck entry
    constructor
    case check_iff =>
      rw [hcheck]
      exact ⟨fun h => (by cases h), fun hfits => absurd hfits hle⟩
    case error_iff =>
      intro l m
      rw [hresult]
      constructor
      · intro herror
        cases herror
        exact ⟨Nat.lt_of_not_le hle, rfl, rfl⟩
      · rintro ⟨-, rfl, rfl⟩
        rfl
    case eq_unlimited => exact fun hfits => absurd hfits hle

end Settings

/-- **The limit is exact and has no other effect.** With a limit a call is refused for its length
exactly if the expression has more characters, and otherwise it is the call without a limit. Without
a limit no call is refused for its length. -/
theorem call_maxLength (settings : Settings) (expression : String) (entry : Entry) :
    (∀ max, settings.maxLength = some max → settings.LimitsCall expression entry max) ∧
      (settings.maxLength = none →
        FailsOnlyWith (·.kind ≠ .expressionTooLong) (settings.call expression entry).result) := by
  constructor
  · intro max h
    exact Settings.limitsCall_of_maxLength h expression entry
  · intro h
    exact Settings.notTooLong_call (Settings.checkLength_of_none h expression) entry

/-- Three characters are within a limit of three although they take four bytes. With a blank more,
the call is refused for its length and not for its parentheses. -/
theorem call_maxLength_three :
    let settings := ({} : Settings).withMaxLength 3
    settings.maxLength = some 3 ∧ ({} : Settings).maxLength = none ∧
      "(é)".utf8ByteSize = 4 ∧
      settings.call "(é)" .detailed = ({} : Settings).call "(é)" .detailed ∧
      (settings.call ")é) " .reading).result = .error (.expressionTooLong 4 3) ∧
      FailsOnlyWith (·.kind ≠ .expressionTooLong)
        (({} : Settings).call ")é) " .reading).result := by
  intro settings
  have hlimit : settings.maxLength = some 3 := rfl
  have hnone : ({} : Settings).maxLength = none := rfl
  have hwithin := (call_maxLength settings "(é)" .detailed).1 3 hlimit
  have hover := (call_maxLength settings ")é) " .reading).1 3 hlimit
  refine ⟨hlimit, hnone, by decide, ?_, ?_, ?_⟩
  · exact hwithin.eq_unlimited (by decide) {} hnone rfl
  · exact (hover.error_iff 4 3).2 (by decide)
  · exact (call_maxLength {} ")é) " .reading).2 hnone

end Calculator
