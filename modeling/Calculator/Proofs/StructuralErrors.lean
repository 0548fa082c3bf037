import Calculator.Proofs.Agreement
import Calculator.Proofs.DetailedErrors

/-!
# Errors behind the compact text

An expression with a compact text is not empty and holds no foreign character. The errors behind the
compact text are about the numbers, operators and parentheses of the text, or about its value; an
error of another kind comes from the check of the length or from the compact text.

Main results: `failsStructurally_of_compact`, for the stages of the plain and the exact call, and
`failsStructurally_of_compact_detailed`.
-/

namespace Calculator

/-- Whether the error is neither about the text as a whole nor about a single character of it. -/
def EvalError.isStructural : EvalError → Bool
  | emptyExpression | invalidCharacter .. | expressionTooLong .. => false
  | _ => true

theorem EvalError.isStructural_of_not_isTextual {e : EvalError} (h : ¬e.isTextual) :
    e.isStructural := by
  cases e <;> simp_all [isTextual, isStructural]

theorem EvalError.kind_ne_of_isStructural {e : EvalError} (h : e.isStructural) :
    e.kind ≠ .invalidCharacter ∧ e.kind ≠ .expressionTooLong := by
  cases e <;> simp_all [isStructural, kind]

/-! ## The stages -/

section

variable {text : String} (haccepted : ∀ c ∈ text.toList, isAccepted c)

include haccepted

theorem failsStructurally_scan :
    FailsOnlyWith (·.isStructural) (Lexer.ofString text).scan.result := by
  intro e h
  cases herror : (Lexer.ofString text).scan.error? with
  | none =>
    rw [Lexer.Scan.result_of_none herror] at h
    cases h
  | some e' =>
    rw [Lexer.Scan.result_of_error herror] at h
    cases h
    obtain ⟨run, rfl⟩ := Lexer.exists_run_of_scan_error haccepted herror
    rfl

theorem failsStructurally_toPostorder : FailsOnlyWith (·.isStructural) (toPostorder text) := by
  refine .bind (fun e hsteps => ?_) fun yard _ => ?_
  · rw [Yard.error_of_steps hsteps]
    rfl
  · cases herror : (Lexer.ofString text).scan.error? with
    | some e =>
      obtain ⟨run, rfl⟩ := Lexer.exists_run_of_scan_error haccepted herror
      exact .error rfl
    | none =>
      simp only [Yard.finish]
      split
      · exact .ok _
      · exact .error rfl

end

theorem failsStructurally_value {α : Type} [Operand α] [ReadsLiterals α] {text : String}
    {listing : List Token} (h : toPostorder text = .ok listing) :
    FailsOnlyWith (·.isStructural) (Postorder.value listing : Except EvalError α) :=
  (Postorder.failsOnlyWith_value (writable_of_toPostorder h)).mono fun _ =>
    EvalError.isStructural_of_not_isTextual

/-! ## The calls -/

section

variable {expression text : String} (hcompact : compact expression = .ok text)

include hcompact

/-- **Behind the compact text** the plain and the exact call have structural errors only. -/
theorem failsStructurally_of_compact {α : Type} [Operand α] [ReadsLiterals α] :
    FailsOnlyWith (·.isStructural) (do
      let listing ← toPostorder text
      (Postorder.value listing : Except EvalError α)) := by
  have haccepted := (compact_eq_ok_iff.1 hcompact).2.2
  refine (failsStructurally_toPostorder haccepted).bind fun listing hlisting => ?_
  exact failsStructurally_value hlisting

theorem failsStructurally_of_compact_detailed :
    FailsOnlyWith (·.isStructural) (do
      let tokens ← (Lexer.ofString text).scan.result
      let listing ← toPostorder text
      let value : Binary64 ← Postorder.value listing
      return (value, (⟨text, Token.listing tokens, Token.listing listing⟩ : Workings))) := by
  have haccepted := (compact_eq_ok_iff.1 hcompact).2.2
  refine (failsStructurally_scan haccepted).bind fun tokens _ => ?_
  refine (failsStructurally_toPostorder haccepted).bind fun listing hlisting => ?_
  exact (failsStructurally_value hlisting).bind fun v _ => .ok _

end

end Calculator
