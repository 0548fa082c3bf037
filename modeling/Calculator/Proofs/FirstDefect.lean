import Calculator.Proofs.DetailedErrors
import Calculator.Proofs.Iteration
import Mathlib.Data.List.Infix

/-!
# The first defect of a text

A conversion takes the tokens as they are read, and reports the first of several defects. A closing
parenthesis without partner is found at its place, a reading error behind all tokens, and an
unclosed parenthesis at the end of the text.

The waiting operators play no role: only parentheses open and close scopes, so scopes can be counted
in the text.

Main result: `toPostorder_eq_error_iff`.
-/

namespace Calculator

/-- The first defect of a text with these tokens, followed by this error if there is one. -/
def firstDefect? (tokens : List Token) (error? : Option EvalError) : Option EvalError :=
  if ∃ start ∈ tokens.inits, start.count .lparen < start.count .rparen then
    some .mismatchedParentheses
  else match error? with
    | some e => some e
    | none =>
      if tokens.count .rparen < tokens.count .lparen then some .mismatchedParentheses else none

theorem Token.closesOpened_zero_iff {tokens : List Token} :
    ClosesOpened 0 tokens ↔ ¬∃ start ∈ tokens.inits, start.count .lparen < start.count .rparen := by
  simp only [ClosesOpened, List.mem_inits, Nat.zero_add, not_exists, not_and, not_lt]

/-! ## The end of a conversion -/

theorem Yard.finish_eq_error_iff {yard : Yard} {e : EvalError} :
    yard.finish = .error e ↔ yard.outer ≠ [] ∧ e = .mismatchedParentheses := by
  cases h : yard.outer <;> simp [finish, h, eq_comm]

section

variable {text : String} (hcloses : Token.ClosesOpened 0 (Lexer.ofString text).scan.tokens)
  (hread : (Lexer.ofString text).scan.error? = none)

include hcloses hread

theorem exists_yard_of_scan :
    ∃ yard : Yard, toPostorder text = yard.finish ∧
      yard.outer.length + (Lexer.ofString text).scan.tokens.count .rparen =
        (Lexer.ofString text).scan.tokens.count .lparen := by
  obtain ⟨yard, hsteps⟩ := (Yard.steps_isOk_iff {} _).2 hcloses
  refine ⟨yard, ?_, ?_⟩
  · simp only [toPostorder, hsteps, hread]
    rfl
  · have hlength := Yard.length_outer_of_steps hsteps
    rwa [show ({} : Yard).outer.length = 0 from rfl, Nat.zero_add] at hlength

end

/-! ## The first defect is the error -/

theorem toPostorder_of_firstDefect?_eq_some {text : String} {e : EvalError}
    (h : firstDefect? (Lexer.ofString text).scan.tokens (Lexer.ofString text).scan.error? =
      some e) :
    toPostorder text = .error e := by
  unfold firstDefect? at h
  split at h
  · next hstart =>
    cases h
    exact toPostorder_of_not_closesOpened fun hcloses =>
      Token.closesOpened_zero_iff.1 hcloses hstart
  · next hstart =>
    have hcloses := Token.closesOpened_zero_iff.2 hstart
    split at h
    · next e' herror =>
      cases h
      exact toPostorder_of_scan_error hcloses herror
    · next hread =>
      -- All tokens are taken, and the depth of the yard is the number of open parentheses.
      obtain ⟨yard, hfinish, hlength⟩ := exists_yard_of_scan hcloses hread
      split at h
      · next hopen =>
        cases h
        rw [hfinish, Yard.finish_eq_error_iff]
        refine ⟨fun houter => ?_, rfl⟩
        rw [houter] at hlength
        simp only [List.length_nil] at hlength
        omega
      · cases h

theorem exists_of_firstDefect?_eq_none {text : String}
    (h : firstDefect? (Lexer.ofString text).scan.tokens (Lexer.ofString text).scan.error? = none) :
    ∃ listing, toPostorder text = .ok listing := by
  unfold firstDefect? at h
  split at h
  · cases h
  · next hstart =>
    split at h
    · cases h
    · next hread =>
      obtain ⟨yard, hfinish, hlength⟩ :=
        exists_yard_of_scan (Token.closesOpened_zero_iff.2 hstart) hread
      split at h
      · cases h
      · next hopen =>
        have houter : yard.outer = [] := List.eq_nil_of_length_eq_zero (by omega)
        exact ⟨_, hfinish.trans (Yard.finish_of_outer houter)⟩

/-- **A conversion fails with the first defect.** A text has a listing exactly if its tokens have no
defect and no error follows them. Otherwise the error is the first in the order of the text: a
closing parenthesis without partner, then a reading error, then an unclosed parenthesis. -/
theorem toPostorder_eq_error_iff (text : String) :
    ∃ (tokens : List Token) (error? : Option EvalError),
      (Lexer.ofString text).Yields (tokens.map .ok ++ (error?.map .error).toList) ∧
        (∀ e, toPostorder text = .error e ↔ firstDefect? tokens error? = some e) ∧
        ((∃ listing, toPostorder text = .ok listing) ↔ firstDefect? tokens error? = none) := by
  refine ⟨_, _, Lexer.yields_iff.2 rfl, ?_⟩
  cases hdefect : firstDefect? (Lexer.ofString text).scan.tokens
      (Lexer.ofString text).scan.error? with
  | some e =>
    rw [toPostorder_of_firstDefect?_eq_some hdefect]
    simp
  | none =>
    obtain ⟨listing, hlisting⟩ := exists_of_firstDefect?_eq_none hdefect
    rw [hlisting]
    simp

/-- Each of these texts is wrong in two ways. -/
example : toPostorder "(2))1.2.3" = .error .mismatchedParentheses ∧
    toPostorder "(2+." = .error (.invalidNumber ".") := by
  decide +kernel

end Calculator
