import Calculator.Proofs.CompactText
import Calculator.Proofs.Lexing
import Calculator.Proofs.Parentheses
import Calculator.Proofs.Stages

/-!
# The errors of a detailed call

A plain call converts the tokens as they are read, a detailed one reads all of them first. Both fail
on the same expressions, and with the same error unless a closing parenthesis without partner comes
before a run of digits and points that is no literal. Then the plain call reports the parenthesis,
and the detailed one the run.

Main result: `evaluateDetailed_error_iff`.
-/

namespace Calculator

/-! ## Two errors in one text -/

/-- The text has a reading error, with a closing parenthesis without partner before it. -/
structure ClosesBeforeError (text : String) : Prop where
  error : (Lexer.ofString text).scan.error? ≠ none
  closes : ¬Token.ClosesOpened 0 (Lexer.ofString text).scan.tokens

/-- In accepted characters the only reading error is a run that is no literal. -/
theorem Lexer.exists_run_of_scan_error {lexer : Lexer} (haccepted : ∀ c ∈ lexer.rest, isAccepted c)
    {e : EvalError} (h : lexer.scan.error? = some e) : ∃ run, e = .invalidNumber run := by
  induction lexer using scan_induction with
  | none lexer hnext =>
    rw [scan_of_none hnext] at h
    cases h
  | error lexer e' after hnext =>
    rw [scan_of_error hnext] at h
    cases h
    rcases next?_error_cases hnext with ⟨he, -⟩ | ⟨c, hc, hforeign, -⟩
    · exact ⟨_, he⟩
    · exact absurd (haccepted c (List.mem_of_mem_head? hc)) hforeign
  | ok lexer t after hnext ih =>
    rw [scan_of_ok hnext] at h
    refine ih (fun c hc => haccepted c ?_) h
    rw [(next?_ok_text hnext).2.1]
    exact List.mem_append_right _ hc

theorem toPostorder_of_not_closesOpened {text : String}
    (h : ¬Token.ClosesOpened 0 (Lexer.ofString text).scan.tokens) :
    toPostorder text = .error .mismatchedParentheses := by
  refine bind_eq_error_iff.2 (.inl ?_)
  cases hsteps : Yard.steps {} (Lexer.ofString text).scan.tokens with
  | error e => rw [Yard.error_of_steps hsteps]
  | ok yard => exact absurd ((Yard.steps_isOk_iff {} _).1 ⟨yard, hsteps⟩) h

/-- A reading error is that of the conversion if no closing parenthesis without partner comes before
it. -/
theorem toPostorder_of_scan_error {text : String} {e : EvalError}
    (hcloses : Token.ClosesOpened 0 (Lexer.ofString text).scan.tokens)
    (h : (Lexer.ofString text).scan.error? = some e) : toPostorder text = .error e := by
  obtain ⟨yard, hsteps⟩ := (Yard.steps_isOk_iff {} _).2 hcloses
  refine bind_eq_error_iff.2 (.inr ⟨yard, hsteps, ?_⟩)
  rw [h]
  rfl

/-! ## The two calls -/

namespace Settings

/-- The expression has a compact text, and this closes a parenthesis that is not open before a run
that is no literal. -/
def ClosesFirst (settings : Settings) (expression : String) : Prop :=
  settings.checkLength expression = .ok () ∧
    ∃ text, compact expression = .ok text ∧ ClosesBeforeError text

variable {settings : Settings} {expression : String}

theorem errors_of_closesFirst (h : settings.ClosesFirst expression) :
    (settings.evaluate expression).result = .error .mismatchedParentheses ∧
      ∃ run, (settings.evaluateDetailed expression).result = .error (.invalidNumber run) := by
  obtain ⟨hlength, text, hcompact, hfirst⟩ := h
  obtain ⟨e, he⟩ := Option.ne_none_iff_exists'.1 hfirst.error
  obtain ⟨run, rfl⟩ := Lexer.exists_run_of_scan_error (compact_eq_ok_iff.1 hcompact).2.2 he
  refine ⟨?_, run, ?_⟩
  · rw [evaluate, result_evaluateIn]
    refine bind_eq_error_iff.2 (.inr ⟨(), hlength, ?_⟩)
    refine bind_eq_error_iff.2 (.inr ⟨text, hcompact, ?_⟩)
    exact bind_eq_error_iff.2 (.inl (toPostorder_of_not_closesOpened hfirst.closes))
  · rw [result_evaluateDetailed]
    refine bind_eq_error_iff.2 (.inr ⟨(), hlength, ?_⟩)
    refine bind_eq_error_iff.2 (.inr ⟨text, hcompact, ?_⟩)
    exact bind_eq_error_iff.2 (.inl (Lexer.Scan.result_of_error he))

theorem error_iff_of_not_closesFirst (h : ¬settings.ClosesFirst expression) (e : EvalError) :
    (settings.evaluate expression).result = .error e ↔
      (settings.evaluateDetailed expression).result = .error e := by
  rw [evaluate, result_evaluateIn, result_evaluateDetailed]
  refine bind_error_congr (fun _ hlength => ?_) e
  refine bind_error_congr fun text hcompact e => ?_
  cases herror : (Lexer.ofString text).scan.error? with
  | some e' =>
    -- The detailed call fails here, and the plain one at the same place.
    have hcloses : Token.ClosesOpened 0 (Lexer.ofString text).scan.tokens := by
      by_contra hcloses
      exact h ⟨hlength, text, hcompact, by simp [herror], hcloses⟩
    rw [Lexer.Scan.result_of_error herror, toPostorder_of_scan_error hcloses herror]
    refine ⟨?_, ?_⟩
    · intro he
      cases he
      rfl
    · intro he
      cases he
      rfl
  | none =>
    rw [Lexer.Scan.result_of_none herror]
    refine bind_error_congr (fun listing _ e => ?_) e
    refine ⟨fun hvalue => bind_eq_error_iff.2 (.inl hvalue), fun hvalue => ?_⟩
    rcases bind_eq_error_iff.1 hvalue with hvalue | ⟨v, -, hreturn⟩
    · exact hvalue
    · cases hreturn

end Settings

/-- **Where the two calls differ.** Both fail or neither does. They fail with the same error, unless
the text closes a parenthesis that is not open before a run that is no literal; exactly then the
plain call reports the parenthesis and the detailed one the run. -/
theorem evaluateDetailed_error_iff (settings : Settings) (expression : String) :
    ((∃ e, (settings.evaluate expression).result = .error e) ↔
      ∃ e, (settings.evaluateDetailed expression).result = .error e) ∧
    ((∀ e, (settings.evaluate expression).result = .error e ↔
        (settings.evaluateDetailed expression).result = .error e) ↔
      ¬settings.ClosesFirst expression) ∧
    (((settings.evaluate expression).result = .error .mismatchedParentheses ∧
        ∃ run, (settings.evaluateDetailed expression).result = .error (.invalidNumber run)) ↔
      settings.ClosesFirst expression) := by
  by_cases h : settings.ClosesFirst expression
  · obtain ⟨hplain, run, hdetailed⟩ := Settings.errors_of_closesFirst h
    refine ⟨⟨fun _ => ⟨_, hdetailed⟩, fun _ => ⟨_, hplain⟩⟩, ⟨?_, absurd h⟩,
      ⟨fun _ => h, fun _ => ⟨hplain, run, hdetailed⟩⟩⟩
    intro hsame
    have hparenthesis := (hsame _).1 hplain
    rw [hdetailed] at hparenthesis
    cases hparenthesis
  · have hsame := Settings.error_iff_of_not_closesFirst h
    refine ⟨exists_congr hsame, ⟨fun _ => h, fun _ => hsame⟩, ⟨?_, fun hfirst => absurd hfirst h⟩⟩
    intro hboth
    obtain ⟨hplain, run, hdetailed⟩ := hboth
    rw [(hsame _).1 hplain] at hdetailed
    cases hdetailed

/-- A parenthesis without partner before a number with two points: the calls report different
errors. -/
theorem evaluateDetailed_error_ne :
    (({} : Settings).evaluate "2)1.2.3").result = .error .mismatchedParentheses ∧
      (({} : Settings).evaluateDetailed "2)1.2.3").result = .error (.invalidNumber "1.2.3") := by
  refine ⟨?_, ?_⟩ <;> decide +kernel

end Calculator
