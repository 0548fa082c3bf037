import Calculator.Proofs.Acceptance

/-!
# Binary64 and exact numbers fail alike

The plain and the exact call share all stages but the last, which runs one listing in two types of
operands. The run depends on a value only as a zero divisor. So both machines read every literal,
their stacks keep equal heights, and they fail with the same error unless one of them divides by
zero (`Postorder.alike_steps`).

A listing has no parentheses and only literals that are read, so the machine has no error about the
text of the expression. The stages before it are the same for both calls.

Main result: `evaluate_alike`.
-/

namespace Calculator

/-! ## Kinds of errors -/

namespace EvalError

/-- Whether the error is a division by zero. -/
def isZeroDivision : EvalError → Bool
  | divisionByZero | moduloByZero => true
  | _ => false

/-- Whether the error is about the text of an expression, independent of its operands. -/
def isTextual : EvalError → Bool
  | emptyExpression | invalidCharacter .. | invalidNumber _ | mismatchedParentheses
  | expressionTooLong .. => true
  | _ => false

end EvalError

theorem Operator.isZeroDivision_of_zeroError? {o : Operator} {e : EvalError}
    (h : o.zeroError? = some e) : e.isZeroDivision := by
  cases o <;> cases h <;> rfl

theorem ReadsLiterals.exists_of_isWritable {α : Type} [Operand α] [ReadsLiterals α]
    {text : String} (h : (Token.num text).isWritable) :
    ∃ v : α, Operand.ofLiteral? text = some v := by
  obtain ⟨hall, hlit⟩ := Token.isWritable_num.1 h
  exact exists_value text hall hlit

/-! ## Results that are alike -/

/-- Two results are alike if they are related values or the same error, or if one of them is a
division by zero. -/
inductive Alike {α β : Type} (R : α → β → Prop) :
    Except EvalError α → Except EvalError β → Prop
  | ok {a : α} {b : β} (h : R a b) : Alike R (.ok a) (.ok b)
  | error (e : EvalError) : Alike R (.error e) (.error e)
  | zeroLeft {e : EvalError} (h : e.isZeroDivision) (y : Except EvalError β) :
      Alike R (.error e) y
  | zeroRight {e : EvalError} (h : e.isZeroDivision) (x : Except EvalError α) :
      Alike R x (.error e)

theorem Alike.bind {α β γ δ : Type} {R : α → β → Prop} {S : γ → δ → Prop}
    {x : Except EvalError α} {y : Except EvalError β} {f : α → Except EvalError γ}
    {g : β → Except EvalError δ} (h : Alike R x y) (hnext : ∀ a b, R a b → Alike S (f a) (g b)) :
    Alike S (x >>= f) (y >>= g) := by
  cases h with
  | ok hab => exact hnext _ _ hab
  | error e => exact .error e
  | zeroLeft he y => exact .zeroLeft he _
  | zeroRight he x => exact .zeroRight he _

/-! ## Two machines -/

namespace Postorder

variable {α β : Type}

/-- Stacks of the same height, with any values. -/
abbrev SameHeight (as : List α) (bs : List β) : Prop :=
  List.Forall₂ (fun _ _ => True) as bs

theorem alike_top {as : List α} {bs : List β} (hheight : SameHeight as bs) :
    Alike (fun _ _ => True) (top as) (top bs) := by
  rcases hheight with _ | ⟨-, _ | ⟨-, -⟩⟩
  · exact .error .insufficientOperands
  · exact .ok trivial
  · exact .error .tooManyOperands

variable [Operand α] [Operand β]

theorem alike_apply (o : Operator) (a b : α) (c d : β) :
    Alike (fun _ _ => True) (o.apply a b) (o.apply c d) := by
  cases hleft : o.apply a b with
  | error e =>
    obtain ⟨-, he⟩ := Operator.apply_eq_error_iff.1 hleft
    exact .zeroLeft (Operator.isZeroDivision_of_zeroError? he) _
  | ok v =>
    cases hright : o.apply c d with
    | error e =>
      obtain ⟨-, he⟩ := Operator.apply_eq_error_iff.1 hright
      exact .zeroRight (Operator.isZeroDivision_of_zeroError? he) _
    | ok w => exact .ok trivial

/-- A step keeps the heights of two stacks equal. -/
theorem alike_step [ReadsLiterals α] [ReadsLiterals β] {as : List α} {bs : List β}
    (hheight : SameHeight as bs) {t : Token} (ht : t.isWritable) :
    Alike SameHeight (step as t) (step bs t) := by
  cases t with
  | num text =>
    obtain ⟨v, hv⟩ := ReadsLiterals.exists_of_isWritable (α := α) ht
    obtain ⟨w, hw⟩ := ReadsLiterals.exists_of_isWritable (α := β) ht
    simp only [step, hv, hw]
    exact .ok (.cons trivial hheight)
  | op o =>
    rcases hheight with _ | ⟨-, _ | ⟨-, hbelow⟩⟩
    · exact .error .insufficientOperands
    · exact .error .insufficientOperands
    · refine (alike_apply o _ _ _ _).bind ?_
      intro _ _ _
      exact .ok (.cons trivial hbelow)
  | lparen => exact .error .mismatchedParentheses
  | rparen => exact .error .mismatchedParentheses

/-- **Two machines run alike**, in any types of operands, unless one of them divides by zero. -/
theorem alike_steps [ReadsLiterals α] [ReadsLiterals β] {as : List α} {bs : List β}
    (hheight : SameHeight as bs) {tokens : List Token} (h : ∀ t ∈ tokens, t.isWritable) :
    Alike SameHeight (steps as tokens) (steps bs tokens) := by
  -- The values differ from the first rounding on; only the heights carry the induction.
  induction tokens generalizing as bs with
  | nil => exact .ok hheight
  | cons t ts ih =>
    obtain ⟨ht, hts⟩ := List.forall_mem_cons.1 h
    rw [steps_cons, steps_cons]
    exact (alike_step hheight ht).bind fun _ _ hnext => ih hnext hts

theorem alike_value [ReadsLiterals α] [ReadsLiterals β] {tokens : List Token}
    (h : ∀ t ∈ tokens, t.isWritable) :
    Alike (fun _ _ => True) (value tokens : Except EvalError α)
      (value tokens : Except EvalError β) := by
  have hempty : SameHeight ([] : List α) ([] : List β) := .nil
  exact (alike_steps hempty h).bind fun _ _ hheight => alike_top hheight

/-! ## Errors of the machine -/

/-- On numbers and operators the machine has no textual error. -/
theorem failsOnlyWith_step [ReadsLiterals α] {t : Token} (ht : t.isWritable ∧ ¬t.isParenthesis)
    (stack : List α) : FailsOnlyWith (fun e => ¬e.isTextual) (step stack t) := by
  cases t with
  | num text =>
    obtain ⟨v, hv⟩ := ReadsLiterals.exists_of_isWritable (α := α) ht.1
    simp only [step, hv]
    exact .ok _
  | op o =>
    rcases stack with _ | ⟨right, _ | ⟨left, below⟩⟩
    · exact .error Bool.false_ne_true
    · exact .error Bool.false_ne_true
    · refine .bind (fun e happly => ?_) fun v _ => .ok (v :: below)
      obtain ⟨-, he⟩ := Operator.apply_eq_error_iff.1 happly
      cases o <;> cases he <;> exact Bool.false_ne_true
  | lparen => exact absurd rfl ht.2
  | rparen => exact absurd rfl ht.2

theorem failsOnlyWith_value [ReadsLiterals α] {tokens : List Token}
    (hlisting : ∀ t ∈ tokens, t.isWritable ∧ ¬t.isParenthesis) :
    FailsOnlyWith (fun e => ¬e.isTextual) (value tokens : Except EvalError α) := by
  have hsteps := FailsOnlyWith.run (fun t ht => failsOnlyWith_step (hlisting t ht)) ([] : List α)
  refine hsteps.bind fun stack _ => ?_
  rcases stack with _ | ⟨_, _ | ⟨_, _⟩⟩
  · exact .error Bool.false_ne_true
  · exact .ok _
  · exact .error Bool.false_ne_true

end Postorder

/-! ## The two calls -/

/-- A listing consists of literals and operators. -/
theorem writable_of_toPostorder {text : String} {listing : List Token}
    (h : toPostorder text = .ok listing) :
    ∀ t ∈ listing, t.isWritable ∧ ¬t.isParenthesis := by
  obtain ⟨tokens, hread, -, hfinish⟩ := exists_tokens_of_toPostorder h
  intro t ht
  have hmem : t ∈ tokens ∧ ¬t.isParenthesis := by
    simpa using (Yard.perm_of_finish hfinish).mem_iff.1 ht
  exact ⟨hread.writable t hmem.1, hmem.2⟩

namespace Settings

theorem writable_of_listing {settings : Settings} {expression : String} {tokens : List Token}
    (h : settings.listing expression = .ok tokens) :
    ∀ t ∈ tokens, t.isWritable ∧ ¬t.isParenthesis := by
  obtain ⟨-, -, h⟩ := bind_eq_ok_iff.1 h
  obtain ⟨text, -, htext⟩ := bind_eq_ok_iff.1 h
  exact writable_of_toPostorder htext

variable {α : Type} [Operand α]

theorem result_evaluateIn_eq_textual_iff [ReadsLiterals α] {settings : Settings}
    {expression : String} {e : EvalError} (he : e.isTextual) :
    (settings.evaluateIn α expression).result = .error e ↔
      settings.listing expression = .error e := by
  rw [result_evaluateIn_eq_bind]
  constructor
  · intro h
    rcases bind_eq_error_iff.1 h with hlisting | ⟨tokens, hlisting, hvalue⟩
    · exact hlisting
    · exact absurd he (Postorder.failsOnlyWith_value (writable_of_listing hlisting) e hvalue)
  · intro h
    exact bind_eq_error_iff.2 (.inl h)

theorem alike_result (α β : Type) [Operand α] [Operand β] [ReadsLiterals α] [ReadsLiterals β]
    (settings : Settings) (expression : String) :
    Alike (fun _ _ => True) (settings.evaluateIn α expression).result
      (settings.evaluateIn β expression).result := by
  rw [result_evaluateIn_eq_bind, result_evaluateIn_eq_bind]
  cases hlisting : settings.listing expression with
  | error e => exact .error e
  | ok tokens => exact Postorder.alike_value fun t ht => (writable_of_listing hlisting t ht).1

end Settings

/-- **Both calls fail alike.** They have the same textual errors. If neither divides by zero, both
have a value or both fail with the same error. -/
theorem evaluate_alike (settings : Settings) (expression : String) :
    (∀ e : EvalError, e.isTextual → ((settings.evaluate expression).result = .error e ↔
        (settings.evaluateExact expression).result = .error e)) ∧
      ((∀ e : EvalError, e.isZeroDivision → (settings.evaluate expression).result ≠ .error e ∧
          (settings.evaluateExact expression).result ≠ .error e) →
        (∃ v w, (settings.evaluate expression).result = .ok v ∧
            (settings.evaluateExact expression).result = .ok w) ∨
          ∃ e, (settings.evaluate expression).result = .error e ∧
            (settings.evaluateExact expression).result = .error e) := by
  constructor
  · intro e he
    exact (Settings.result_evaluateIn_eq_textual_iff he).trans
      (Settings.result_evaluateIn_eq_textual_iff he).symm
  · intro hzero
    rw [Settings.evaluate, Settings.evaluateExact] at hzero ⊢
    have halike := Settings.alike_result Binary64 Rat settings expression
    generalize (settings.evaluateIn Binary64 expression).result = x at halike hzero ⊢
    generalize (settings.evaluateIn Rat expression).result = y at halike hzero ⊢
    cases halike with
    | ok _ => exact .inl ⟨_, _, rfl, rfl⟩
    | error e => exact .inr ⟨e, rfl, rfl⟩
    | zeroLeft he y => exact absurd rfl (hzero _ he).1
    | zeroRight he x => exact absurd rfl (hzero _ he).2

/-- An unclosed parenthesis is a textual error of both calls. A missing operand is an error of both,
as neither divides by zero. -/
theorem evaluate_alike_unclosed_and_incomplete :
    (({} : Settings).evaluate "(1/3").result = .error .mismatchedParentheses ∧
      ∃ e, (({} : Settings).evaluate "1/3+").result = .error e ∧
        (({} : Settings).evaluateExact "1/3+").result = .error e := by
  have hunclosed :
      (({} : Settings).evaluateExact "(1/3").result = .error .mismatchedParentheses := by
    decide +kernel
  have hplain : (({} : Settings).evaluate "1/3+").result = .error .insufficientOperands := by
    decide +kernel
  have hexact : (({} : Settings).evaluateExact "1/3+").result = .error .insufficientOperands := by
    decide +kernel
  have hzero (e : EvalError) (he : e.isZeroDivision) :
      (({} : Settings).evaluate "1/3+").result ≠ .error e ∧
        (({} : Settings).evaluateExact "1/3+").result ≠ .error e := by
    rw [hplain, hexact]
    cases e <;> simp_all [EvalError.isZeroDivision]
  refine ⟨((evaluate_alike {} "(1/3").1 _ rfl).2 hunclosed, ?_⟩
  rcases (evaluate_alike {} "1/3+").2 hzero with ⟨v, -, hv, -⟩ | h
  · rw [hplain] at hv
    cases hv
  · exact h

/-- A sum that is zero in exact numbers only: one call divides by zero, and the other does not. -/
example : (({} : Settings).evaluate "1/(0.1+0.2-0.3)").result.isOk ∧
    (({} : Settings).evaluateExact "1/(0.1+0.2-0.3)").result = .error .divisionByZero := by
  decide +kernel

end Calculator
