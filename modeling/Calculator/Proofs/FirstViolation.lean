import Calculator.Proofs.Acceptance
import Calculator.Proofs.ListingValue

/-!
# The first violation of a listing

A listing can be wrong in many places, and the machine reports the first of them. The wrong tokens
can be described without the machine: a parenthesis, a number that is not read, an operator with
fewer than two values before it, and a division by zero. Each number adds a value and each operator
removes one, so the values are counted by counting tokens (`Token.surplus`). The right operand of an
operator is the value of the last complete listing before it (`LastValue`).

As long as nothing is wrong, the machine has one value on its stack for each tree whose listing it
has read. So the height of the stack is the surplus, its top is the last value, and a step fails
exactly on a violation (`Postorder.step_eq_error_iff_violation`).

Main result: `Postorder.value_eq_error_iff_firstViolation`.
-/

namespace Calculator

/-! ## Violations -/

/-- The number of numbers minus the number of operators. -/
def Token.surplus (tokens : List Token) : Int :=
  tokens.countP isNumber - tokens.countP isOperator

namespace Postorder

section

variable (α : Type) [Operand α]

/-- The tokens end with the listing of a tree with this value. -/
def LastValue {α : Type} [Operand α] (tokens : List Token) (v : α) : Prop :=
  ∃ (before : List Token) (tree : Expression),
    tokens = before ++ tree.postorder ∧ tree.HasValue v

/-- What is wrong with a token behind others. The value of the right operand is used only if there
are enough operands; it exists if nothing before is wrong. -/
inductive Violation (before : List Token) : Token → EvalError → Prop
  | lparen : Violation before .lparen .mismatchedParentheses
  | rparen : Violation before .rparen .mismatchedParentheses
  | number {text : String} (unread : (Operand.ofLiteral? text : Option α) = none) :
      Violation before (.num text) (.invalidNumber text)
  | operands {o : Operator} (few : Token.surplus before < 2) :
      Violation before (.op o) .insufficientOperands
  | zero {o : Operator} {e : EvalError} {b : α} (enough : 2 ≤ Token.surplus before)
      (divides : o.zeroError? = some e) (right : LastValue before b) (zero : Operand.isZero b) :
      Violation before (.op o) e

/-- Nothing is wrong with any of the tokens. -/
def Clean (tokens : List Token) : Prop :=
  ∀ before t after, tokens = before ++ t :: after → ∀ e, ¬Violation α before t e

/-- The error of the first token that is wrong. -/
def FirstViolation (tokens : List Token) (e : EvalError) : Prop :=
  ∃ before t after, tokens = before ++ t :: after ∧ Clean α before ∧ Violation α before t e

end

/-- The error at the end of clean tokens, unless there is exactly one value. -/
def endError? (tokens : List Token) : Option EvalError :=
  if tokens = [] then some .insufficientOperands
  else if 1 < Token.surplus tokens then some .tooManyOperands
  else none

end Postorder

/-- **The last tree is determined by the tokens.** Two lists of tokens that end with the listing of
a tree are equal only if these trees are. -/
theorem Expression.append_postorder_inj {before before' : List Token} {tree tree' : Expression}
    (h : before ++ tree.postorder = before' ++ tree'.postorder) :
    before = before' ∧ tree = tree' := by
  induction tree generalizing before before' tree' with
  | literal text =>
    cases tree' with
    | literal text' =>
      obtain ⟨hbefore, htext⟩ := List.append_inj' h rfl
      cases htext
      exact ⟨hbefore, rfl⟩
    | binary o left right =>
      simp only [postorder, ← List.append_assoc] at h
      cases (List.append_inj' h rfl).2
  | binary o left right ihLeft ihRight =>
    cases tree' with
    | literal text =>
      simp only [postorder, ← List.append_assoc] at h
      cases (List.append_inj' h rfl).2
    | binary o' left' right' =>
      simp only [postorder, ← List.append_assoc] at h
      obtain ⟨hoperands, hop⟩ := List.append_inj' h rfl
      cases hop
      obtain ⟨hleft, rfl⟩ := ihRight hoperands
      obtain ⟨hbefore, rfl⟩ := ihLeft hleft
      exact ⟨hbefore, rfl⟩

namespace Postorder

variable {α : Type} [Operand α]

theorem lastValue_unique {tokens : List Token} {v w : α} (hv : LastValue tokens v)
    (hw : LastValue tokens w) : v = w := by
  obtain ⟨before, tree, rfl, htree⟩ := hv
  obtain ⟨before', tree', hsame, htree'⟩ := hw
  obtain ⟨-, rfl⟩ := Expression.append_postorder_inj hsame
  have heq := (Expression.evaluate_eq_ok_iff_hasValue.2 htree).symm.trans
    (Expression.evaluate_eq_ok_iff_hasValue.2 htree')
  exact Except.ok.inj heq

/-! ## The stack behind clean tokens -/

/-- Each tree read so far has one more number than operators. -/
theorem surplus_listingOf (trees : List Expression) :
    Token.surplus (listingOf trees) = trees.length := by
  induction trees with
  | nil => rfl
  | cons tree trees ih =>
    have hcount := tree.countP_postorder
    simp only [Token.surplus, listingOf, List.reverse_cons, List.flatMap_append,
      List.flatMap_singleton, List.countP_append, List.length_cons] at ih ⊢
    omega

section

variable {tokens : List Token} {stack : List α} (h : steps [] tokens = .ok stack)

include h

/-- The values on the stack are those of the trees read so far. -/
theorem exists_trees_of_steps :
    ∃ trees, listingOf trees = tokens ∧ List.Forall₂ Computes trees stack := by
  obtain ⟨trees, htrees, hstack⟩ := exists_steps_trees .nil h
  exact ⟨trees, listingOf_steps htrees, hstack⟩

/-- **The height of the stack is the surplus.** -/
theorem length_of_steps : (stack.length : Int) = Token.surplus tokens := by
  obtain ⟨trees, rfl, hstack⟩ := exists_trees_of_steps h
  rw [surplus_listingOf, hstack.length_eq]

/-- **The top of the stack is the last value.** -/
theorem lastValue_of_steps {v : α} (hv : v ∈ stack.head?) : LastValue tokens v := by
  obtain ⟨trees, rfl, hstack⟩ := exists_trees_of_steps h
  obtain ⟨below, rfl⟩ := List.head?_eq_some_iff.1 hv
  obtain ⟨tree, others, htree, -, rfl⟩ := List.forall₂_cons_right_iff.1 hstack
  refine ⟨listingOf others, tree, ?_, Expression.evaluate_eq_ok_iff_hasValue.1 htree⟩
  simp [listingOf]

theorem eq_nil_iff_of_steps : stack = [] ↔ tokens = [] := by
  obtain ⟨trees, rfl, hstack⟩ := exists_trees_of_steps h
  constructor
  · rintro rfl
    rw [List.forall₂_nil_right_iff.1 hstack]
    rfl
  · intro hnil
    have hlength := hstack.length_eq
    have hsurplus := surplus_listingOf trees
    rw [hnil] at hsurplus
    refine List.eq_nil_of_length_eq_zero ?_
    rw [← hlength]
    exact Int.ofNat_eq_zero.1 hsurplus.symm

/-! ## Steps and violations -/

omit h in
theorem step_num_eq_error_iff {text : String} {e : EvalError} :
    step stack (.num text) = .error e ↔ Violation α tokens (.num text) e := by
  cases hread : (Operand.ofLiteral? text : Option α) with
  | none =>
    simp only [step, hread]
    constructor
    · intro herror
      cases herror
      exact .number hread
    · intro hviolation
      cases hviolation
      rfl
  | some v =>
    simp only [step, hread]
    constructor
    · intro herror
      cases herror
    · intro hviolation
      cases hviolation with
      | number hunread =>
        rw [hread] at hunread
        cases hunread

theorem step_op_eq_error_iff {o : Operator} {e : EvalError} :
    step stack (.op o) = .error e ↔ Violation α tokens (.op o) e := by
  have hlength := length_of_steps h
  by_cases hfew : Token.surplus tokens < 2
  · have hstep : step stack (.op o) = .error .insufficientOperands := by
      rcases stack with _ | ⟨_, _ | ⟨_, _⟩⟩
      · rfl
      · rfl
      · simp only [List.length_cons] at hlength
        omega
    rw [hstep]
    constructor
    · intro herror
      cases herror
      exact .operands hfew
    · intro hviolation
      cases hviolation with
      | operands _ => rfl
      | zero henough _ _ _ => omega
  · rcases stack with _ | ⟨right, _ | ⟨left, below⟩⟩
    · rw [List.length_nil] at hlength
      omega
    · rw [List.length_singleton] at hlength
      omega
    · -- With enough operands the step does what the operator does, and fails on a zero only.
      have hstep : step (right :: left :: below) (.op o) = .error e ↔
          Operand.isZero right ∧ o.zeroError? = some e := by
        rw [← Operator.apply_eq_error_iff (a := left)]
        simp only [step]
        cases o.apply left right <;> simp [bind, Except.bind, pure, Except.pure]
      have hright : LastValue tokens right := lastValue_of_steps h rfl
      rw [hstep]
      constructor
      · intro hrefused
        obtain ⟨hzero, hdivides⟩ := hrefused
        exact .zero (Int.not_lt.1 hfew) hdivides hright hzero
      · intro hviolation
        cases hviolation with
        | operands hfew' => exact absurd hfew' hfew
        | zero _ hdivides hlast hzero =>
          rw [lastValue_unique hright hlast]
          exact ⟨hzero, hdivides⟩

/-- **A step fails exactly on a violation.** -/
theorem step_eq_error_iff_violation {t : Token} {e : EvalError} :
    step stack t = .error e ↔ Violation α tokens t e := by
  cases t with
  | num text => exact step_num_eq_error_iff
  | op o => exact step_op_eq_error_iff h
  | lparen | rparen =>
    constructor
    · intro herror
      cases herror
      constructor
    · intro hviolation
      cases hviolation
      rfl

end

/-- **The machine runs through exactly the clean tokens.** -/
theorem clean_iff_exists_steps {tokens : List Token} :
    Clean α tokens ↔ ∃ stack : List α, steps [] tokens = .ok stack := by
  constructor
  · intro hclean
    cases h : (steps [] tokens : Except EvalError (List α)) with
    | ok stack => exact ⟨stack, rfl⟩
    | error e =>
      obtain ⟨before, t, after, stack, hsplit, hbefore, hstep⟩ := run_eq_error_iff.1 h
      exact absurd ((step_eq_error_iff_violation hbefore).1 hstep) (hclean before t after hsplit e)
  · rintro ⟨stack, h⟩ before t after rfl e hviolation
    rw [steps_append] at h
    obtain ⟨middle, hbefore, hrest⟩ := bind_eq_ok_iff.1 h
    obtain ⟨next, hstep, -⟩ := bind_eq_ok_iff.1 hrest
    rw [(step_eq_error_iff_violation hbefore).2 hviolation] at hstep
    cases hstep

/-- **The machine stops at the first violation.** -/
theorem steps_eq_error_iff_firstViolation {tokens : List Token} {e : EvalError} :
    (steps [] tokens : Except EvalError (List α)) = .error e ↔ FirstViolation α tokens e := by
  rw [steps, run_eq_error_iff]
  constructor
  · rintro ⟨before, t, after, stack, hsplit, hbefore, hstep⟩
    exact ⟨before, t, after, hsplit, clean_iff_exists_steps.2 ⟨stack, hbefore⟩,
      (step_eq_error_iff_violation hbefore).1 hstep⟩
  · rintro ⟨before, t, after, hsplit, hclean, hviolation⟩
    obtain ⟨stack, hbefore⟩ := clean_iff_exists_steps.1 hclean
    exact ⟨before, t, after, stack, hsplit, hbefore,
      (step_eq_error_iff_violation hbefore).2 hviolation⟩

theorem top_of_steps {tokens : List Token} {stack : List α} (h : steps [] tokens = .ok stack) :
    (∀ e, top stack = .error e ↔ endError? tokens = some e) ∧
      ((∃ v, top stack = .ok v) ↔ endError? tokens = none) := by
  have hlength := length_of_steps h
  have hnil := eq_nil_iff_of_steps h
  rcases stack with _ | ⟨v, _ | ⟨w, below⟩⟩
  · rw [endError?, if_pos (hnil.1 rfl)]
    simp [top]
  · have hone : ¬1 < Token.surplus tokens := by
      rw [← hlength]
      simp
    rw [endError?, if_neg (mt hnil.2 (List.cons_ne_nil _ _)), if_neg hone]
    simp [top]
  · have hmany : 1 < Token.surplus tokens := by
      simp only [List.length_cons] at hlength
      omega
    rw [endError?, if_neg (mt hnil.2 (List.cons_ne_nil _ _)), if_pos hmany]
    simp [top]

/-- **A listing fails with its first violation.** Without one, the listing has a value unless it is
empty or has too many numbers for its operators. -/
theorem value_eq_error_iff_firstViolation (tokens : List Token) :
    (∀ e, (value tokens : Except EvalError α) = .error e ↔
      FirstViolation α tokens e ∨ (Clean α tokens ∧ endError? tokens = some e)) ∧
    ((∃ v : α, value tokens = .ok v) ↔ Clean α tokens ∧ endError? tokens = none) := by
  cases h : (steps [] tokens : Except EvalError (List α)) with
  | error e =>
    have hvalue : (value tokens : Except EvalError α) = .error e := bind_eq_error_iff.2 (.inl h)
    have hdirty : ¬Clean α tokens := by
      intro hclean
      obtain ⟨stack, hstack⟩ := clean_iff_exists_steps.1 hclean
      rw [h] at hstack
      cases hstack
    rw [hvalue]
    constructor
    · intro e'
      rw [← steps_eq_error_iff_firstViolation, h, or_iff_left fun hend => hdirty hend.1]
      simp
    · exact ⟨fun ⟨v, hv⟩ => (by cases hv), fun hend => absurd hend.1 hdirty⟩
  | ok stack =>
    have hvalue : (value tokens : Except EvalError α) = top stack := by
      rw [value, h]
      rfl
    have hclean : Clean α tokens := clean_iff_exists_steps.2 ⟨stack, h⟩
    obtain ⟨herror, hok⟩ := top_of_steps h
    rw [hvalue]
    constructor
    · intro e
      rw [← steps_eq_error_iff_firstViolation, h, herror]
      simp [hclean]
    · rw [hok]
      exact ⟨fun hend => ⟨hclean, hend⟩, fun hend => hend.2⟩

/-- The zero divisor comes before the number that is not read, a missing operand before both. -/
example :
    (value [.num "1", .num ".0", .op .modulo, .num "x"] : Except EvalError Rat) =
        .error .moduloByZero ∧
      (value [.op .plus, .num "1", .num ".0", .op .modulo, .num "x"] : Except EvalError Rat) =
        .error .insufficientOperands := by
  decide +kernel

end Postorder

end Calculator
