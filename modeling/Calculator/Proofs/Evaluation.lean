import Calculator.Proofs.CompactText
import Calculator.Proofs.Conversion
import Calculator.Proofs.LiteralReading
import Calculator.Proofs.Stages

/-!
# The value of a derivation

A text that the grammar derives has the value of its expression tree, wherever blanks are inserted,
unless a division or a remainder has a zero right operand.

The stages are composed: without its blanks the expression is the text of the derivation, the
conversion of this text is the listing of the tree, and the listing has the value of the tree. The
error of a tree is that of the first failing operation, in the order of computation
(`Expression.evaluate_eq_error_iff`).

Main result: `evaluate_phrase`.
-/

namespace Calculator

/-! ## The first zero divisor -/

/-- The error of an operator with a zero right operand; only divisions and remainders have one. -/
def Operator.zeroError? : Operator → Option EvalError
  | divide => some .divisionByZero
  | modulo => some .moduloByZero
  | _ => none

theorem Operator.apply_eq_error_iff {α : Type} [Operand α] {o : Operator} {a b : α}
    {e : EvalError} : o.apply a b = .error e ↔ Operand.isZero b ∧ o.zeroError? = some e := by
  by_cases hzero : Operand.isZero b <;> cases o <;> simp [apply, zeroError?, hzero]

namespace Expression

/-- The operations of a tree with their operands, in the order of computation. -/
def nodes : Expression → List (Operator × Expression × Expression)
  | literal _ => []
  | binary o left right => left.nodes ++ right.nodes ++ [(o, left, right)]

/-- The error of an operation, if its right operand has the value zero. -/
def zeroDivision? (α : Type) [Operand α] :
    Operator × Expression × Expression → Option EvalError
  | (o, _, right) =>
    match (right.evaluate : Except EvalError α) with
    | .ok b => if Operand.isZero b then o.zeroError? else none
    | .error _ => none

/-- All literals of a tree are well formed. -/
def WellFormed : Expression → Prop
  | literal text => text.toList.all isNumeral ∧ isLiteral text.toList
  | binary _ left right => left.WellFormed ∧ right.WellFormed

theorem zeroDivision?_of_ok {α : Type} [Operand α] {o : Operator} {left right : Expression} {b : α}
    (h : right.evaluate = .ok b) :
    zeroDivision? α (o, left, right) = if Operand.isZero b then o.zeroError? else none := by
  simp only [zeroDivision?, h]

theorem eq_of_zeroDivision? {α : Type} [Operand α] {node : Operator × Expression × Expression}
    {e : EvalError} (h : zeroDivision? α node = some e) :
    (node.1 = .divide ∧ e = .divisionByZero) ∨ (node.1 = .modulo ∧ e = .moduloByZero) := by
  obtain ⟨o, left, right⟩ := node
  simp only [zeroDivision?] at h
  split at h
  · split at h
    · cases o <;> simp_all [Operator.zeroError?]
    · cases h
  · cases h

/-- **The error of a tree is that of its first operation with a zero right operand.** -/
theorem evaluate_eq_error_iff {α : Type} [Operand α] [ReadsLiterals α] {tree : Expression}
    (h : tree.WellFormed) {e : EvalError} :
    (tree.evaluate : Except EvalError α) = .error e ↔
      tree.nodes.findSome? (zeroDivision? α) = some e := by
  induction tree generalizing e with
  | literal text =>
    obtain ⟨v, hv⟩ := ReadsLiterals.exists_value (α := α) text h.1 h.2
    simp [evaluate, nodes, hv]
  | binary o left right ihLeft ihRight =>
    have ihLeft := fun e => ihLeft (e := e) h.1
    have ihRight := fun e => ihRight (e := e) h.2
    simp only [evaluate, nodes, List.findSome?_append]
    -- The nodes of the left operand come first, then those of the right one, then the node itself.
    cases hleft : (left.evaluate : Except EvalError α) with
    | error e' =>
      rw [(ihLeft e').1 hleft]
      simp [bind, Except.bind]
    | ok a =>
      have hnone : left.nodes.findSome? (zeroDivision? α) = none :=
        Option.eq_none_iff_forall_ne_some.2 fun e' he' => by
          rw [hleft] at ihLeft
          cases (ihLeft e').2 he'
      cases hright : (right.evaluate : Except EvalError α) with
      | error e' =>
        rw [hnone, (ihRight e').1 hright]
        simp [bind, Except.bind]
      | ok b =>
        have hnone' : right.nodes.findSome? (zeroDivision? α) = none :=
          Option.eq_none_iff_forall_ne_some.2 fun e' he' => by
            rw [hright] at ihRight
            cases (ihRight e').2 he'
        show o.apply a b = .error e ↔ _
        rw [hnone, hnone', Operator.apply_eq_error_iff, Option.none_or, Option.none_or,
          List.findSome?_singleton, zeroDivision?_of_ok hright]
        by_cases hzero : Operand.isZero b <;> simp [hzero]

end Expression

/-! ## Derivations -/

theorem compact_eq_concat {expression : String} {tokens : List Token}
    (hread : Token.Readable tokens) (hne : tokens ≠ [])
    (h : withoutBlanks expression = Token.concat tokens) :
    compact expression = .ok (Token.concat tokens) := by
  refine compact_eq_ok_iff.2 ⟨h.symm, ?_, ?_⟩
  · exact Token.concat_ne_nil hread hne
  · exact fun c hc => Token.isAccepted_of_mem_concat hread hc

namespace Phrase

variable {kind : PhraseKind}

theorem wellFormed_expression (phrase : Phrase kind) : phrase.expression.WellFormed := by
  induction phrase with
  | literal text numerals wellFormed => exact ⟨numerals, wellFormed⟩
  | group inner ih => exact ih
  | ofFactor factor ih => exact ih
  | ofProduct product ih => exact ih
  | multiply left o _ right ihLeft ihRight => exact ⟨ihLeft, ihRight⟩
  | add left o _ right ihLeft ihRight => exact ⟨ihLeft, ihRight⟩

theorem tokens_ne_nil (phrase : Phrase kind) : phrase.tokens ≠ [] := by
  induction phrase with
  | literal text _ _ => exact List.cons_ne_nil _ _
  | group inner ih => exact List.cons_ne_nil _ _
  | ofFactor factor ih => exact ih
  | ofProduct product ih => exact ih
  | multiply left o _ right ihLeft ihRight => exact List.append_ne_nil_of_left_ne_nil ihLeft _
  | add left o _ right ihLeft ihRight => exact List.append_ne_nil_of_left_ne_nil ihLeft _

theorem compact_eq_text (phrase : Phrase kind) {expression : String}
    (h : withoutBlanks expression = phrase.text) : compact expression = .ok phrase.text :=
  compact_eq_concat phrase.readable_tokens phrase.tokens_ne_nil h

/-- The result of a call on the text of a phrase is the value of its tree. -/
theorem result_evaluateIn (α : Type) [Operand α] (phrase : Phrase kind) {settings : Settings}
    (hlimit : settings.maxLength = none) {expression : String}
    (h : withoutBlanks expression = phrase.text) :
    (settings.evaluateIn α expression).result = phrase.expression.evaluate := by
  rw [Settings.result_evaluateIn, Settings.checkLength_of_none hlimit, phrase.compact_eq_text h]
  show (toPostorder phrase.text >>= _) = _
  rw [toPostorder_phrase]
  exact Expression.value_postorder phrase.expression

end Phrase

/-- The result of computing a tree: its value, or the error of the first operation, in the order of
computation, that divides by zero. -/
structure Expression.IsResult {α : Type} [Operand α] (tree : Expression)
    (result : Except EvalError α) : Prop where
  eq_evaluate : result = tree.evaluate
  error_iff : ∀ e, result = .error e ↔ tree.nodes.findSome? (zeroDivision? α) = some e
  error_cases : ∀ e, result = .error e → e = .divisionByZero ∨ e = .moduloByZero

theorem Expression.isResult_evaluate {α : Type} [Operand α] [ReadsLiterals α] {tree : Expression}
    (h : tree.WellFormed) : tree.IsResult (tree.evaluate : Except EvalError α) := by
  refine ⟨rfl, fun e => evaluate_eq_error_iff h, fun e he => ?_⟩
  obtain ⟨node, -, hnode⟩ := List.exists_of_findSome?_eq_some ((evaluate_eq_error_iff h).1 he)
  rcases eq_of_zeroDivision? hnode with ⟨-, he⟩ | ⟨-, he⟩
  · exact .inl he
  · exact .inr he

/-- **The value of a derivation.** Without its blanks, a text that the grammar derives has the value
of its tree, in binary64 and in exact rationals, or else the error of a division by zero. -/
theorem evaluate_phrase (phrase : Phrase .sum) {settings : Settings}
    (hlimit : settings.maxLength = none) {expression : String}
    (h : withoutBlanks expression = phrase.text) :
    phrase.expression.IsResult (settings.evaluate expression).result ∧
      phrase.expression.IsResult (settings.evaluateExact expression).result := by
  rw [Settings.evaluate, Settings.evaluateExact, phrase.result_evaluateIn Binary64 hlimit h,
    phrase.result_evaluateIn Rat hlimit h]
  exact ⟨Expression.isResult_evaluate phrase.wellFormed_expression,
    Expression.isResult_evaluate phrase.wellFormed_expression⟩

/-- A remainder by zero, with blanks inside its divisor. -/
theorem evaluate_sum_modulo_zero :
    (({} : Settings).evaluate " ( 7-\t2) % . 0").result = .error .moduloByZero ∧
      (({} : Settings).evaluateExact " ( 7-\t2) % . 0").result = .error .moduloByZero := by
  let difference : Phrase .sum :=
    .add (.ofProduct (.ofFactor (.literal "7" rfl rfl))) .minus rfl
      (.ofFactor (.literal "2" rfl rfl))
  let phrase : Phrase .sum :=
    .ofProduct (.multiply (.ofFactor (.group difference)) .modulo rfl (.literal ".0" rfl rfl))
  have h : withoutBlanks " ( 7-\t2) % . 0" = phrase.text := by decide
  obtain ⟨hplain, hexact⟩ := evaluate_phrase phrase (rfl : ({} : Settings).maxLength = none) h
  exact ⟨(hplain.error_iff _).2 (by decide +kernel), (hexact.error_iff _).2 (by decide +kernel)⟩

end Calculator
