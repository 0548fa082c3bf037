import Calculator.Postorder.Value

/-!
# Expressions

An expression as a tree, with its value and its postorder listing. The value of a tree is defined by
recursion: the left operand, then the right one, then the operator. Main fact: `value_postorder`,
the value of a tree's listing is the value of the tree, error for error.
-/

namespace Calculator

/-- A literal, or an operator with its two operands. -/
inductive Expression where
  | literal (text : String)
  | binary (operator : Operator) (left right : Expression)
  deriving DecidableEq

namespace Expression

/-- The value of a tree in a type of operands, or its first error. -/
def evaluate {α : Type} [Operand α] : Expression → Except EvalError α
  | literal text =>
    match Operand.ofLiteral? text with
    | some value => .ok value
    | none => .error (.invalidNumber text)
  | binary o left right => do
    let a ← left.evaluate
    let b ← right.evaluate
    o.apply a b

/-- The listing of a tree: the left operand, the right operand, the operator. -/
def postorder : Expression → List Token
  | literal text => [.num text]
  | binary o left right => left.postorder ++ right.postorder ++ [.op o]

variable {α : Type} [Operand α]

/-- The listing of a tree pushes the value of the tree on any stack, or fails with its error. -/
theorem steps_postorder (e : Expression) (stack : List α) (rest : List Token) :
    Postorder.steps stack (e.postorder ++ rest) =
      e.evaluate >>= fun value => Postorder.steps (value :: stack) rest := by
  induction e generalizing stack rest with
  | literal text =>
    simp only [postorder, evaluate, List.cons_append, List.nil_append, Postorder.steps_cons,
      Postorder.step]
    cases (Operand.ofLiteral? text : Option α) <;> rfl
  | binary o left right ihLeft ihRight =>
    simp only [postorder, evaluate, List.append_assoc, ihLeft, ihRight]
    cases (left.evaluate : Except EvalError α) with
    | error e => rfl
    | ok a =>
      cases (right.evaluate : Except EvalError α) with
      | error e => rfl
      | ok b =>
        simp only [List.cons_append, List.nil_append, bind, Except.bind, Postorder.steps_cons,
          Postorder.step]
        cases o.apply a b <;> rfl

theorem value_postorder (e : Expression) :
    Postorder.value e.postorder = (e.evaluate : Except EvalError α) := by
  have h := e.steps_postorder ([] : List α) []
  rw [List.append_nil] at h
  rw [Postorder.value, h]
  cases (e.evaluate : Except EvalError α) <;> rfl

end Expression

end Calculator
