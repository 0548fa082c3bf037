import Calculator.Proofs.ListingTree

/-!
# The value of a listing

The machine takes a listing token by token. Here its values are compared with a relation on trees
that does not use the machine: a literal has the value it is read as, and an operation the result of
its operator on the values of its operands, unless it divides by zero (`Expression.HasValue`).

Main result: `Postorder.value_eq_ok_iff_hasValue`, a listing has a value exactly if it is the
listing of a tree that has this value, and then it is the listing of no other tree.
-/

namespace Calculator

variable {α : Type} [Operand α]

namespace Operator

/-- The value that the operator computes of its operands. -/
def operation : Operator → α → α → α
  | plus => Operand.add
  | minus => Operand.sub
  | times => Operand.mul
  | divide => Operand.div
  | modulo => Operand.rem

/-- Whether the operator divides by its right operand. -/
def divides : Operator → Bool
  | divide | modulo => true
  | _ => false

theorem apply_eq_ok_iff {o : Operator} {a b v : α} :
    o.apply a b = .ok v ↔ (o.divides → ¬Operand.isZero b) ∧ v = o.operation a b := by
  by_cases hzero : Operand.isZero b <;>
    cases o <;> simp [apply, divides, operation, hzero, eq_comm]

end Operator

namespace Expression

/-- The texts of the literals of a tree, from left to right. -/
def literals : Expression → List String
  | literal text => [text]
  | binary _ left right => left.literals ++ right.literals

/-- The value of a tree: that of its literal, or the result of its operator on the values of its
operands, if it does not divide by zero. -/
inductive HasValue : Expression → α → Prop
  | literal {text : String} {v : α} (read : Operand.ofLiteral? text = some v) :
      HasValue (.literal text) v
  | binary {o : Operator} {left right : Expression} {a b : α} (hleft : HasValue left a)
      (hright : HasValue right b) (nonzero : o.divides → ¬Operand.isZero b) :
      HasValue (.binary o left right) (o.operation a b)

/-- **Evaluation computes the value of a tree.** -/
theorem evaluate_eq_ok_iff_hasValue {tree : Expression} {v : α} :
    tree.evaluate = .ok v ↔ tree.HasValue v := by
  induction tree generalizing v with
  | literal text =>
    rw [evaluate]
    constructor
    · intro h
      cases hread : (Operand.ofLiteral? text : Option α) with
      | none =>
        rw [hread] at h
        cases h
      | some u =>
        rw [hread] at h
        cases h
        exact .literal hread
    · intro h
      cases h with
      | literal hread => rw [hread]
  | binary o left right ihLeft ihRight =>
    rw [evaluate, bind_eq_ok_iff]
    constructor
    · intro h
      obtain ⟨a, hleft, h⟩ := h
      obtain ⟨b, hright, happly⟩ := bind_eq_ok_iff.1 h
      obtain ⟨hnonzero, rfl⟩ := Operator.apply_eq_ok_iff.1 happly
      exact .binary (ihLeft.1 hleft) (ihRight.1 hright) hnonzero
    · intro h
      cases h with
      | binary hleft hright hnonzero =>
        refine ⟨_, ihLeft.2 hleft, bind_eq_ok_iff.2 ⟨_, ihRight.2 hright, ?_⟩⟩
        exact Operator.apply_eq_ok_iff.2 ⟨hnonzero, rfl⟩

theorem HasValue.exists_of_mem_literals {tree : Expression} {v : α} (h : tree.HasValue v) :
    ∀ text ∈ tree.literals, ∃ u : α, Operand.ofLiteral? text = some u := by
  induction h with
  | literal read =>
    intro text hmem
    rw [List.mem_singleton.1 hmem]
    exact ⟨_, read⟩
  | binary _ _ _ ihLeft ihRight =>
    intro text hmem
    rcases List.mem_append.1 hmem with hmem | hmem
    · exact ihLeft text hmem
    · exact ihRight text hmem

end Expression

/-- **The listings that the machine accepts.** A listing has a value exactly if it is the listing of
a tree, which is then unique, whose literals are all read and which has this value. -/
theorem Postorder.value_eq_ok_iff_hasValue (tokens : List Token) (v : α) :
    value tokens = .ok v ↔
      ∃ tree : Expression, (∀ other : Expression, other.postorder = tokens ↔ other = tree) ∧
        (∀ text ∈ tree.literals, ∃ u : α, Operand.ofLiteral? text = some u) ∧
        tree.HasValue v := by
  constructor
  · intro h
    obtain ⟨tree, rfl, htree⟩ := exists_tree_of_value h
    have hvalue := Expression.evaluate_eq_ok_iff_hasValue.1 htree
    -- The tree is determined by the listing alone, without values or literals.
    refine ⟨tree, fun other => ⟨Expression.postorder_injective, ?_⟩,
      hvalue.exists_of_mem_literals, hvalue⟩
    intro hother
    rw [hother]
  · intro h
    obtain ⟨tree, hlisting, -, hvalue⟩ := h
    rw [← (hlisting tree).2 rfl, Expression.value_postorder]
    exact Expression.evaluate_eq_ok_iff_hasValue.2 hvalue

end Calculator
