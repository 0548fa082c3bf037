import Calculator.Expression
import Calculator.Proofs.Run
import Mathlib.Data.List.Forall2

/-!
# The tree of a listing

A listing that has a value is the postorder listing of exactly one expression tree, and its value is
the value of that tree. The tree is found by the same machine that computes values: expressions are
operands themselves, where an operator builds a tree of its two operands (`Operand Expression`).

Main results: `Postorder.value_eq_ok_iff_postorder`, the machine on trees accepts exactly the
listings of trees; `Postorder.exists_tree_of_value`, a listing with a value in any operands has such
a tree; `Expression.postorder_injective`.
-/

namespace Calculator

/-! ## Expressions as operands -/

/-- To compute in expressions is to build them. No expression counts as zero. -/
instance : Operand Expression where
  ofLiteral? text := some (.literal text)
  isZero _ := false
  add := .binary .plus
  sub := .binary .minus
  mul := .binary .times
  div := .binary .divide
  rem := .binary .modulo

@[simp] theorem Operator.apply_expression (o : Operator) (left right : Expression) :
    o.apply left right = .ok (Expression.binary o left right) := by
  cases o <;> rfl

namespace Expression

theorem evaluate_expression (e : Expression) : e.evaluate = .ok e := by
  induction e with
  | literal text => rfl
  | binary o left right ihLeft ihRight =>
    rw [evaluate, ihLeft, ihRight]
    exact Operator.apply_expression o left right

theorem value_postorder_expression (e : Expression) : Postorder.value e.postorder = .ok e := by
  rw [value_postorder, evaluate_expression]

/-- **A listing has at most one tree.** -/
theorem postorder_injective {e f : Expression} (h : e.postorder = f.postorder) : e = f := by
  have hvalue := congrArg (Postorder.value (α := Expression)) h
  rw [value_postorder_expression, value_postorder_expression] at hvalue
  exact Except.ok.inj hvalue

end Expression

/-! ## The machine on trees and the machine on values -/

namespace Postorder

variable {α : Type} [Operand α]

/-- The tokens read when these trees are on the stack. -/
def listingOf (trees : List Expression) : List Token :=
  trees.reverse.flatMap Expression.postorder

theorem listingOf_step {trees next : List Expression} {t : Token} (h : step trees t = .ok next) :
    listingOf next = listingOf trees ++ [t] := by
  cases t with
  | num text =>
    cases h
    simp [listingOf, Expression.postorder]
  | op o =>
    rcases trees with _ | ⟨right, _ | ⟨left, below⟩⟩
    · cases h
    · cases h
    · simp only [step, Operator.apply_expression] at h
      cases h
      simp [listingOf, Expression.postorder]
  | lparen => cases h
  | rparen => cases h

theorem listingOf_steps {trees next : List Expression} {tokens : List Token}
    (h : steps trees tokens = .ok next) : listingOf next = listingOf trees ++ tokens := by
  refine run_induction (motive := fun trees tokens next =>
    listingOf next = listingOf trees ++ tokens) (fun _ => (List.append_nil _).symm)
    (fun trees t middle ts next hstep hrest => ?_) h
  rw [hrest, listingOf_step hstep, List.append_assoc, List.singleton_append]

theorem value_eq_ok_iff {tokens : List Token} {v : α} :
    value tokens = .ok v ↔ steps [] tokens = .ok [v] := by
  refine ⟨fun h => ?_, fun h => bind_eq_ok_iff.2 ⟨[v], h, rfl⟩⟩
  obtain ⟨stack, hsteps, htop⟩ := bind_eq_ok_iff.1 h
  match stack, htop with
  | [_], rfl => exact hsteps

/-- **The machine on trees accepts exactly the listings of trees.** -/
theorem value_eq_ok_iff_postorder {tokens : List Token} {e : Expression} :
    value tokens = .ok e ↔ tokens = e.postorder := by
  refine ⟨?_, ?_⟩
  · intro h
    have hlisting := listingOf_steps (value_eq_ok_iff.1 h)
    simpa [listingOf] using hlisting.symm
  · intro h
    rw [h]
    exact e.value_postorder_expression

/-- Each value on the stack is the value of the tree in the same place. -/
def Computes (tree : Expression) (v : α) : Prop :=
  tree.evaluate = .ok v

/-- A step on values is a step on the trees that have these values. -/
theorem exists_step_trees {values next : List α} {trees : List Expression} {t : Token}
    (hstack : List.Forall₂ Computes trees values) (h : step values t = .ok next) :
    ∃ grown, step trees t = .ok grown ∧ List.Forall₂ Computes grown next := by
  cases t with
  | num text =>
    cases hread : (Operand.ofLiteral? text : Option α) with
    | none =>
      simp only [step, hread] at h
      cases h
    | some v =>
      simp only [step, hread, Except.ok.injEq] at h
      subst h
      refine ⟨.literal text :: trees, rfl, .cons ?_ hstack⟩
      simp only [Computes, Expression.evaluate, hread]
  | op o =>
    -- The two stacks have the same height, so their top two places go together.
    rcases hstack with _ | ⟨hright, _ | ⟨hleft, hbelow⟩⟩
    · cases h
    · cases h
    · rename_i right b left a below rest
      have hbuild : step (right :: left :: below) (.op o) =
          .ok (.binary o left right :: below) := by
        simp only [step, Operator.apply_expression]
        rfl
      refine ⟨.binary o left right :: below, hbuild, ?_⟩
      cases happly : o.apply a b with
      | error e =>
        simp only [step, happly] at h
        cases h
      | ok v =>
        simp only [step, happly] at h
        cases h
        refine .cons ?_ hbelow
        rw [Computes] at hleft hright ⊢
        rw [Expression.evaluate, hleft, hright]
        exact happly
  | lparen => cases h
  | rparen => cases h

theorem exists_steps_trees {values next : List α} {trees : List Expression} {tokens : List Token}
    (hstack : List.Forall₂ Computes trees values) (h : steps values tokens = .ok next) :
    ∃ grown, steps trees tokens = .ok grown ∧ List.Forall₂ Computes grown next := by
  refine run_induction (motive := fun values tokens next => ∀ trees,
    List.Forall₂ Computes trees values → ∃ grown, steps trees tokens = .ok grown ∧
      List.Forall₂ Computes grown next) (fun _ trees hstack => ⟨trees, rfl, hstack⟩)
    (fun values t middle ts next hstep hrest trees hstack => ?_) h trees hstack
  obtain ⟨grown, hgrown, hmiddle⟩ := exists_step_trees hstack hstep
  obtain ⟨final, hfinal, hnext⟩ := hrest grown hmiddle
  exact ⟨final, bind_eq_ok_iff.2 ⟨grown, hgrown, hfinal⟩, hnext⟩

/-- **A listing that has a value is the listing of a tree with this value.** -/
theorem exists_tree_of_value {tokens : List Token} {v : α} (h : value tokens = .ok v) :
    ∃ e : Expression, tokens = e.postorder ∧ e.evaluate = .ok v := by
  obtain ⟨trees, htrees, hstack⟩ := exists_steps_trees .nil (value_eq_ok_iff.1 h)
  obtain ⟨e, rest, he, hrest, rfl⟩ := List.forall₂_cons_right_iff.1 hstack
  cases List.forall₂_nil_right_iff.1 hrest
  exact ⟨e, value_eq_ok_iff_postorder.1 (value_eq_ok_iff.2 htrees), he⟩

end Postorder

end Calculator
