import Calculator.Grammar
import Calculator.Postorder.Yard
import Calculator.Proofs.Lexing
import Calculator.Proofs.ListingTree

/-!
# Conversion of the grammar

For each derivation of the grammar, the conversion returns the postorder listing of its tree.

The proof is an induction on the derivation for an arbitrary yard before it. A phrase leaves
operators of its own waiting, depending on its kind: a sum may leave any, a product only
multiplicative ones, a factor none. `PhraseKind.level` is the bound; an operator below the bound of
a phrase waits while the phrase is taken (`Yard.Takes`, `Yard.takes_phrase`).

Main results: `toPostorder_phrase`, and `Phrase.regroups_iff`, derivations have the same tree
exactly if they differ by redundant parentheses only. Together they say which derivations have the
same listing (`toPostorder_text`).
-/

namespace Calculator

/-! ## Operators that wait -/

theorem Operator.isAdditive_iff {o : Operator} : o.isAdditive ↔ o.precedence = 1 := by
  cases o <;> decide

theorem Operator.isMultiplicative_iff {o : Operator} : o.isMultiplicative ↔ o.precedence = 2 := by
  cases o <;> decide

theorem Operator.isMultiplicative_eq_not (o : Operator) : o.isMultiplicative = !o.isAdditive := by
  cases o <;> rfl

theorem Operator.isAdditive_of_not_isMultiplicative {o : Operator} (h : ¬o.isMultiplicative) :
    o.isAdditive := by
  simpa [isMultiplicative_eq_not] using h

/-- The least precedence of an operator that a phrase leaves waiting; a factor leaves none. -/
def PhraseKind.level : PhraseKind → Nat
  | sum => 1
  | product => 2
  | factor => 3

namespace Yard

theorem step_op_of_split {pending waiting : List Operator} {o : Operator}
    (hpending : ∀ p ∈ pending, o.precedence ≤ p.precedence)
    (hwaiting : ∀ w ∈ waiting, w.precedence < o.precedence) (output : List Token)
    (outer : List (List Operator)) :
    step ⟨output, pending ++ waiting, outer⟩ (.op o) =
      .ok ⟨emit pending output, o :: waiting, outer⟩ := by
  have hreleased : ∀ p ∈ pending, releases o p := fun p hp => decide_eq_true (hpending p hp)
  have htake : waiting.takeWhile (releases o) = [] := by
    cases waiting with
    | nil => rfl
    | cons w ws =>
      refine List.takeWhile_cons_of_neg fun h => ?_
      exact absurd (of_decide_eq_true h) (Nat.not_le.2 (hwaiting w List.mem_cons_self))
  have hdrop : waiting.dropWhile (releases o) = waiting := by
    simpa [htake] using List.takeWhile_append_dropWhile (p := releases o) (l := waiting)
  simp only [step, List.takeWhile_append_of_pos hreleased, List.dropWhile_append_of_pos hreleased,
    htake, hdrop, List.append_nil]

/-- The yard takes the tokens as one operand: operators of at least the given level wait above the
earlier ones, and together with them the output grows by the listing of the tree. -/
def Takes (yard : Yard) (tokens : List Token) (level : Nat) (e : Expression) : Prop :=
  ∃ output pending, yard.steps tokens = .ok ⟨output, pending ++ yard.waiting, yard.outer⟩ ∧
    (∀ o ∈ pending, level ≤ o.precedence) ∧
    emit pending output = e.postorder.reverse ++ yard.output

theorem Takes.mono {yard : Yard} {tokens : List Token} {level level' : Nat} {e : Expression}
    (h : yard.Takes tokens level e) (hle : level' ≤ level) : yard.Takes tokens level' e := by
  obtain ⟨output, pending, hsteps, hpending, hemit⟩ := h
  exact ⟨output, pending, hsteps, fun o ho => hle.trans (hpending o ho), hemit⟩

theorem takes_num (yard : Yard) (text : String) (level : Nat) :
    yard.Takes [.num text] level (.literal text) :=
  ⟨.num text :: yard.output, [], rfl, by simp, rfl⟩

/-- A group in parentheses is taken as an operand: its scope leaves nothing waiting. -/
theorem Takes.group {yard : Yard} {tokens : List Token} {level : Nat} {e : Expression}
    (h : Takes { yard with waiting := [], outer := yard.waiting :: yard.outer } tokens level e)
    (level' : Nat) : yard.Takes (.lparen :: (tokens ++ [.rparen])) level' e := by
  obtain ⟨output, pending, hsteps, -, hemit⟩ := h
  refine ⟨e.postorder.reverse ++ yard.output, [], ?_, by simp, rfl⟩
  have hopen : yard.step .lparen =
      .ok { yard with waiting := [], outer := yard.waiting :: yard.outer } := rfl
  rw [steps_cons, hopen]
  show steps _ (tokens ++ [.rparen]) = _
  rw [steps_append, hsteps, ← hemit]
  simp [bind, Except.bind, steps_cons, step]

/-- A binary operation is taken if its left operand does not bind looser than the operator and its
right operand binds tighter. -/
theorem Takes.binary {yard : Yard} {left right : List Token} {o : Operator} {l r : Expression}
    (hyard : ∀ w ∈ yard.waiting, w.precedence < o.precedence)
    (hleft : yard.Takes left o.precedence l)
    (hright : ∀ next : Yard, (∀ w ∈ next.waiting, w.precedence < o.precedence + 1) →
      next.Takes right (o.precedence + 1) r) :
    yard.Takes (left ++ .op o :: right) o.precedence (.binary o l r) := by
  obtain ⟨output, pending, hsteps, hpending, hemit⟩ := hleft
  -- What waits of the left operand is released by the operator, and nothing below it is.
  have hop := step_op_of_split hpending hyard output yard.outer
  have hbelow : ∀ w ∈ o :: yard.waiting, w.precedence < o.precedence + 1 := by
    intro w hw
    rcases List.mem_cons.1 hw with rfl | hw
    · exact Nat.lt_succ_self _
    · exact Nat.lt_succ_of_lt (hyard w hw)
  obtain ⟨output', pending', hsteps', hpending', hemit'⟩ :=
    hright ⟨emit pending output, o :: yard.waiting, yard.outer⟩ hbelow
  refine ⟨output', pending' ++ [o], ?_, ?_, ?_⟩
  · rw [steps_append, hsteps]
    show steps _ (.op o :: right) = _
    rw [steps_cons, hop]
    show steps _ right = _
    rw [hsteps', List.append_assoc, List.singleton_append]
  · intro p hp
    rcases List.mem_append.1 hp with hp | hp
    · exact Nat.le_of_succ_le (hpending' p hp)
    · rw [List.mem_singleton.1 hp]
  · calc emit (pending' ++ [o]) output'
        = .op o :: emit pending' output' := by simp [emit]
      _ = .op o :: (r.postorder.reverse ++ (l.postorder.reverse ++ yard.output)) := by
          rw [hemit', hemit]
      _ = (Expression.binary o l r).postorder.reverse ++ yard.output := by
          simp [Expression.postorder]

/-- **A phrase is taken as its tree.** -/
theorem takes_phrase {kind : PhraseKind} (phrase : Phrase kind) (yard : Yard)
    (hyard : ∀ w ∈ yard.waiting, w.precedence < kind.level) :
    yard.Takes phrase.tokens kind.level phrase.expression := by
  -- A part is taken by the yard that its left neighbours leave, so the yard varies.
  induction phrase generalizing yard with
  | literal text _ _ => exact yard.takes_num text _
  | group inner ih => exact (ih _ (by simp)).group _
  | ofFactor factor ih =>
    have hany : ∀ w ∈ yard.waiting, w.precedence < 3 :=
      fun w hw => Nat.lt_succ_of_lt (hyard w hw)
    exact (ih yard hany).mono (by decide)
  | ofProduct product ih =>
    have hany : ∀ w ∈ yard.waiting, w.precedence < 2 :=
      fun w hw => Nat.lt_succ_of_lt (hyard w hw)
    exact (ih yard hany).mono (by decide)
  | multiply left o multiplicative right ihLeft ihRight =>
    have htwo := Operator.isMultiplicative_iff.1 multiplicative
    have h : yard.Takes (left.tokens ++ .op o :: right.tokens) o.precedence
        (.binary o left.expression right.expression) := by
      refine Takes.binary ?_ ?_ fun next hnext => ?_
      · rwa [htwo]
      · rw [htwo]; exact ihLeft yard hyard
      · rw [htwo] at hnext ⊢; exact ihRight next hnext
    rwa [htwo] at h
  | add left o additive right ihLeft ihRight =>
    have hone := Operator.isAdditive_iff.1 additive
    have h : yard.Takes (left.tokens ++ .op o :: right.tokens) o.precedence
        (.binary o left.expression right.expression) := by
      refine Takes.binary ?_ ?_ fun next hnext => ?_
      · rwa [hone]
      · rw [hone]; exact ihLeft yard hyard
      · rw [hone] at hnext ⊢; exact ihRight next hnext
    rwa [hone] at h

end Yard

/-! ## The listing of a phrase -/

theorem Phrase.readable_tokens {kind : PhraseKind} (phrase : Phrase kind) :
    Token.Readable phrase.tokens := by
  induction phrase with
  | literal text numerals wellFormed =>
    exact Token.readable_cons.2
      ⟨by simp [Token.isWritable, numerals, wellFormed], by simp, Token.readable_nil⟩
  | group inner ih => exact Token.readable_group ih
  | ofFactor factor ih => exact ih
  | ofProduct product ih => exact ih
  | multiply left o h right ihLeft ihRight =>
    exact (Token.readable_append_cons (by simp [Token.isNumber])).2 ⟨ihLeft, ihRight⟩
  | add left o h right ihLeft ihRight =>
    exact (Token.readable_append_cons (by simp [Token.isNumber])).2 ⟨ihLeft, ihRight⟩

theorem toPostorder_concat {tokens : List Token} (h : Token.Readable tokens) :
    toPostorder (Token.concat tokens) = Yard.steps {} tokens >>= Yard.finish := by
  rw [toPostorder, Lexer.scan_concat h]

/-- The conversion of a phrase is the listing of its tree. -/
theorem toPostorder_phrase {kind : PhraseKind} (phrase : Phrase kind) :
    toPostorder phrase.text = .ok phrase.expression.postorder := by
  obtain ⟨output, pending, hsteps, -, hemit⟩ := Yard.takes_phrase phrase {} (by simp)
  rw [Phrase.text, toPostorder_concat phrase.readable_tokens, hsteps]
  simp [bind, Except.bind, Yard.finish, hemit]

/-! ## Redundant parentheses -/

namespace Phrase

/-- Two derivations differ by redundant parentheses only: in any place, a phrase may be put in
parentheses that do not change how the text around it is derived. -/
inductive Regroups : {kind : PhraseKind} → Phrase kind → Phrase kind → Prop
  | factor (f : Phrase .factor) : Regroups (.group (.ofProduct (.ofFactor f))) f
  | product (p : Phrase .product) : Regroups (.ofFactor (.group (.ofProduct p))) p
  | sum (s : Phrase .sum) : Regroups (.ofProduct (.ofFactor (.group s))) s
  | refl {kind : PhraseKind} (p : Phrase kind) : Regroups p p
  | symm {kind : PhraseKind} {p q : Phrase kind} : Regroups p q → Regroups q p
  | trans {kind : PhraseKind} {p q r : Phrase kind} : Regroups p q → Regroups q r → Regroups p r
  | group {s t : Phrase .sum} : Regroups s t → Regroups (.group s) (.group t)
  | ofFactor {f g : Phrase .factor} : Regroups f g → Regroups (.ofFactor f) (.ofFactor g)
  | ofProduct {p q : Phrase .product} : Regroups p q → Regroups (.ofProduct p) (.ofProduct q)
  | multiply {p q : Phrase .product} {f g : Phrase .factor} (o : Operator)
      (h : o.isMultiplicative) :
      Regroups p q → Regroups f g → Regroups (.multiply p o h f) (.multiply q o h g)
  | add {s t : Phrase .sum} {p q : Phrase .product} (o : Operator) (h : o.isAdditive) :
      Regroups s t → Regroups p q → Regroups (.add s o h p) (.add t o h q)

theorem Regroups.expression_eq {kind : PhraseKind} {p q : Phrase kind} (h : p.Regroups q) :
    p.expression = q.expression := by
  induction h with
  | factor f => rfl
  | product p => rfl
  | sum s => rfl
  | refl p => rfl
  | symm _ ih => exact ih.symm
  | trans _ _ ih₁ ih₂ => exact ih₁.trans ih₂
  | group _ ih => exact ih
  | ofFactor _ ih => exact ih
  | ofProduct _ ih => exact ih
  | multiply o h _ _ ihLeft ihRight => exact congrArg₂ (Expression.binary o) ihLeft ihRight
  | add o h _ _ ihLeft ihRight => exact congrArg₂ (Expression.binary o) ihLeft ihRight

/-- A factor as a phrase of any kind. -/
def ofKind : (kind : PhraseKind) → Phrase .factor → Phrase kind
  | .factor, f => f
  | .product, f => .ofFactor f
  | .sum, f => .ofProduct (.ofFactor f)

end Phrase

/-- The derivation of a tree with parentheses around every operation, if its literals are well
formed. -/
def Expression.bracketed? : Expression → Option (Phrase .factor)
  | literal text =>
    if h : text.toList.all isNumeral ∧ isLiteral text.toList then some (.literal text h.1 h.2)
    else none
  | binary o left right => do
    let l ← left.bracketed?
    let r ← right.bracketed?
    return if h : o.isMultiplicative then .group (.ofProduct (.multiply (.ofFactor l) o h r))
      else .group (.add (.ofProduct (.ofFactor l)) o (Operator.isAdditive_of_not_isMultiplicative h)
        (.ofFactor r))

namespace Phrase

/-- Every derivation has a fully bracketed form, which depends on its tree alone. -/
theorem exists_bracketed {kind : PhraseKind} (p : Phrase kind) :
    ∃ f, p.expression.bracketed? = some f ∧ p.Regroups (ofKind kind f) := by
  induction p with
  | literal text numerals wellFormed =>
    exact ⟨.literal text numerals wellFormed, dif_pos ⟨numerals, wellFormed⟩, .refl _⟩
  | group inner ih =>
    obtain ⟨f, hf, hinner⟩ := ih
    exact ⟨f, hf, hinner.group.trans (.factor f)⟩
  | ofFactor factor ih =>
    obtain ⟨f, hf, hfactor⟩ := ih
    exact ⟨f, hf, hfactor.ofFactor⟩
  | ofProduct product ih =>
    obtain ⟨f, hf, hproduct⟩ := ih
    exact ⟨f, hf, hproduct.ofProduct⟩
  | multiply left o h right ihLeft ihRight =>
    obtain ⟨l, hl, hleft⟩ := ihLeft
    obtain ⟨r, hr, hright⟩ := ihRight
    refine ⟨.group (.ofProduct (.multiply (.ofFactor l) o h r)), ?_, ?_⟩
    · simp [expression, Expression.bracketed?, hl, hr, h]
    · exact (Regroups.multiply o h hleft hright).trans (Regroups.product _).symm
  | add left o h right ihLeft ihRight =>
    obtain ⟨l, hl, hleft⟩ := ihLeft
    obtain ⟨r, hr, hright⟩ := ihRight
    refine ⟨.group (.add (.ofProduct (.ofFactor l)) o h (.ofFactor r)), ?_, ?_⟩
    · simp [expression, Expression.bracketed?, hl, hr, Operator.isMultiplicative_eq_not, h]
    · exact (Regroups.add o h hleft hright).trans (Regroups.sum _).symm

/-- **Derivations have the same tree exactly if they differ by redundant parentheses.** -/
theorem regroups_iff {kind : PhraseKind} {p q : Phrase kind} :
    p.Regroups q ↔ p.expression = q.expression := by
  refine ⟨Regroups.expression_eq, fun h => ?_⟩
  obtain ⟨f, hf, hp⟩ := p.exists_bracketed
  obtain ⟨g, hg, hq⟩ := q.exists_bracketed
  have hfg : f = g := by
    rw [h, hg] at hf
    exact (Option.some.inj hf).symm
  exact hp.trans (hfg ▸ hq.symm)

end Phrase

/-! ## The conversion on the grammar -/

/-- **The conversion is correct on the grammar.** A derivation is converted to the listing of
its tree, and two derivations have the same listing exactly if they differ by redundant
parentheses only. -/
theorem toPostorder_text {kind : PhraseKind} (phrase : Phrase kind) :
    toPostorder phrase.text = .ok phrase.expression.postorder ∧
      ∀ other : Phrase kind,
        toPostorder other.text = toPostorder phrase.text ↔ other.Regroups phrase := by
  refine ⟨toPostorder_phrase phrase, fun other => ?_⟩
  rw [toPostorder_phrase, toPostorder_phrase, Phrase.regroups_iff]
  refine ⟨fun h => ?_, fun h => by rw [h]⟩
  exact Expression.postorder_injective (Except.ok.inj h)

end Calculator
