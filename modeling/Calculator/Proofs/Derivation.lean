import Calculator.Proofs.Conversion
import Calculator.Proofs.Parentheses

/-!
# Which tokens the grammar derives

The grammar derives the tokens in which operands and operators alternate and parentheses are
balanced. A derivation is built from the left: a sum is extended by one operator and factor at a
time (`Phrase.append`), and the tokens before an open parenthesis are kept until it is closed.

Alternation can be replaced by counting. If no operand directly follows another, there is at most
one more number than operators, and if there is, operands and operators alternate.

Main results: `Phrase.exists_tokens_iff`, and `Token.alternates_of_countP`.
-/

namespace Calculator

/-! ## Alternation -/

namespace Token

/-- Whether operands and operators alternate up to the end of an expression, from a place where an
operand is expected or where one has ended. -/
def alternates (operandNext : Bool) : List Token → Bool
  | [] => !operandNext
  | .num _ :: ts => operandNext && alternates false ts
  | .lparen :: ts => operandNext && alternates true ts
  | .op _ :: ts => !operandNext && alternates true ts
  | .rparen :: ts => !operandNext && alternates false ts

/-- Whether an operand can start with the token. -/
def startsOperand : Token → Bool
  | num _ | lparen => true
  | _ => false

/-- Whether an operand can end with the token. -/
def endsOperand : Token → Bool
  | num _ | rparen => true
  | _ => false

/-- Whether a token is an operator. -/
def isOperator : Token → Bool
  | op _ => true
  | _ => false

/-- No operand is directly followed by another. -/
abbrev Separate (tokens : List Token) : Prop :=
  tokens.IsChain fun t u => ¬(t.endsOperand ∧ u.startsOperand)

theorem separate_of_alternates {operandNext : Bool} {tokens : List Token}
    (h : alternates operandNext tokens) :
    Separate tokens ∧ (operandNext = false → ∀ t ∈ tokens.head?, ¬t.startsOperand) := by
  induction tokens generalizing operandNext with
  | nil => exact ⟨.nil, by simp⟩
  | cons t ts ih =>
    -- Behind the end of an operand none is expected, so the next token starts none.
    have key (next : Bool) (hts : alternates next ts) (hnext : t.endsOperand → next = false) :
        Separate (t :: ts) := by
      obtain ⟨hsep, hhead⟩ := ih hts
      exact List.isChain_cons.2 ⟨fun u hu hends => hhead (hnext hends.1) u hu hends.2, hsep⟩
    cases t with
    | num text =>
      obtain ⟨hnext, hts⟩ := Bool.and_eq_true_iff.1 h
      refine ⟨key false hts fun _ => rfl, ?_⟩
      intro hfalse
      rw [hfalse] at hnext
      cases hnext
    | lparen =>
      obtain ⟨hnext, hts⟩ := Bool.and_eq_true_iff.1 h
      refine ⟨key true hts fun hends => (by cases hends), ?_⟩
      intro hfalse
      rw [hfalse] at hnext
      cases hnext
    | op o =>
      obtain ⟨-, hts⟩ := Bool.and_eq_true_iff.1 h
      refine ⟨key true hts fun hends => (by cases hends), ?_⟩
      intro _ u hu
      cases hu
      exact Bool.false_ne_true
    | rparen =>
      obtain ⟨-, hts⟩ := Bool.and_eq_true_iff.1 h
      refine ⟨key false hts fun _ => rfl, ?_⟩
      intro _ u hu
      cases hu
      exact Bool.false_ne_true

/-- **Separate operands alternate with operators** if there is one more number than operators, and
there are never more. -/
theorem alternates_of_countP {operandNext : Bool} {tokens : List Token} (hsep : Separate tokens)
    (hhead : operandNext = false → ∀ t ∈ tokens.head?, ¬t.startsOperand) :
    tokens.countP isNumber ≤ tokens.countP isOperator + operandNext.toNat ∧
      (tokens.countP isNumber = tokens.countP isOperator + operandNext.toNat →
        alternates operandNext tokens) := by
  induction tokens generalizing operandNext with
  | nil => cases operandNext <;> simp [alternates]
  | cons t ts ih =>
    obtain ⟨hnext, hts⟩ := List.isChain_cons.1 hsep
    have hafter (hends : t.endsOperand) : false = false → ∀ u ∈ ts.head?, ¬u.startsOperand :=
      fun _ u hu hstarts => hnext u hu ⟨hends, hstarts⟩
    have hfree : true = false → ∀ u ∈ ts.head?, ¬u.startsOperand := fun h => by cases h
    cases t with
    | num text =>
      cases operandNext with
      | false => exact absurd rfl (hhead rfl _ rfl)
      | true =>
        obtain ⟨hle, heq⟩ := ih hts (hafter rfl)
        simp only [List.countP_cons, isNumber, isOperator, if_true, Bool.false_eq_true, if_false,
          Bool.toNat_false, Bool.toNat_true] at hle heq ⊢
        refine ⟨by omega, fun h => ?_⟩
        simpa [alternates] using heq (by omega)
    | lparen =>
      cases operandNext with
      | false => exact absurd rfl (hhead rfl _ rfl)
      | true =>
        obtain ⟨hle, heq⟩ := ih hts hfree
        simp only [List.countP_cons, isNumber, isOperator, Bool.false_eq_true, if_false,
          Bool.toNat_true] at hle heq ⊢
        refine ⟨by omega, fun h => ?_⟩
        simpa [alternates] using heq (by omega)
    | op o =>
      obtain ⟨hle, heq⟩ := ih hts hfree
      simp only [List.countP_cons, isNumber, isOperator, if_true, Bool.false_eq_true, if_false,
        Bool.toNat_true] at hle heq ⊢
      refine ⟨by omega, fun h => ?_⟩
      cases operandNext with
      | false => simpa [alternates] using heq (by simpa using h)
      | true =>
        -- An operator in the place of an operand leaves too few numbers.
        rw [Bool.toNat_true] at h
        omega
    | rparen =>
      obtain ⟨hle, heq⟩ := ih hts (hafter rfl)
      simp only [List.countP_cons, isNumber, isOperator, Bool.false_eq_true, if_false,
        Bool.toNat_false] at hle heq ⊢
      refine ⟨by omega, fun h => ?_⟩
      cases operandNext with
      | false => simpa [alternates] using heq (by simpa using h)
      | true =>
        rw [Bool.toNat_true] at h
        omega

end Token

/-! ## Derivations from the left -/

namespace Phrase

open Token

/-- The sum extended by an operator and a factor; a multiplicative operator extends the last
product. -/
def append (s : Phrase .sum) (o : Operator) (f : Phrase .factor) : Phrase .sum :=
  if h : o.isMultiplicative then
    match s with
    | .ofProduct p => .ofProduct (.multiply p o h f)
    | .add s o' h' p => .add s o' h' (.multiply p o h f)
  else .add s o (Operator.isAdditive_of_not_isMultiplicative h) (.ofFactor f)

theorem tokens_append (s : Phrase .sum) (o : Operator) (f : Phrase .factor) :
    (s.append o f).tokens = s.tokens ++ .op o :: f.tokens := by
  unfold append
  split
  · cases s with
    | ofProduct p => rfl
    | add s o' _ p => simp [tokens]
  · rfl

/-- What can stand before an operand in its scope: nothing, or a sum and an operator. -/
abbrev Before := Option (Phrase .sum × Operator)

/-- The sum that a factor completes. -/
def complete : Before → Phrase .factor → Phrase .sum
  | none, f => .ofProduct (.ofFactor f)
  | some (s, o), f => s.append o f

/-- The tokens that stand before an operand in its scope. -/
def beforeTokens : Before → List Token
  | none => []
  | some (s, o) => s.tokens ++ [.op o]

/-- The tokens up to the last open parenthesis, given those before each open parenthesis in its
scope, innermost first. -/
def openTokens : List Before → List Token
  | [] => []
  | before :: outer => openTokens outer ++ beforeTokens before ++ [.lparen]

theorem tokens_complete (before : Before) (f : Phrase .factor) :
    (complete before f).tokens = beforeTokens before ++ f.tokens := by
  cases before with
  | none => rfl
  | some left =>
    obtain ⟨s, o⟩ := left
    simp [complete, beforeTokens, tokens_append]

/-- Alternating tokens that close the open parentheses complete a derivation. Where an operand is
expected, each open scope has the tokens before an operand; where one has ended, the innermost scope
has a sum. -/
theorem exists_of_alternates {tokens : List Token} (hwritable : ∀ t ∈ tokens, t.isWritable)
    (outer : List Before) (hcloses : Closes outer.length tokens) :
    (∀ before, alternates true tokens →
        ∃ p : Phrase .sum, p.tokens = openTokens outer ++ beforeTokens before ++ tokens) ∧
      ∀ s : Phrase .sum, alternates false tokens →
        ∃ p : Phrase .sum, p.tokens = openTokens outer ++ s.tokens ++ tokens := by
  induction tokens generalizing outer with
  | nil =>
    refine ⟨fun before h => (by cases h), fun s _ => ⟨s, ?_⟩⟩
    rw [List.eq_nil_of_length_eq_zero (closes_nil.1 hcloses)]
    simp [openTokens]
  | cons t ts ih =>
    have hts : ∀ u ∈ ts, u.isWritable := fun u hu => hwritable u (List.mem_cons_of_mem _ hu)
    cases t with
    | num text =>
      obtain ⟨hall, hlit⟩ := isWritable_num.1 (hwritable _ List.mem_cons_self)
      have hrest := (ih hts outer ((closes_of_ne (by simp) (by simp)).1 hcloses)).2
      refine ⟨fun before h => ?_, fun s h => (by cases h)⟩
      obtain ⟨p, hp⟩ := hrest (complete before (.literal text hall hlit)) h
      refine ⟨p, ?_⟩
      rw [hp, tokens_complete]
      simp [tokens]
    | lparen =>
      refine ⟨fun before h => ?_, fun s h => (by cases h)⟩
      obtain ⟨p, hp⟩ := (ih hts (before :: outer) (closes_lparen.1 hcloses)).1 none h
      refine ⟨p, ?_⟩
      rw [hp]
      simp [openTokens, beforeTokens]
    | op o =>
      have hrest := (ih hts outer ((closes_of_ne (by simp) (by simp)).1 hcloses)).1
      refine ⟨fun before h => (by cases h), fun s h => ?_⟩
      obtain ⟨p, hp⟩ := hrest (some (s, o)) h
      refine ⟨p, ?_⟩
      rw [hp]
      simp [beforeTokens]
    | rparen =>
      refine ⟨fun before h => (by cases h), fun s h => ?_⟩
      obtain ⟨hpos, hcloses⟩ := closes_rparen.1 hcloses
      obtain ⟨before, outer, rfl⟩ := List.exists_cons_of_length_pos hpos
      -- The closed scope is a factor, which completes what stands before its parenthesis.
      obtain ⟨p, hp⟩ := (ih hts outer hcloses).2 (complete before (.group s)) h
      refine ⟨p, ?_⟩
      rw [hp, tokens_complete]
      simp [tokens, openTokens]

theorem alternates_tokens {kind : PhraseKind} (phrase : Phrase kind) (rest : List Token) :
    alternates true (phrase.tokens ++ rest) = alternates false rest := by
  induction phrase generalizing rest with
  | literal text _ _ => rfl
  | group inner ih =>
    show alternates true (inner.tokens ++ [.rparen] ++ rest) = _
    rw [List.append_assoc, ih]
    rfl
  | ofFactor factor ih => exact ih rest
  | ofProduct product ih => exact ih rest
  | multiply left o _ right ihLeft ihRight =>
    show alternates true (left.tokens ++ .op o :: right.tokens ++ rest) = _
    rw [List.append_assoc, ihLeft]
    exact ihRight rest
  | add left o _ right ihLeft ihRight =>
    show alternates true (left.tokens ++ .op o :: right.tokens ++ rest) = _
    rw [List.append_assoc, ihLeft]
    exact ihRight rest

/-- The tokens of a phrase close the parentheses they open. -/
theorem closes_tokens {kind : PhraseKind} (phrase : Phrase kind) {depth : Nat} {rest : List Token} :
    Closes depth (phrase.tokens ++ rest) ↔ Closes depth rest := by
  induction phrase generalizing depth rest with
  | literal text _ _ => exact closes_of_ne (by simp) (by simp)
  | group inner ih =>
    show Closes depth (.lparen :: (inner.tokens ++ [.rparen] ++ rest)) ↔ _
    rw [closes_lparen, List.append_assoc, ih]
    exact closes_rparen.trans ⟨fun h => h.2, fun h => ⟨Nat.succ_pos _, h⟩⟩
  | ofFactor factor ih => exact ih
  | ofProduct product ih => exact ih
  | multiply left o _ right ihLeft ihRight =>
    show Closes depth (left.tokens ++ .op o :: right.tokens ++ rest) ↔ _
    rw [List.append_assoc, ihLeft]
    exact (closes_of_ne (by simp) (by simp)).trans ihRight
  | add left o _ right ihLeft ihRight =>
    show Closes depth (left.tokens ++ .op o :: right.tokens ++ rest) ↔ _
    rw [List.append_assoc, ihLeft]
    exact (closes_of_ne (by simp) (by simp)).trans ihRight

/-- **The tokens that the grammar derives.** -/
theorem exists_tokens_iff {tokens : List Token} (h : ∀ t ∈ tokens, t.isWritable) :
    (∃ p : Phrase .sum, p.tokens = tokens) ↔ Token.Balanced tokens ∧ alternates true tokens := by
  refine ⟨?_, ?_⟩
  · intro hp
    obtain ⟨p, rfl⟩ := hp
    rw [← List.append_nil p.tokens, Token.Balanced, p.closes_tokens, p.alternates_tokens]
    exact ⟨closes_nil.2 rfl, rfl⟩
  · intro ⟨hbalanced, halternates⟩
    obtain ⟨p, hp⟩ := (exists_of_alternates h [] hbalanced).1 none halternates
    exact ⟨p, hp⟩

end Phrase

end Calculator
