import Calculator.Proofs.Conservation
import Calculator.Proofs.Derivation
import Calculator.Proofs.Evaluation

/-!
# Accepted expressions

No stage of a call checks the order of operands and operators. The conversion counts the open
parentheses and the machine counts the values, so an expression is accepted exactly if its
parentheses are balanced and its listing is the listing of a tree that has a value.

This is weaker than the grammar: an operator may stand before or behind its two operands instead of
between them, as in `+1(2)` and `1(2)+`. Then one operand directly follows another, and this is the
only deviation. The listing of a tree has one more number than operators, so separate operands
alternate with operators (`Token.alternates_of_countP`), and the grammar derives the expression.

Main result: `evaluate_eq_ok_iff`.
-/

namespace Calculator

/-! ## Tokens of an expression -/

namespace Token

/-- Readable tokens are determined by their concatenation. -/
theorem Readable.concat_inj {ts us : List Token} (hts : Readable ts) (hus : Readable us)
    (h : concat ts = concat us) : ts = us := by
  have hscan := congrArg (fun text => (Lexer.ofString text).scan.tokens) h
  simpa only [Lexer.scan_concat hts, Lexer.scan_concat hus] using hscan

end Token

/-- A converted text is read to its end. -/
theorem exists_tokens_of_toPostorder {text : String} {listing : List Token}
    (h : toPostorder text = .ok listing) : ∃ tokens, Token.Readable tokens ∧
      text = Token.concat tokens ∧ (Yard.steps {} tokens >>= Yard.finish) = .ok listing := by
  obtain ⟨yard, hsteps, hend⟩ := bind_eq_ok_iff.1 h
  cases herror : (Lexer.ofString text).scan.error? with
  | some e =>
    rw [herror] at hend
    cases hend
  | none =>
    obtain ⟨hread, htext⟩ := Lexer.eq_concat_of_scan herror
    rw [herror] at hend
    exact ⟨_, hread, htext, bind_eq_ok_iff.2 ⟨yard, hsteps, hend⟩⟩

theorem Expression.countP_postorder (tree : Expression) :
    tree.postorder.countP Token.isNumber = tree.postorder.countP Token.isOperator + 1 := by
  induction tree with
  | literal text => rfl
  | binary o left right ihLeft ihRight =>
    simp only [postorder, List.countP_append, ihLeft, ihRight, List.countP_singleton,
      Token.isNumber, Token.isOperator, if_true, Bool.false_eq_true, if_false]
    omega

theorem Yard.countP_of_finish {tokens listing : List Token}
    (h : (steps {} tokens >>= finish) = .ok listing) {p : Token → Bool}
    (hp : ∀ t, p t → ¬t.isParenthesis) : listing.countP p = tokens.countP p := by
  rw [(perm_of_finish h).countP_eq, List.countP_filter]
  refine List.countP_congr fun t _ => ?_
  rw [Bool.and_eq_true, Bool.not_eq_true']
  exact ⟨fun h => h.1, fun h => ⟨h, Bool.not_eq_true _ ▸ hp t h⟩⟩

/-! ## Acceptance and derivability -/

/-- The grammar derives the expression without its blanks. -/
def Derivable (expression : String) : Prop :=
  ∃ phrase : Phrase .sum, withoutBlanks expression = phrase.text

/-- Without its blanks the expression is the text of the tokens, and their conversion is the listing
of the tree. -/
structure Converts (expression : String) (tokens : List Token) (tree : Expression) : Prop where
  readable : Token.Readable tokens
  written : withoutBlanks expression = Token.concat tokens
  balanced : Token.Balanced tokens
  listing : toPostorder (withoutBlanks expression) = .ok tree.postorder

namespace Converts

variable {expression : String} {tokens : List Token} {tree : Expression}

theorem countP_isNumber (h : Converts expression tokens tree) :
    tokens.countP Token.isNumber = tokens.countP Token.isOperator + 1 := by
  have hlisting := h.listing
  rw [h.written, toPostorder_concat h.readable] at hlisting
  rw [← Yard.countP_of_finish hlisting, ← Yard.countP_of_finish hlisting, tree.countP_postorder]
  · intro t ht
    cases t <;> simp_all [Token.isOperator, Token.isParenthesis]
  · intro t ht
    cases t <;> simp_all [Token.isNumber, Token.isParenthesis]

theorem tokens_ne_nil (h : Converts expression tokens tree) : tokens ≠ [] := by
  intro hnil
  have hcount := h.countP_isNumber
  rw [hnil] at hcount
  cases hcount

theorem compact_eq (h : Converts expression tokens tree) :
    compact expression = .ok (withoutBlanks expression) := by
  rw [h.written]
  exact compact_eq_concat h.readable h.tokens_ne_nil h.written

/-- **A converted expression is derivable exactly if its operands are separate.** -/
theorem derivable_iff (h : Converts expression tokens tree) :
    Derivable expression ↔ Token.Separate tokens := by
  have hderivable : Derivable expression ↔ ∃ phrase : Phrase .sum, phrase.tokens = tokens := by
    refine exists_congr fun phrase => ⟨fun htext => ?_, fun htokens => ?_⟩
    · rw [h.written] at htext
      exact (h.readable.concat_inj phrase.readable_tokens htext).symm
    · rw [h.written, Phrase.text, htokens]
  rw [hderivable, Phrase.exists_tokens_iff h.readable.writable]
  refine ⟨fun hphrase => (Token.separate_of_alternates hphrase.2).1, fun hsep => ?_⟩
  refine ⟨h.balanced, (Token.alternates_of_countP hsep fun hnext => ?_).2 h.countP_isNumber⟩
  cases hnext

end Converts

theorem result_evaluateIn_eq_ok_iff {α : Type} [Operand α] {settings : Settings}
    {expression : String} {v : α} :
    (settings.evaluateIn α expression).result = .ok v ↔
      settings.checkLength expression = .ok () ∧
        ∃ tokens tree, Converts expression tokens tree ∧ tree.evaluate = .ok v := by
  rw [Settings.result_evaluateIn_eq_ok_iff_stages]
  refine ⟨?_, ?_⟩
  · rintro ⟨hlength, text, hcompact, listing, hlisting, hvalue⟩
    obtain ⟨rfl, -, -⟩ := compact_eq_ok_iff.1 hcompact
    obtain ⟨tree, rfl, htree⟩ := Postorder.exists_tree_of_value hvalue
    obtain ⟨tokens, hread, htext, hsteps⟩ := exists_tokens_of_toPostorder hlisting
    have hbalanced := (Yard.result_isOk_iff tokens).1 ⟨_, hsteps⟩
    exact ⟨hlength, tokens, tree, ⟨hread, htext, hbalanced, hlisting⟩, htree⟩
  · intro ⟨hlength, tokens, tree, hconverts, hvalue⟩
    refine ⟨hlength, _, hconverts.compact_eq, _, hconverts.listing, ?_⟩
    rw [Expression.value_postorder]
    exact hvalue

/-- **Accepted expressions.** A call has a value exactly if the expression is within the limit and,
without its blanks, is the text of tokens whose parentheses are balanced and whose conversion is the
listing of a tree with this value. The grammar derives such an expression exactly if no operand
directly follows another. -/
theorem evaluate_eq_ok_iff (settings : Settings) (expression : String) :
    (∀ v, (settings.evaluate expression).result = .ok v ↔
      settings.checkLength expression = .ok () ∧
        ∃ tokens tree, Converts expression tokens tree ∧ tree.evaluate = .ok v) ∧
    (∀ v, (settings.evaluateExact expression).result = .ok v ↔
      settings.checkLength expression = .ok () ∧
        ∃ tokens tree, Converts expression tokens tree ∧ tree.evaluate = .ok v) ∧
    ∀ tokens tree, Converts expression tokens tree →
      (Derivable expression ↔ Token.Separate tokens) :=
  ⟨fun _ => result_evaluateIn_eq_ok_iff, fun _ => result_evaluateIn_eq_ok_iff,
    fun _ _ h => h.derivable_iff⟩

/-- An expression that is converted to a tree and has separate operands. -/
theorem derivable_one_plus_two : Derivable "1 + (2)" := by
  have hconverts : Converts "1 + (2)" [.num "1", .op .plus, .lparen, .num "2", .rparen]
      (.binary .plus (.literal "1") (.literal "2")) :=
    ⟨by decide, by decide, (Yard.result_isOk_iff _).1 ⟨_, rfl⟩, by decide +kernel⟩
  exact ((evaluate_eq_ok_iff {} "1 + (2)").2.2 _ _ hconverts).2 (by decide)

/-- An operator behind its two operands is accepted, but the grammar does not derive it. -/
theorem not_derivable_of_accepted :
    (({} : Settings).evaluate "1(2)+").result.isOk ∧
      (({} : Settings).evaluateExact "1(2)+").result = .ok 3 ∧ ¬Derivable "1(2)+" := by
  refine ⟨by decide +kernel, by decide +kernel, fun ⟨phrase, htext⟩ => ?_⟩
  have hread : Token.Readable [.num "1", .lparen, .num "2", .rparen, .op .plus] := by decide
  have hwritten : withoutBlanks "1(2)+" =
      Token.concat [.num "1", .lparen, .num "2", .rparen, .op .plus] := by decide
  have htokens := hread.concat_inj phrase.readable_tokens (hwritten.symm.trans htext)
  have halternates := phrase.alternates_tokens []
  rw [List.append_nil, ← htokens] at halternates
  cases halternates

end Calculator
