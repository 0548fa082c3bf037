import Calculator.Proofs.Lexing

/-!
# Reading across a character

A character that is a token of its own separates the texts on its two sides. The text before it is
read as if it ended there, with the same error if there is one, since no run of digits extends
across the character. The text behind it is read as a text of its own; for accepted characters its
position in the whole does not matter.

Main results: `Lexer.scan_extend_of_error`, `Lexer.scan_concat_cons` and `Lexer.scan_position`.
-/

namespace Calculator

namespace Lexer

open Token

/-- Appends a text to what a lexer has before it. -/
def extend (lexer : Lexer) (more : List Char) : Lexer :=
  ⟨lexer.position, lexer.rest ++ more⟩

variable {lexer after : Lexer} {c : Char}

theorem not_isNumeral_of_mem_head?_append (hc : ¬isNumeral c) {cs : List Char}
    (hcs : ∀ d ∈ cs.head?, ¬isNumeral d) (rest : List Char) :
    ∀ d ∈ (cs ++ c :: rest).head?, ¬isNumeral d := by
  cases cs with
  | nil =>
    intro d hd
    cases hd
    exact hc
  | cons d ds => exact hcs

theorem run_extend (hc : ¬isNumeral c) (rest : List Char) :
    (lexer.extend (c :: rest)).run = lexer.run := by
  have hsplit : lexer.rest ++ c :: rest = lexer.run ++ (lexer.afterRun.rest ++ c :: rest) := by
    rw [← List.append_assoc, run_append_rest_afterRun]
  have hstop :=
    not_isNumeral_of_mem_head?_append hc lexer.not_isNumeral_of_mem_head?_afterRun rest
  rw [extend, hsplit]
  exact (run_append List.all_takeWhile hstop lexer.position).1

theorem next?_extend_of_ok {t : Token} (hc : ¬isNumeral c)
    (h : lexer.next? = some (.ok t, after)) (rest : List Char) :
    (lexer.extend (c :: rest)).next? = some (.ok t, after.extend (c :: rest)) := by
  obtain ⟨ht, htext, hsep⟩ := next?_ok_text h
  have hafter : after = ⟨lexer.position + t.text.length, after.rest⟩ := by
    have hread := next?_text ht hsep lexer.position
    rw [← htext] at hread
    exact congrArg Prod.snd (Option.some.inj (h.symm.trans hread))
  have hread := next?_text ht
    (fun hnum => not_isNumeral_of_mem_head?_append hc (hsep hnum) rest) lexer.position
  rw [extend, htext, List.append_assoc, hread, hafter]
  rfl

theorem next?_extend_of_error {e : EvalError} (hc : ¬isNumeral c)
    (h : lexer.next? = some (.error e, after)) (rest : List Char) :
    ∃ after', (lexer.extend (c :: rest)).next? = some (.error e, after') := by
  have hhead {d : Char} (hd : d ∈ lexer.rest.head?) :
      d ∈ (lexer.extend (c :: rest)).rest.head? := by
    obtain ⟨ds, hds⟩ := List.head?_eq_some_iff.1 hd
    simp [extend, hds]
  rcases next?_error_cases h with ⟨rfl, hlit, d, hd, hnumeral⟩ | ⟨d, hd, hforeign, rfl⟩
  · rw [← run_extend hc rest] at hlit ⊢
    exact ⟨_, next?_of_not_isLiteral _ hlit ⟨d, hhead hd, hnumeral⟩⟩
  · exact ⟨_, next?_of_not_isAccepted (hhead hd) hforeign⟩

/-- Two scans read the same tokens and have the same error, or none. -/
def Scan.Same (scan scan' : Scan) : Prop :=
  scan.tokens = scan'.tokens ∧ scan.error? = scan'.error?

/-- An error before such a character does not depend on the text behind it. -/
theorem scan_extend_of_error {e : EvalError} (hc : ¬isNumeral c) (h : lexer.scan.error? = some e)
    (rest : List Char) :
    (lexer.extend (c :: rest)).scan.Same lexer.scan := by
  induction lexer using scan_induction with
  | none lexer hnext =>
    rw [scan_of_none hnext] at h
    cases h
  | error lexer e' after hnext =>
    obtain ⟨after', hnext'⟩ := next?_extend_of_error hc hnext rest
    rw [scan_of_error hnext, scan_of_error hnext']
    exact ⟨rfl, rfl⟩
  | ok lexer t after hnext ih =>
    rw [scan_of_ok hnext] at h ⊢
    rw [scan_of_ok (next?_extend_of_ok hc hnext rest)]
    obtain ⟨htokens, herror⟩ := ih h
    exact ⟨congrArg (t :: ·) htokens, herror⟩

theorem scan_concat_cons {tokens : List Token} (h : Readable tokens) {t : Token}
    (hc : ofChar? c = some t) (position : Nat) (rest : List Char) :
    scan ⟨position, (concat tokens).toList ++ c :: rest⟩ =
      let behind := scan ⟨position + (concat tokens).length + 1, rest⟩
      { behind with tokens := tokens ++ t :: behind.tokens } := by
  have hstop : ∀ u ∈ tokens.getLast?, u.isNumber → ∀ d ∈ (c :: rest).head?, ¬isNumeral d := by
    intro _ _ _ d hd
    cases hd
    exact not_isNumeral_of_ofChar? hc
  rw [scan_append h hstop, scan_of_ok (next?_of_ofChar? hc _ rest)]

/-- **Reading accepted characters does not depend on their position.** Only a refused character is
reported with its position. -/
theorem scan_position {cs : List Char} (haccepted : ∀ c ∈ cs, isAccepted c) (p q : Nat) :
    (scan ⟨p, cs⟩).Same (scan ⟨q, cs⟩) := by
  suffices h : ∀ lexer : Lexer, (∀ c ∈ lexer.rest, isAccepted c) → ∀ q,
      lexer.scan.Same (scan ⟨q, lexer.rest⟩) from h ⟨p, cs⟩ haccepted q
  intro lexer
  induction lexer using scan_induction with
  | none lexer hnext =>
    intro _ q
    have hend : lexer.rest = [] := next?_eq_none_iff.1 hnext
    have hnext' : next? ⟨q, lexer.rest⟩ = none := next?_eq_none_iff.2 hend
    rw [scan_of_none hnext, scan_of_none hnext']
    exact ⟨rfl, rfl⟩
  | error lexer e after hnext =>
    intro haccepted q
    -- An invalid number is reported without its position, and no character is foreign.
    rcases next?_error_cases hnext with ⟨rfl, hlit, hnumeral⟩ | ⟨c, hc, hforeign, -⟩
    · have hnext' := next?_of_not_isLiteral ⟨q, lexer.rest⟩ hlit hnumeral
      rw [scan_of_error hnext, scan_of_error hnext']
      exact ⟨rfl, rfl⟩
    · exact absurd (haccepted c (List.mem_of_mem_head? hc)) hforeign
  | ok lexer t after hnext ih =>
    intro haccepted q
    obtain ⟨ht, htext, hsep⟩ := next?_ok_text hnext
    have hnext' := next?_text ht hsep q
    rw [← htext] at hnext'
    have hrest : ∀ c ∈ after.rest, isAccepted c := by
      intro c hc
      refine haccepted c ?_
      rw [htext]
      exact List.mem_append_right _ hc
    obtain ⟨htokens, herror⟩ := ih hrest (q + t.text.length)
    rw [scan_of_ok hnext, scan_of_ok hnext']
    exact ⟨congrArg (t :: ·) htokens, herror⟩

/-- **A group is read independently of the text around it.** -/
theorem scan_group {tokens inner : List Token} (htokens : Readable tokens)
    (hinner : Readable inner) {behind : String} (haccepted : ∀ c ∈ behind.toList, isAccepted c) :
    let last := (ofString behind).scan
    (ofString (concat tokens ++ "(" ++ concat inner ++ ")" ++ behind)).scan.Same
      { last with tokens := tokens ++ .lparen :: (inner ++ [.rparen]) ++ last.tokens } := by
  intro last
  have htext : ofString (concat tokens ++ "(" ++ concat inner ++ ")" ++ behind) =
      ⟨0, (concat tokens).toList ++ '(' :: ((concat inner).toList ++ ')' :: behind.toList)⟩ := by
    simp [ofString]
  rw [htext, scan_concat_cons htokens rfl, scan_concat_cons hinner rfl]
  obtain ⟨hread, herror⟩ := scan_position haccepted
    (0 + (concat tokens).length + 1 + (concat inner).length + 1) 0
  refine ⟨?_, herror⟩
  show tokens ++ .lparen :: (inner ++ .rparen :: _) = _
  rw [hread, List.append_assoc, List.cons_append, List.append_assoc]
  rfl

end Lexer

end Calculator
