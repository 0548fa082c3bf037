import Calculator.Proofs.Iteration

/-!
# Lexemes

The readable part of a text is a sequence of lexemes: operators, parentheses and numbers, where a
number is a maximal run of digits and points (`Lexes`). It ends with the text, or before a bad
lexeme, which is a maximal run that is no literal or a character that no expression holds
(`StartsBad`).

Such a sequence cannot be extended (`Lexes.isPrefix`), so it is the longest and unique
(`Lexes.unique`). A lexer yields its tokens and an error about the bad lexeme (`Lexes.yields`).
-/

namespace Calculator

open Token

/-- The text starts with the lexemes of the tokens, followed by the rest. -/
inductive Lexes : List Char → List Token → List Char → Prop
  | nil {rest : List Char} : Lexes rest [] rest
  | cons {t : Token} {ts : List Token} {behind rest : List Char} (hwritable : t.isWritable)
      (hrun : t.isNumber → ∀ c ∈ behind.head?, ¬isNumeral c) (hbehind : Lexes behind ts rest) :
      Lexes (t.text.toList ++ behind) (t :: ts) rest

/-- The text starts with a maximal run of digits and points that is no literal, or with a character
that no expression holds. -/
def StartsBad (text : List Char) : Prop :=
  ∃ c ∈ text.head?, (isNumeral c ∧ ¬isLiteral (text.takeWhile isNumeral)) ∨ ¬isAccepted c

/-- The text starts with no lexeme: it is empty, or starts with a bad one. -/
def Stops (text : List Char) : Prop :=
  text = [] ∨ StartsBad text

/-- The error about the start of a text at a position: its run of digits and points, or else its
first character. -/
def errorAt? (position : Nat) : List Char → Option EvalError
  | [] => none
  | c :: cs => some <|
    if isNumeral c then .invalidNumber (String.ofList ((c :: cs).takeWhile isNumeral))
    else .invalidCharacter c position

/-- The tokens at a position, followed by the error about the rest if it is not empty. -/
def itemsAt (position : Nat) (tokens : List Token) (rest : List Char) :
    List (Except EvalError Token) :=
  tokens.map .ok ++ ((errorAt? (position + (concat tokens).length) rest).map .error).toList

/-! ## One reading -/

theorem next?_of_startsBad {lexer : Lexer} (h : StartsBad lexer.rest) :
    ∃ e, errorAt? lexer.position lexer.rest = some e ∧
      lexer.next? = some (.error e, lexer.toEnd) := by
  obtain ⟨c, hc, hbad⟩ := h
  obtain ⟨cs, hrest⟩ := List.head?_eq_some_iff.1 hc
  rcases hbad with ⟨hnumeral, hliteral⟩ | hforeign
  · refine ⟨_, ?_, Lexer.next?_of_not_isLiteral lexer hliteral ⟨c, hc, hnumeral⟩⟩
    rw [hrest, errorAt?, if_pos hnumeral, Lexer.run, hrest]
  · refine ⟨_, ?_, Lexer.next?_of_not_isAccepted hc hforeign⟩
    rw [hrest, errorAt?, if_neg (not_or.1 (mt Bool.or_eq_true_iff.2 hforeign)).1]

theorem startsBad_of_next? {lexer after : Lexer} {e : EvalError}
    (h : lexer.next? = some (.error e, after)) : StartsBad lexer.rest := by
  rcases Lexer.next?_error_cases h with ⟨-, hliteral, c, hc, hnumeral⟩ | ⟨c, hc, hforeign, -⟩
  · exact ⟨c, hc, .inl ⟨hnumeral, hliteral⟩⟩
  · exact ⟨c, hc, .inr hforeign⟩

theorem Stops.next?_ne_ok {lexer after : Lexer} {t : Token} (h : Stops lexer.rest) :
    lexer.next? ≠ some (.ok t, after) := by
  rcases h with hend | hbad
  · rw [Lexer.next?_eq_none_iff.2 hend]
    simp
  · obtain ⟨e, -, hnext⟩ := next?_of_startsBad hbad
    rw [hnext]
    simp

namespace Lexes

variable {text rest rest' : List Char} {tokens others ts : List Token} {t : Token}

theorem next? (h : Lexes text (t :: ts) rest) (position : Nat) :
    ∃ behind, Lexer.next? ⟨position, text⟩ =
      some (.ok t, ⟨position + t.text.length, behind⟩) ∧ Lexes behind ts rest := by
  cases h with
  | cons hwritable hrun hbehind =>
    exact ⟨_, Lexer.next?_text hwritable hrun position, hbehind⟩

/-! ## The split of a text -/

theorem text_eq (h : Lexes text tokens rest) : text = (concat tokens).toList ++ rest := by
  induction h with
  | nil => rfl
  | cons _ _ _ ih => rw [ih, toList_concat_cons, List.append_assoc]

theorem length_le (h : Lexes text tokens rest) : tokens.length + rest.length ≤ text.length := by
  induction h with
  | nil => simp
  | cons hwritable _ _ ih =>
    have hpos := List.length_pos_of_ne_nil (text_of_isWritable hwritable).1
    rw [List.length_append, List.length_cons]
    omega

/-- **Every text can be split** into lexemes and a rest that starts with none. -/
theorem exists_of_lexer (lexer : Lexer) :
    ∃ tokens rest, Lexes lexer.rest tokens rest ∧ Stops rest := by
  induction lexer using Lexer.scan_induction with
  | none lexer h =>
    exact ⟨[], lexer.rest, .nil, .inl (Lexer.next?_eq_none_iff.1 h)⟩
  | error lexer e after h =>
    exact ⟨[], lexer.rest, .nil, .inr (startsBad_of_next? h)⟩
  | ok lexer t after h ih =>
    obtain ⟨ts, rest, hlexes, hstops⟩ := ih
    obtain ⟨hwritable, htext, hrun⟩ := Lexer.next?_ok_text h
    refine ⟨t :: ts, rest, ?_, hstops⟩
    rw [htext]
    exact .cons hwritable hrun hlexes

/-- **The split is the longest.** -/
theorem isPrefix (h : Lexes text tokens rest) (hstops : Stops rest)
    (hothers : Lexes text others rest') : others <+: tokens := by
  induction others generalizing text tokens with
  | nil => exact List.nil_prefix
  | cons t ts ih =>
    obtain ⟨behind, hnext, hbehind⟩ := hothers.next? 0
    cases tokens with
    | nil =>
      cases h
      exact absurd hnext (Stops.next?_ne_ok hstops)
    | cons u us =>
      obtain ⟨behind', hnext', hbehind'⟩ := h.next? 0
      rw [hnext] at hnext'
      cases hnext'
      exact List.cons_prefix_cons.2 ⟨rfl, ih hbehind' hbehind⟩

/-- **The split is unique.** -/
theorem unique (h : Lexes text tokens rest) (hstops : Stops rest)
    (hothers : Lexes text others rest') (hstops' : Stops rest') :
    others = tokens ∧ rest' = rest := by
  have htokens : others = tokens :=
    (h.isPrefix hstops hothers).eq_of_length_le (hothers.isPrefix hstops' h).length_le
  refine ⟨htokens, ?_⟩
  have htext := hothers.text_eq.symm.trans h.text_eq
  rwa [htokens, List.append_cancel_left_eq] at htext

/-- **A lexer yields the tokens of the lexemes**, then the error about the rest. -/
theorem yields (h : Lexes text tokens rest) (hstops : Stops rest) (position : Nat) :
    Lexer.Yields ⟨position, text⟩ (itemsAt position tokens rest) := by
  induction h generalizing position with
  | @nil rest =>
    rcases hstops with rfl | hbad
    · exact .done rfl
    · have hbad : StartsBad (Lexer.rest ⟨position, rest⟩) := hbad
      obtain ⟨e, herror, hnext⟩ := next?_of_startsBad hbad
      rw [itemsAt, concat_nil, String.length_empty, Nat.add_zero, herror]
      exact .item hnext (.done (Lexer.next?_eq_none_iff.2 (Lexer.rest_toEnd _)))
  | @cons t ts behind rest hwritable hrun _ ih =>
    have hrest := ih hstops (position + t.text.length)
    rw [itemsAt, Nat.add_assoc, ← length_concat_cons] at hrest
    exact .item (Lexer.next?_text hwritable hrun position) hrest

theorem length_itemsAt_le (h : Lexes text tokens rest) (position : Nat) :
    (itemsAt position tokens rest).length ≤ text.length := by
  refine Nat.le_trans ?_ h.length_le
  cases rest <;> simp [itemsAt, errorAt?]

end Lexes

end Calculator
