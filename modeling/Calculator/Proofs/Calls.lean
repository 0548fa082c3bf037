import Calculator.Proofs.Lexemes
import Calculator.Token.Cursor

/-!
# Calls of a cursor

A cursor and a lexer are at the same place if the bytes before the cursor encode the characters
before the lexer (`Cursor.IsAt`). Then a call answers what the lexer reads, and both are at the same
place afterwards (`Cursor.IsAt.exists_call`). This place lies between two characters, so every slice
is taken at character boundaries.

A lexer yields the tokens of the longest sequence of lexemes and an error about the rest. The calls
answer these items, each once, and `none` from then on.

Main result: `exists_tokenization`.
-/

namespace Calculator

/-! ## Places -/

/-- The bytes before the cursor encode the characters before the lexer. -/
def Cursor.IsAt (cursor : Cursor) (lexer : Lexer) : Prop :=
  ∃ before, cursor.text = before ++ String.ofList lexer.rest ∧
    cursor.offset = before.utf8ByteSize ∧ lexer.position = before.length

theorem utf8ByteSize_ofList_cons (c : Char) (cs : List Char) :
    (String.ofList (c :: cs)).utf8ByteSize = c.utf8Size + (String.ofList cs).utf8ByteSize := by
  rw [String.ofList_cons, String.utf8ByteSize_append, String.utf8ByteSize_singleton]

theorem findByte?_elim {p : Char → Bool} {cs : List Char} {start stop : Nat}
    (hstop : stop = start + (String.ofList cs).utf8ByteSize) :
    (findByte? (fun c => !p c) cs).elim stop (start + ·) =
      start + (String.ofList (cs.takeWhile p)).utf8ByteSize := by
  induction cs generalizing start with
  | nil => exact hstop
  | cons c cs ih =>
    rw [utf8ByteSize_ofList_cons, ← Nat.add_assoc] at hstop
    by_cases hp : p c
    · rw [List.takeWhile_cons_of_pos hp, utf8ByteSize_ofList_cons, ← Nat.add_assoc, ← ih hstop,
        findByte?, if_neg (by simpa using hp), Option.elim_map]
      simp only [Function.comp_def, Nat.add_assoc]
    · rw [List.takeWhile_cons_of_neg hp, findByte?, if_pos (by simpa using hp)]
      rfl

namespace Cursor.IsAt

variable {cursor : Cursor} {lexer after : Lexer} {item : Except EvalError Token}

theorem ofString (text : String) : (Cursor.ofString text).IsAt (Lexer.ofString text) :=
  ⟨"", by simp [Cursor.ofString, Lexer.ofString], rfl, rfl⟩

theorem utf8ByteSize_text (h : cursor.IsAt lexer) :
    cursor.text.utf8ByteSize = cursor.offset + (String.ofList lexer.rest).utf8ByteSize := by
  obtain ⟨before, htext, hoffset, -⟩ := h
  rw [htext, hoffset, String.utf8ByteSize_append]

theorem advance (h : cursor.IsAt lexer) {taken rest : List Char}
    (hrest : lexer.rest = taken ++ rest) :
    IsAt ⟨cursor.text, cursor.offset + (String.ofList taken).utf8ByteSize⟩
      ⟨lexer.position + taken.length, rest⟩ := by
  obtain ⟨before, htext, hoffset, hposition⟩ := h
  refine ⟨before ++ String.ofList taken, ?_, ?_, ?_⟩
  · rw [htext, hrest, String.ofList_append, String.append_assoc]
  · rw [String.utf8ByteSize_append, hoffset]
  · rw [String.length_append, String.length_ofList, hposition]

theorem toEnd (h : cursor.IsAt lexer) :
    IsAt ⟨cursor.text, cursor.text.utf8ByteSize⟩ lexer.toEnd := by
  rw [h.utf8ByteSize_text]
  exact h.advance (List.append_nil _).symm

theorem sliceFrom?_eq (h : cursor.IsAt lexer) :
    sliceFrom? cursor.text cursor.offset = some (String.ofList lexer.rest) := by
  obtain ⟨before, htext, hoffset, -⟩ := h
  exact sliceFrom?_eq_some_iff.2 ⟨before, htext, hoffset⟩

theorem exists_sliceTo? (h : cursor.IsAt lexer) :
    ∃ before, sliceTo? cursor.text cursor.offset = some before ∧
      before.length = lexer.position := by
  obtain ⟨before, htext, hoffset, hposition⟩ := h
  exact ⟨before, sliceTo?_eq_some_iff.2 ⟨_, htext, hoffset⟩, hposition.symm⟩

theorem readRun?_eq (h : cursor.IsAt lexer) :
    readRun? cursor.text cursor.offset = some (String.ofList lexer.run,
      cursor.offset + (String.ofList lexer.run).utf8ByteSize) := by
  have hstop : (findByte? (fun c => !isNumeral c) lexer.rest).elim cursor.text.utf8ByteSize
      (cursor.offset + ·) = cursor.offset + (String.ofList lexer.run).utf8ByteSize :=
    findByte?_elim h.utf8ByteSize_text
  have hslice : slice? cursor.text cursor.offset
      (cursor.offset + (String.ofList lexer.run).utf8ByteSize) =
        some (String.ofList lexer.run) := by
    obtain ⟨before, htext, hoffset, -⟩ := h
    have hrun := slice?_append before (String.ofList lexer.run) (String.ofList lexer.afterRun.rest)
    rwa [String.append_assoc, ← String.ofList_append, lexer.run_append_rest_afterRun, ← htext,
      String.utf8ByteSize_append, ← hoffset] at hrun
  simp only [readRun?, h.sliceFrom?_eq, Option.bind_eq_bind, Option.bind_some, String.toList_ofList,
    hstop, hslice, Option.pure_def]

/-! ## One call -/

theorem call_of_none (h : cursor.IsAt lexer) (hnext : lexer.next? = none) :
    cursor.call = some (none, cursor) := by
  rw [call, h.sliceFrom?_eq, Lexer.next?_eq_none_iff.1 hnext]
  rfl

section

variable {c : Char} {rest : List Char} {t : Token}
  (h : cursor.IsAt lexer) (hrest : lexer.rest = c :: rest)

include h hrest

theorem offset_lt_utf8ByteSize : cursor.offset < cursor.text.utf8ByteSize := by
  have hpos := c.utf8Size_pos
  rw [h.utf8ByteSize_text, hrest, utf8ByteSize_ofList_cons]
  omega

theorem call_of_isLiteral (hnumeral : isNumeral c) (hliteral : isLiteral lexer.run) :
    cursor.call = some (some (.ok (.num (String.ofList lexer.run))),
      ⟨cursor.text, cursor.offset + (String.ofList lexer.run).utf8ByteSize⟩) := by
  simp [call, h.sliceFrom?_eq, h.readRun?_eq, hrest, hnumeral, hliteral]

theorem call_of_not_isLiteral (hnumeral : isNumeral c) (hliteral : ¬isLiteral lexer.run) :
    cursor.call = some (cursor.fail (.invalidNumber (String.ofList lexer.run))) := by
  simp [call, h.sliceFrom?_eq, h.readRun?_eq, hrest, hnumeral, hliteral]

theorem call_of_ofChar? (hnumeral : ¬isNumeral c) (ht : Token.ofChar? c = some t) :
    cursor.call = some (some (.ok t), ⟨cursor.text, cursor.offset + c.utf8Size⟩) := by
  simp [call, h.sliceFrom?_eq, hrest, hnumeral, ht]

theorem call_of_foreign (hnumeral : ¬isNumeral c) (ht : Token.ofChar? c = none) :
    cursor.call = some (cursor.fail (.invalidCharacter c lexer.position)) := by
  obtain ⟨before, hbefore, hlength⟩ := h.exists_sliceTo?
  simp [call, h.sliceFrom?_eq, hrest, hnumeral, ht, hbefore, hlength]

end

/-- **A call answers what the lexer reads**, and both advance alike. -/
theorem exists_call (h : cursor.IsAt lexer) (hnext : lexer.next? = some (item, after)) :
    ∃ next, cursor.call = some (some item, next) ∧ next.IsAt after ∧ next.text = cursor.text ∧
      cursor.offset < next.offset := by
  cases hrest : lexer.rest with
  | nil =>
    rw [Lexer.next?_eq_none_iff.2 hrest] at hnext
    cases hnext
  | cons c rest =>
    have hend := h.offset_lt_utf8ByteSize hrest
    simp only [Lexer.next?, hrest, Option.some.injEq] at hnext
    by_cases hnumeral : isNumeral c
    · rw [if_pos hnumeral] at hnext
      by_cases hliteral : isLiteral lexer.run
      · rw [if_pos hliteral] at hnext
        cases hnext
        refine ⟨_, h.call_of_isLiteral hrest hnumeral hliteral,
          h.advance lexer.run_append_rest_afterRun.symm, rfl, Nat.lt_add_of_pos_right ?_⟩
        rw [Lexer.run, hrest, List.takeWhile_cons_of_pos hnumeral, utf8ByteSize_ofList_cons]
        exact Nat.add_pos_left c.utf8Size_pos _
      · rw [if_neg hliteral] at hnext
        cases hnext
        exact ⟨_, h.call_of_not_isLiteral hrest hnumeral hliteral, h.toEnd, rfl, hend⟩
    · rw [if_neg hnumeral] at hnext
      cases ht : Token.ofChar? c with
      | some t =>
        rw [ht] at hnext
        cases hnext
        have hone : (String.ofList [c]).utf8ByteSize = c.utf8Size := utf8ByteSize_ofList_cons c []
        have hsplit : lexer.rest = [c] ++ rest := hrest
        exact ⟨_, h.call_of_ofChar? hrest hnumeral ht, hone ▸ h.advance hsplit, rfl,
          Nat.lt_add_of_pos_right c.utf8Size_pos⟩
      | none =>
        rw [ht] at hnext
        cases hnext
        exact ⟨_, h.call_of_foreign hrest hnumeral ht, h.toEnd, rfl, hend⟩

/-! ## All calls -/

/-- **The calls answer the items of the lexer**, each once, and `none` from then on. -/
theorem exists_calls (h : cursor.IsAt lexer) {items : List (Except EvalError Token)}
    (hyields : lexer.Yields items) (n : Nat) :
    ∃ last, cursor.calls n = some ((List.range n).map fun k => items[k]?, last) ∧
      last.text = cursor.text ∧ ∃ lexer', last.IsAt lexer' := by
  induction n generalizing cursor lexer items with
  | zero => exact ⟨cursor, rfl, rfl, lexer, h⟩
  | succ n ih =>
    rw [List.range_succ_eq_map, List.map_cons, List.map_map]
    cases hyields with
    | done hend =>
      obtain ⟨last, hcalls, hlast⟩ := ih h (.done hend)
      refine ⟨last, ?_, hlast⟩
      rw [calls, h.call_of_none hend]
      simp [hcalls, Function.comp_def]
    | item hread hrest =>
      obtain ⟨next, hcall, hnext, htext, -⟩ := h.exists_call hread
      obtain ⟨last, hcalls, hlast, hplace⟩ := ih hnext hrest
      refine ⟨last, ?_, hlast.trans htext, hplace⟩
      rw [calls, hcall]
      simp [hcalls, Function.comp_def]

/-- A call that answers with an item advances the cursor. -/
theorem offset_lt (h : cursor.IsAt lexer) {next : Cursor}
    (hcall : cursor.call = some (some item, next)) : cursor.offset < next.offset := by
  cases hread : lexer.next? with
  | none =>
    rw [h.call_of_none hread] at hcall
    cases hcall
  | some reading =>
    obtain ⟨next', hcall', -, -, hlt⟩ := h.exists_call hread
    rw [hcall] at hcall'
    cases hcall'
    exact hlt

end Cursor.IsAt

/-- The split of a text into lexemes, and the answers of the calls of a cursor at its start. -/
structure Tokenization (text : String) (tokens : List Token) (rest : List Char) : Prop where
  lexes : Lexes text.toList tokens rest
  stops : Stops rest
  /-- Every split of the text takes a prefix of the tokens. -/
  longest : ∀ others rest', Lexes text.toList others rest' → others <+: tokens
  /-- No other split ends before a bad lexeme or with the text. -/
  unique : ∀ others rest', Lexes text.toList others rest' → Stops rest' →
    others = tokens ∧ rest' = rest
  /-- The calls answer the items one by one, then `none`. Every call has an answer, and leaves the
  cursor between two characters. -/
  answers : ∀ n, ∃ before behind, text = before ++ behind ∧
    (Cursor.ofString text).calls n = some ((List.range n).map fun k => (itemsAt 0 tokens rest)[k]?,
      ⟨text, before.utf8ByteSize⟩)
  /-- A call that answers with an item advances the cursor. -/
  advances : ∀ n answers cursor item next, (Cursor.ofString text).calls n = some (answers, cursor) →
    cursor.call = some (some item, next) → cursor.offset < next.offset
  /-- There is at most one item for each character. -/
  length_le : (itemsAt 0 tokens rest).length ≤ text.length
  /-- A lexer yields the same items. -/
  yields : (Lexer.ofString text).Yields (itemsAt 0 tokens rest)

/-- **Tokenization is unique and total.** A text has exactly one split into lexemes and a rest that
is empty or starts with a bad lexeme, and this split is the longest. The calls answer its tokens,
then an error if the rest is not empty, and `none` from then on. -/
theorem exists_tokenization (text : String) : ∃ tokens rest, Tokenization text tokens rest := by
  obtain ⟨tokens, rest, hlexes, hstops⟩ := Lexes.exists_of_lexer (Lexer.ofString text)
  have hyields := hlexes.yields hstops 0
  have hcalls := (Cursor.IsAt.ofString text).exists_calls hyields
  refine ⟨tokens, rest, hlexes, hstops, fun _ _ => hlexes.isPrefix hstops,
    fun _ _ => hlexes.unique hstops, fun n => ?_, fun n answers cursor item next hn hcall => ?_,
    ?_, hyields⟩
  · obtain ⟨⟨text', offset⟩, hanswers, rfl, lexer, before, htext, rfl, -⟩ := hcalls n
    exact ⟨before, _, htext, hanswers⟩
  · obtain ⟨last, hanswers, -, lexer, hplace⟩ := hcalls n
    rw [hn] at hanswers
    cases hanswers
    exact hplace.offset_lt hcall
  · exact (hlexes.length_itemsAt_le 0).trans_eq String.length_toList

/-- A foreign character of two bytes behind a run that is no literal. -/
example : (Cursor.ofString "2*1..é").calls 5 =
    some ([some (.ok (.num "2")), some (.ok (.op .times)), some (.error (.invalidNumber "1..")),
      none, none], ⟨"2*1..é", 7⟩) := by
  decide +kernel

end Calculator
