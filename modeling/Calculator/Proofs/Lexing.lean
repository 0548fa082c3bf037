import Calculator.Token.Lexer
import Mathlib.Data.List.Chain

/-!
# Reading back written tokens

Tokens are written one after the other without separators. They are read back if their numbers are
literals and no two of them are adjacent, since a lexer takes the maximal run as a number
(`Token.Readable`).

Main results: `Lexer.scan_append`, a scan of readable tokens and any text behind them finds these
tokens and continues behind them; `Lexer.scan_spec`, the tokens that any scan finds are readable and
are what the text starts with, all of it if there is no error.
-/

namespace Calculator

/-! ## Readable tokens -/

namespace Token

/-- Whether a token is a number. -/
def isNumber : Token → Bool
  | num _ => true
  | _ => false

/-- Whether a token is read back from its text; that of a number must be a literal. -/
def isWritable : Token → Bool
  | num text => text.toList.all isNumeral && isLiteral text.toList
  | _ => true

/-- Tokens whose numbers are literals and not adjacent. -/
structure Readable (tokens : List Token) : Prop where
  writable : ∀ t ∈ tokens, t.isWritable
  apart : tokens.IsChain fun t u => ¬(t.isNumber ∧ u.isNumber)

instance (tokens : List Token) : Decidable (Readable tokens) :=
  decidable_of_iff ((∀ t ∈ tokens, t.isWritable) ∧
    tokens.IsChain fun t u => ¬(t.isNumber ∧ u.isNumber)) ⟨fun h => ⟨h.1, h.2⟩, fun h => ⟨h.1, h.2⟩⟩

theorem readable_nil : Readable [] := ⟨by simp, .nil⟩

theorem readable_cons {t : Token} {ts : List Token} :
    Readable (t :: ts) ↔
      t.isWritable ∧ (∀ u ∈ ts.head?, ¬(t.isNumber ∧ u.isNumber)) ∧ Readable ts := by
  refine ⟨?_, ?_⟩
  · intro h
    obtain ⟨hhead, htail⟩ := List.isChain_cons.1 h.apart
    exact ⟨h.writable t List.mem_cons_self, hhead,
      ⟨fun u hu => h.writable u (List.mem_cons_of_mem t hu), htail⟩⟩
  · intro h
    obtain ⟨ht, hhead, hts⟩ := h
    exact ⟨List.forall_mem_cons.2 ⟨ht, hts.writable⟩, List.isChain_cons.2 ⟨hhead, hts.apart⟩⟩

theorem readable_append_cons {ts us : List Token} {t : Token} (ht : ¬t.isNumber) :
    Readable (ts ++ t :: us) ↔ Readable ts ∧ Readable us := by
  have hwrite : t.isWritable := by
    cases t with
    | num text => exact absurd rfl ht
    | _ => rfl
  have hus : Readable (t :: us) ↔ Readable us :=
    readable_cons.trans ⟨fun h => h.2.2, fun h => ⟨hwrite, fun u _ hu => ht hu.1, h⟩⟩
  rw [← hus]
  refine ⟨?_, ?_⟩
  · intro h
    obtain ⟨hts, hrest, -⟩ := List.isChain_append.1 h.apart
    exact ⟨⟨fun u hu => h.writable u (List.mem_append_left _ hu), hts⟩,
      ⟨fun u hu => h.writable u (List.mem_append_right _ hu), hrest⟩⟩
  · intro h
    obtain ⟨hts, hrest⟩ := h
    refine ⟨List.forall_mem_append.2 ⟨hts.writable, hrest.writable⟩,
      List.isChain_append.2 ⟨hts.apart, hrest.apart, ?_⟩⟩
    intro u _ v hv hnum
    cases hv
    exact ht hnum.2

theorem readable_group {tokens : List Token} (h : Readable tokens) :
    Readable (.lparen :: (tokens ++ [.rparen])) := by
  have hclose : Readable (tokens ++ [.rparen]) :=
    (readable_append_cons (by simp [isNumber])).2 ⟨h, readable_nil⟩
  exact readable_cons.2 ⟨rfl, by simp [isNumber], hclose⟩

theorem exists_num_of_isNumber {t : Token} (h : t.isNumber) : ∃ text, t = num text := by
  cases t with
  | num text => exact ⟨text, rfl⟩
  | op o => cases h
  | lparen => cases h
  | rparen => cases h

theorem isWritable_num {text : String} :
    (num text).isWritable ↔ text.toList.all isNumeral ∧ isLiteral text.toList :=
  Bool.and_eq_true_iff

theorem exists_char_of_not_isNumber {t : Token} (h : ¬t.isNumber) :
    ∃ c, t.text.toList = [c] ∧ ofChar? c = some t := by
  cases t with
  | num text => exact absurd rfl h
  | op o => exact ⟨o.symbol, by simp [text], ofChar?_symbol o⟩
  | lparen => exact ⟨'(', rfl, rfl⟩
  | rparen => exact ⟨')', rfl, rfl⟩

theorem exists_numeral_of_isNumber {t : Token} (ht : t.isWritable) (h : t.isNumber) :
    ∃ c cs, t.text.toList = c :: cs ∧ isNumeral c := by
  obtain ⟨text, rfl⟩ := exists_num_of_isNumber h
  obtain ⟨hall, hlit⟩ := isWritable_num.1 ht
  obtain ⟨c, cs, hcons⟩ := List.exists_cons_of_ne_nil (ne_nil_of_isLiteral hlit)
  exact ⟨c, cs, hcons, List.all_eq_true.1 hall c (by rw [hcons]; exact List.mem_cons_self)⟩

@[simp] theorem length_concat_cons (t : Token) (ts : List Token) :
    (concat (t :: ts)).length = t.text.length + (concat ts).length := by
  rw [← String.length_toList, toList_concat_cons, List.length_append, String.length_toList,
    String.length_toList]

theorem not_isNumeral_of_ofChar? {c : Char} {t : Token} (h : ofChar? c = some t) :
    ¬isNumeral c := by
  intro hc
  rw [ofChar?_eq_none_of_isNumeral hc] at h
  cases h

theorem text_of_isWritable {t : Token} (ht : t.isWritable) :
    t.text.toList ≠ [] ∧ ∀ c ∈ t.text.toList, isAccepted c := by
  by_cases hnum : t.isNumber
  · obtain ⟨text, rfl⟩ := exists_num_of_isNumber hnum
    obtain ⟨hall, hlit⟩ := isWritable_num.1 ht
    refine ⟨ne_nil_of_isLiteral hlit, fun c hc => ?_⟩
    have hnumeral : isNumeral c := List.all_eq_true.1 hall c hc
    rw [isAccepted, hnumeral, Bool.true_or]
  · obtain ⟨c, htext, hc⟩ := exists_char_of_not_isNumber hnum
    rw [htext]
    refine ⟨List.cons_ne_nil _ _, fun d hd => ?_⟩
    rw [List.mem_singleton.1 hd, isAccepted, hc, Option.isSome_some, Bool.or_true]

theorem concat_ne_nil {tokens : List Token} (h : Readable tokens) (hne : tokens ≠ []) :
    (concat tokens).toList ≠ [] := by
  obtain ⟨t, ts, rfl⟩ := List.exists_cons_of_ne_nil hne
  rw [toList_concat_cons]
  exact List.append_ne_nil_of_left_ne_nil (text_of_isWritable (readable_cons.1 h).1).1 _

theorem isAccepted_of_mem_concat {tokens : List Token} (h : Readable tokens) {c : Char}
    (hc : c ∈ (concat tokens).toList) : isAccepted c := by
  induction tokens with
  | nil => cases hc
  | cons t ts ih =>
    obtain ⟨ht, -, hts⟩ := readable_cons.1 h
    rw [toList_concat_cons] at hc
    rcases List.mem_append.1 hc with hc | hc
    · exact (text_of_isWritable ht).2 c hc
    · exact ih hts hc

end Token

/-! ## One reading -/

namespace Lexer

open Token

/-- A successful reading takes a run that is a literal, or one character. -/
theorem next?_ok_cases {lexer after : Lexer} {t : Token}
    (h : lexer.next? = some (.ok t, after)) :
    (t = .num (String.ofList lexer.run) ∧ isLiteral lexer.run ∧ after = lexer.afterRun) ∨
      ∃ c rest, lexer.rest = c :: rest ∧ ofChar? c = some t ∧
        after = ⟨lexer.position + 1, rest⟩ := by
  unfold next? at h
  split at h
  · cases h
  · next c rest hrest =>
    dsimp only at h
    split at h
    · split at h
      · next hlit =>
        cases h
        exact .inl ⟨rfl, hlit, rfl⟩
      · cases h
    · split at h
      · next u hu =>
        cases h
        exact .inr ⟨c, rest, hrest, hu, rfl⟩
      · cases h

/-- A failed reading is about a run that is no literal, or about a foreign character. -/
theorem next?_error_cases {lexer after : Lexer} {e : EvalError}
    (h : lexer.next? = some (.error e, after)) :
    (e = .invalidNumber (String.ofList lexer.run) ∧ ¬isLiteral lexer.run ∧
        ∃ c ∈ lexer.rest.head?, isNumeral c) ∨
      ∃ c ∈ lexer.rest.head?, ¬isAccepted c ∧ e = .invalidCharacter c lexer.position := by
  unfold next? at h
  split at h
  · cases h
  · next c rest hrest =>
    dsimp only at h
    split at h
    · next hc =>
      split at h
      · cases h
      · next hlit =>
        cases h
        exact .inl ⟨rfl, hlit, c, by simp [hrest], hc⟩
    · next hc =>
      split at h
      · cases h
      · next hnone =>
        cases h
        exact .inr ⟨c, by simp [hrest], by simp [isAccepted, hc, hnone], rfl⟩

theorem next?_of_ofChar? {c : Char} {t : Token} (h : ofChar? c = some t) (position : Nat)
    (rest : List Char) :
    next? ⟨position, c :: rest⟩ = some (.ok t, ⟨position + 1, rest⟩) := by
  simp [next?, h, not_isNumeral_of_ofChar? h]

theorem next?_of_isLiteral (lexer : Lexer) (h : isLiteral lexer.run) :
    lexer.next? = some (.ok (.num (String.ofList lexer.run)), lexer.afterRun) := by
  have hne := ne_nil_of_isLiteral h
  unfold next?
  split
  · next hrest => exact absurd (by rw [run, hrest]; rfl) hne
  · next c rest hrest =>
    have hc : isNumeral c := by
      by_contra hc
      exact hne (by rw [run, hrest]; exact List.takeWhile_cons_of_neg hc)
    simp [hc, h]

theorem next?_of_not_isLiteral (lexer : Lexer) (h : ¬isLiteral lexer.run)
    (hhead : ∃ c ∈ lexer.rest.head?, isNumeral c) :
    lexer.next? = some (.error (.invalidNumber (String.ofList lexer.run)), lexer.toEnd) := by
  obtain ⟨c, hc, hnumeral⟩ := hhead
  obtain ⟨cs, hrest⟩ := List.head?_eq_some_iff.1 hc
  simp [next?, hrest, hnumeral, h]

theorem next?_of_not_isAccepted {lexer : Lexer} {c : Char} (hc : c ∈ lexer.rest.head?)
    (h : ¬isAccepted c) :
    lexer.next? = some (.error (.invalidCharacter c lexer.position), lexer.toEnd) := by
  obtain ⟨cs, hrest⟩ := List.head?_eq_some_iff.1 hc
  obtain ⟨hnumeral, htoken⟩ := not_or.1 (mt Bool.or_eq_true_iff.2 h)
  have hnone : ofChar? c = none := by simpa using htoken
  simp [next?, hrest, hnumeral, hnone]

theorem run_append {digits rest : List Char} (hdigits : digits.all isNumeral)
    (hrest : ∀ c ∈ rest.head?, ¬isNumeral c) (position : Nat) :
    run ⟨position, digits ++ rest⟩ = digits ∧
      afterRun ⟨position, digits ++ rest⟩ = ⟨position + digits.length, rest⟩ := by
  have htake : rest.takeWhile isNumeral = [] := by
    cases rest with
    | nil => rfl
    | cons c rest => exact List.takeWhile_cons_of_neg (hrest c rfl)
  have hdrop : rest.dropWhile isNumeral = rest := by
    simpa [htake] using List.takeWhile_append_dropWhile (p := isNumeral) (l := rest)
  have hall : ∀ c ∈ digits, isNumeral c := List.all_eq_true.1 hdigits
  have hrun : run ⟨position, digits ++ rest⟩ = digits := by
    rw [run, List.takeWhile_append_of_pos hall, htake, List.append_nil]
  refine ⟨hrun, ?_⟩
  rw [afterRun, hrun, List.dropWhile_append_of_pos hall, hdrop]

theorem not_isNumeral_of_mem_head?_afterRun (lexer : Lexer) :
    ∀ c ∈ lexer.afterRun.rest.head?, ¬isNumeral c := by
  intro c hc
  have hstop := List.head?_dropWhile_not isNumeral lexer.rest
  rw [show (lexer.rest.dropWhile isNumeral).head? = some c from hc] at hstop
  simpa using hstop

/-- A writable token is read back from its text. -/
theorem next?_text {t : Token} (ht : t.isWritable) {rest : List Char}
    (hrest : t.isNumber → ∀ c ∈ rest.head?, ¬isNumeral c) (position : Nat) :
    next? ⟨position, t.text.toList ++ rest⟩ =
      some (.ok t, ⟨position + t.text.length, rest⟩) := by
  by_cases hnum : t.isNumber
  · obtain ⟨text, rfl⟩ := exists_num_of_isNumber hnum
    obtain ⟨hall, hlit⟩ := isWritable_num.1 ht
    obtain ⟨hrun, hafter⟩ := run_append hall (hrest hnum) position
    have hread := next?_of_isLiteral ⟨position, text.toList ++ rest⟩ (by rwa [hrun])
    rw [hrun, hafter, String.ofList_toList, String.length_toList] at hread
    exact hread
  · obtain ⟨c, htext, hc⟩ := exists_char_of_not_isNumber hnum
    rw [← String.length_toList, htext, List.singleton_append]
    exact next?_of_ofChar? hc position rest

theorem next?_ok_text {lexer after : Lexer} {t : Token}
    (h : lexer.next? = some (.ok t, after)) :
    t.isWritable ∧ lexer.rest = t.text.toList ++ after.rest ∧
      (t.isNumber → ∀ c ∈ after.rest.head?, ¬isNumeral c) := by
  rcases next?_ok_cases h with ⟨rfl, hlit, rfl⟩ | ⟨c, rest, hrest, ht, rfl⟩
  · refine ⟨?_, ?_, ?_⟩
    · have hall : lexer.run.all isNumeral := List.all_takeWhile
      simp [isWritable, hall, hlit]
    · simp [Token.text, run_append_rest_afterRun]
    · exact fun _ => not_isNumeral_of_mem_head?_afterRun lexer
  · have hnum : ¬t.isNumber := by
      cases t with
      | num text => exact absurd ht (ofChar?_ne_num c text)
      | _ => exact Bool.false_ne_true
    refine ⟨?_, ?_, fun h => absurd h hnum⟩
    · cases t with
      | num text => exact absurd rfl hnum
      | _ => rfl
    · rw [hrest, text_of_ofChar? ht, String.toList_singleton, List.singleton_append]

/-! ## Scans -/

theorem Scan.result_of_error {scan : Scan} {e : EvalError} (h : scan.error? = some e) :
    scan.result = .error e := by
  simp only [result, h]

theorem Scan.result_of_none {scan : Scan} (h : scan.error? = none) :
    scan.result = .ok scan.tokens := by
  simp only [result, h]

/-- Induction on a scan: the place where it stops, and each token before. -/
theorem scan_induction {motive : Lexer → Prop} (none : ∀ lexer, lexer.next? = none → motive lexer)
    (error : ∀ lexer e after, lexer.next? = some (.error e, after) → motive lexer)
    (ok : ∀ lexer t after, lexer.next? = some (.ok t, after) → motive after → motive lexer)
    (lexer : Lexer) : motive lexer := by
  generalize hn : lexer.rest.length = n
  induction n using Nat.strongRecOn generalizing lexer with
  | ind n ih =>
    cases h : lexer.next? with
    | none => exact none lexer h
    | some reading =>
      obtain ⟨item, after⟩ := reading
      cases item with
      | error e => exact error lexer e after h
      | ok t => exact ok lexer t after h (ih _ (hn ▸ length_rest_lt h) after rfl)

/-- **Written tokens are read back.** A scan finds readable tokens at the start of a text and
continues behind them, unless the last one is a number and the text extends it. -/
theorem scan_append {tokens : List Token} (h : Readable tokens) {rest : List Char}
    (hrest : ∀ t ∈ tokens.getLast?, t.isNumber → ∀ c ∈ rest.head?, ¬isNumeral c) (position : Nat) :
    scan ⟨position, (concat tokens).toList ++ rest⟩ =
      let behind := scan ⟨position + (concat tokens).length, rest⟩
      { behind with tokens := tokens ++ behind.tokens } := by
  induction tokens generalizing position with
  | nil => simp
  | cons t ts ih =>
    obtain ⟨ht, hhead, hts⟩ := readable_cons.1 h
    -- A number ends at the next token, or at the rest if it is the last one.
    have hnext : t.isNumber → ∀ c ∈ ((concat ts).toList ++ rest).head?, ¬isNumeral c := by
      intro hnum
      cases ts with
      | nil => exact hrest t rfl hnum
      | cons u us =>
        obtain ⟨c, htext, hc⟩ := exists_char_of_not_isNumber fun hu => hhead u rfl ⟨hnum, hu⟩
        rw [toList_concat_cons, htext]
        intro d hd
        cases hd
        exact not_isNumeral_of_ofChar? hc
    have hlast : ∀ u ∈ ts.getLast?, u.isNumber → ∀ c ∈ rest.head?, ¬isNumeral c := by
      intro u hu
      refine hrest u ?_
      rw [List.getLast?_cons, show ts.getLast? = some u from hu]
      rfl
    have hread := next?_text ht hnext position
    rw [toList_concat_cons, List.append_assoc, scan_of_ok hread, ih hts hlast, length_concat_cons,
      Nat.add_assoc]
    rfl

theorem scan_concat {tokens : List Token} (h : Readable tokens) :
    (ofString (concat tokens)).scan = ⟨tokens, none, ⟨(concat tokens).length, []⟩⟩ := by
  have hstop : ∀ t ∈ tokens.getLast?, t.isNumber → ∀ c ∈ ([] : List Char).head?, ¬isNumeral c := by
    simp
  have hscan := scan_append h hstop 0
  have hend : scan ⟨0 + (concat tokens).length, []⟩ =
      ⟨[], none, ⟨0 + (concat tokens).length, []⟩⟩ :=
    scan_of_none (next?_eq_none_iff.2 rfl)
  rw [List.append_nil, hend, Nat.zero_add] at hscan
  rw [ofString, hscan]
  simp

/-- **A scan covers the text.** Its tokens are readable, and the text is their concatenation and a
rest, which is empty exactly if there is no error. -/
theorem scan_spec (lexer : Lexer) :
    Readable lexer.scan.tokens ∧
      ∃ bad, lexer.rest = (concat lexer.scan.tokens).toList ++ bad ∧
        (lexer.scan.error? = none ↔ bad = []) := by
  induction lexer using scan_induction with
  | none lexer h =>
    rw [scan_of_none h]
    exact ⟨readable_nil, [], by simp [next?_eq_none_iff.1 h], by simp⟩
  | error lexer e after h =>
    rw [scan_of_error h]
    refine ⟨readable_nil, lexer.rest, by simp, ?_⟩
    have hne : lexer.rest ≠ [] := fun hnil => by simp [next?_eq_none_iff.2 hnil] at h
    simp [hne]
  | ok lexer t after h ih =>
    obtain ⟨hread, bad, hrest, hbad⟩ := ih
    rw [scan_of_ok h]
    obtain ⟨ht, htext, hsep⟩ := next?_ok_text h
    refine ⟨readable_cons.2 ⟨ht, ?_, hread⟩, bad, ?_, hbad⟩
    · intro u hu hnum
      obtain ⟨htnum, hunum⟩ := hnum
      obtain ⟨us, hus⟩ := List.head?_eq_some_iff.1 hu
      obtain ⟨c, cs, hcons, hc⟩ :=
        exists_numeral_of_isNumber (hread.writable u (by rw [hus]; exact List.mem_cons_self)) hunum
      -- The text of `u` would extend the number `t`.
      refine hsep htnum c ?_ hc
      rw [hrest, hus, toList_concat_cons, hcons]
      rfl
    · rw [htext, hrest, toList_concat_cons, List.append_assoc]

theorem eq_concat_of_scan {text : String} (h : (ofString text).scan.error? = none) :
    Readable (ofString text).scan.tokens ∧ text = concat (ofString text).scan.tokens := by
  obtain ⟨hread, bad, hrest, hbad⟩ := scan_spec (ofString text)
  rw [hbad.1 h, List.append_nil] at hrest
  exact ⟨hread, String.toList_inj.1 hrest⟩

/-- **The tokens of a text** are the readable ones with this concatenation. -/
theorem scan_result_eq_ok_iff {text : String} {tokens : List Token} :
    (ofString text).scan.result = .ok tokens ↔ Readable tokens ∧ text = concat tokens := by
  constructor
  · intro h
    cases herror : (ofString text).scan.error? with
    | some e =>
      rw [Scan.result_of_error herror] at h
      cases h
    | none =>
      rw [Scan.result_of_none herror] at h
      cases h
      exact eq_concat_of_scan herror
  · rintro ⟨hread, rfl⟩
    rw [scan_concat hread]
    rfl

end Lexer

end Calculator
