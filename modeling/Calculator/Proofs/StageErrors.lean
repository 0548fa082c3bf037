import Calculator.Proofs.Iteration
import Calculator.Proofs.Respacing

/-!
# Errors by stage

Each stage takes any input, and some of its errors are about inputs that the stage before it
excludes. A compact text has accepted characters only, so the stages behind it refuse none, and a
refused character is always reported at its position in the expression as given. A listing has
operators and literals only, and both types of operands read all literals, so the machine fails only
on the number of operands or on a zero divisor.

Main result: `errors_by_stage`.
-/

namespace Calculator

/-! ## Errors of the machine -/

/-- The errors of the machine on numbers and operators. -/
def machineErrors : List EvalError :=
  [.insufficientOperands, .tooManyOperands, .divisionByZero, .moduloByZero]

theorem mem_machineErrors_iff {e : EvalError} : e ∈ machineErrors ↔ ¬e.isTextual := by
  cases e <;> simp [machineErrors, EvalError.isTextual]

theorem failsOnlyWith_machineErrors {α : Type} [Operand α] [ReadsLiterals α] {text : String}
    {listing : List Token} (h : toPostorder text = .ok listing) :
    FailsOnlyWith (· ∈ machineErrors) (Postorder.value listing : Except EvalError α) :=
  (Postorder.failsOnlyWith_value (writable_of_toPostorder h)).mono fun _ => mem_machineErrors_iff.2

/-! ## The stages behind the compact text -/

/-- The errors that are left behind the compact text. No stage refuses a character, a listing has no
parentheses, and in both types of operands its value fails only with an error of the machine. -/
structure StageErrors (text : String) : Prop where
  lexer : ∃ items, (Lexer.ofString text).Yields items ∧
    ∀ c position, .error (.invalidCharacter c position) ∉ items
  conversion : FailsOnlyWith (·.kind ≠ .invalidCharacter) (toPostorder text)
  listing : ∀ listing, toPostorder text = .ok listing →
    (∀ t ∈ listing, ¬t.isParenthesis) ∧
      FailsOnlyWith (· ∈ machineErrors) (Postorder.value listing : Except EvalError Binary64) ∧
      FailsOnlyWith (· ∈ machineErrors) (Postorder.value listing : Except EvalError Rat)

theorem Lexer.Scan.error_not_mem_items {scan : Scan}
    (h : FailsOnlyWith (·.kind ≠ .invalidCharacter) scan.result) (c : Char) (position : Nat) :
    .error (.invalidCharacter c position) ∉ scan.items := by
  intro hmem
  rcases List.mem_append.1 hmem with htokens | herror
  · obtain ⟨t, -, ht⟩ := List.mem_map.1 htokens
    cases ht
  · obtain ⟨e, he, heq⟩ := Option.map_eq_some_iff.1 (Option.mem_toList.1 herror)
    cases heq
    exact h _ (result_of_error he) rfl

theorem stageErrors_of_compact {expression text : String} (h : compact expression = .ok text) :
    StageErrors text := by
  have haccepted := (compact_eq_ok_iff.1 h).2.2
  constructor
  case lexer =>
    refine ⟨_, Lexer.yields_iff.2 rfl, ?_⟩
    exact Lexer.Scan.error_not_mem_items ((failsStructurally_scan haccepted).mono fun _ he =>
      (EvalError.kind_ne_of_isStructural he).1)
  case conversion =>
    exact (failsStructurally_toPostorder haccepted).mono fun _ he =>
      (EvalError.kind_ne_of_isStructural he).1
  case listing =>
    intro listing hlisting
    refine ⟨?_, failsOnlyWith_machineErrors hlisting, failsOnlyWith_machineErrors hlisting⟩
    intro t ht
    exact (writable_of_toPostorder hlisting t ht).2

/-! ## The place of a refused character -/

/-- The refused character is the first one, at its position. -/
theorem compact_eq_invalidCharacter_iff {expression : String} {c : Char} {position : Nat} :
    compact expression = .error (.invalidCharacter c position) ↔
      ∃ rank, FirstRefused expression rank c position := by
  rw [compact_eq_match]
  constructor
  · intro h
    split at h
    · cases h
    · split at h
      · cases h
      · next hfind =>
        cases h
        exact exists_firstRefused_of_find? hfind
  · intro h
    obtain ⟨rank, hfirst⟩ := h
    obtain ⟨before, after, hsplit, -, -⟩ := hfirst.exists_withoutBlanks
    rw [if_neg (by simp [hsplit]), hfirst.find?_eq]

/-- The result refuses a character exactly if the length is within the limit and this is the first
refused character, at its position in the expression as given. -/
def Settings.RefusesFirst (settings : Settings) (expression : String) {α : Type}
    (result : Except EvalError α) : Prop :=
  ∀ c position, result = .error (.invalidCharacter c position) ↔
    settings.checkLength expression = .ok () ∧ ∃ rank, FirstRefused expression rank c position

namespace Settings

variable (settings : Settings) (expression : String)

theorem failsOnlyWith_checkLength :
    FailsOnlyWith (·.kind = .expressionTooLong) (settings.checkLength expression) := by
  unfold checkLength
  split
  · exact .ok _
  · split
    · exact .ok _
    · exact .error rfl

variable {settings expression}

theorem refusesFirst_of_stages {α : Type} {next : String → Except EvalError α}
    (hnext : ∀ text, compact expression = .ok text → FailsOnlyWith (·.isStructural) (next text)) :
    settings.RefusesFirst expression (do
      settings.checkLength expression
      let text ← compact expression
      next text) := by
  intro c position
  rw [← compact_eq_invalidCharacter_iff]
  constructor
  · intro h
    rcases bind_eq_error_iff.1 h with hlength | ⟨_, hlength, hstages⟩
    · cases settings.failsOnlyWith_checkLength expression _ hlength
    · rcases bind_eq_error_iff.1 hstages with hcompact | ⟨text, hcompact, hrest⟩
      · exact ⟨hlength, hcompact⟩
      · cases hnext text hcompact _ hrest
  · intro h
    obtain ⟨hlength, hcompact⟩ := h
    exact bind_eq_error_iff.2 (.inr ⟨(), hlength, bind_eq_error_iff.2 (.inl hcompact)⟩)

theorem refusesFirst_evaluateIn {α : Type} [Operand α] [ReadsLiterals α] :
    settings.RefusesFirst expression (settings.evaluateIn α expression).result := by
  rw [result_evaluateIn]
  exact refusesFirst_of_stages fun _ h => failsStructurally_of_compact h

theorem refusesFirst_evaluateDetailed :
    settings.RefusesFirst expression (settings.evaluateDetailed expression).result := by
  rw [result_evaluateDetailed]
  exact refusesFirst_of_stages fun _ => failsStructurally_of_compact_detailed

end Settings

/-- **Errors by stage.** Behind the compact text no character is refused, and behind the listing the
only errors are about the number of operands and a zero divisor. So a refused character is the first
one of the expression as given, at its position there. -/
theorem errors_by_stage (settings : Settings) (expression : String) :
    (∀ text, compact expression = .ok text → StageErrors text) ∧
      settings.RefusesFirst expression (settings.evaluate expression).result ∧
      settings.RefusesFirst expression (settings.evaluateExact expression).result ∧
      settings.RefusesFirst expression (settings.evaluateDetailed expression).result :=
  ⟨fun _ => stageErrors_of_compact, Settings.refusesFirst_evaluateIn,
    Settings.refusesFirst_evaluateIn, Settings.refusesFirst_evaluateDetailed⟩

/-- A zero divisor in a listing, and a character refused behind blanks. -/
theorem errors_by_stage_refused :
    compact "5 % (2 - 2)" = .ok "5%(2-2)" ∧
      (∃ listing, toPostorder "5%(2-2)" = .ok listing ∧
        (Postorder.value listing : Except EvalError Rat) = .error .moduloByZero ∧
        .moduloByZero ∈ machineErrors) ∧
      (({} : Settings).evaluate " 1 + é").result = .error (.invalidCharacter 'é' 5) ∧
      ∃ rank, FirstRefused " 1 + é" rank 'é' 5 := by
  have hcompact : compact "5 % (2 - 2)" = .ok "5%(2-2)" := by decide +kernel
  have hlisting : toPostorder "5%(2-2)" =
      .ok [.num "5", .num "2", .num "2", .op .minus, .op .modulo] := by decide +kernel
  have hvalue : (Postorder.value [.num "5", .num "2", .num "2", .op .minus, .op .modulo] :
      Except EvalError Rat) = .error .moduloByZero := by decide +kernel
  have hrefused : (({} : Settings).evaluate " 1 + é").result =
      .error (.invalidCharacter 'é' 5) := by decide +kernel
  obtain ⟨hstages, -, -, -⟩ := errors_by_stage {} "5 % (2 - 2)"
  obtain ⟨-, hplain, -, -⟩ := errors_by_stage {} " 1 + é"
  refine ⟨hcompact, ⟨_, hlisting, hvalue, ?_⟩, hrefused, ((hplain _ _).1 hrefused).2⟩
  exact ((hstages _ hcompact).listing _ hlisting).2.2 _ hvalue

/-- None of the errors of the machine can be left out. -/
example :
    [" + 1", "(1) 2", "1 / 0", "1 % 0"].map (fun s => (({} : Settings).evaluate s).result) =
      machineErrors.map .error := by
  decide +kernel

end Calculator
