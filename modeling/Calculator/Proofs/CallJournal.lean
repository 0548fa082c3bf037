import Calculator.Proofs.LastWrites

/-!
# The journal of a call

A call sends at most two records: that its text was converted, and that it was rejected. They are
sent at different points, and every exit of a call lies before the first, between them or after
both. So the journal is determined by where the call stopped: it has the first record if the
conversion succeeded, the second if there is no value, and no others.

The plain and the exact call are one call in two types of operands, which are first used after the
conversion. The detailed call sends no record of its conversion, and the call for a reading has the
journal of the exact call.

Main results: `Settings.journal_call_eq`, the records of a call, and `journal_call`, its lines.
-/

namespace Calculator

/-! ## Records of a call -/

namespace Call

variable {α β : Type}

/-- The record of a rejection, if the result is an error. -/
def rejection? (expression : String) : Except EvalError α → Option Record
  | .ok _ => none
  | .error e => some (.rejected expression e)

theorem rejection?_map (expression : String) (result : Except EvalError α) (f : α → β) :
    rejection? expression (result.map f) = rejection? expression result := by
  cases result <;> rfl

theorem journal_reporting_eq (expression : String) (call : Call α) :
    (call.reporting expression).journal =
      call.journal ++ (rejection? expression (call.reporting expression).result).toList := by
  rw [journal_reporting, result_reporting]
  cases call.result <;> rfl

/-- A stage sends nothing, and the rest of the call runs only if the stage succeeds. -/
theorem journal_lift_bind (stage : Except EvalError α) (next : α → Call β) :
    ((liftM stage : Call α) >>= next).journal =
      match stage with
      | .ok value => (next value).journal
      | .error _ => [] :=
  journal_bind _ _

theorem journal_lift_bind_eq_nil (stage : Except EvalError α) {next : α → Call β}
    (h : ∀ value, (next value).journal = []) :
    ((liftM stage : Call α) >>= next).journal = [] := by
  rw [journal_lift_bind]
  cases stage with
  | error e => rfl
  | ok value => exact h value

theorem journal_send_bind (record : Record) (next : Unit → Call β) :
    (send record >>= next).journal = record :: (next ()).journal :=
  journal_bind _ _

theorem journal_lift (stage : Except EvalError α) : (liftM stage : Call α).journal = [] := rfl

end Call

/-! ## Where a call stopped -/

namespace Settings

/-- The record of the conversion, if it succeeds. -/
def conversion? (settings : Settings) (expression : String) : Option Record :=
  match settings.checkLength expression, compact expression with
  | .ok _, .ok text => (toPostorder text).toOption.map (.converted text)
  | _, _ => none

theorem conversion?_eq_some_iff {settings : Settings} {expression : String} {record : Record} :
    settings.conversion? expression = some record ↔
      ∃ text listing, settings.checkLength expression = .ok () ∧ compact expression = .ok text ∧
        toPostorder text = .ok listing ∧ record = .converted text listing := by
  unfold conversion?
  cases settings.checkLength expression with
  | error e => simp
  | ok _ =>
    cases compact expression with
    | error e => simp
    | ok text => cases h : toPostorder text <;> simp [Except.toOption, h, eq_comm]

variable (settings : Settings) (expression : String)

/-- **The plain and the exact call** send a record of the conversion, then one of the rejection. -/
theorem journal_evaluateIn (α : Type) [Operand α] :
    (settings.evaluateIn α expression).journal =
      (settings.conversion? expression).toList ++
        (Call.rejection? expression (settings.evaluateIn α expression).result).toList := by
  unfold evaluateIn
  rw [Call.journal_reporting_eq]
  congr 1
  simp only [Call.journal_lift_bind, Call.journal_send_bind, Call.journal_lift, conversion?]
  cases settings.checkLength expression with
  | error e => rfl
  | ok _ =>
    cases compact expression with
    | error e => rfl
    | ok text =>
      dsimp only
      cases toPostorder text <;> rfl

/-- **The detailed call** sends a record of the rejection only. -/
theorem journal_evaluateDetailed :
    (settings.evaluateDetailed expression).journal =
      (Call.rejection? expression (settings.evaluateDetailed expression).result).toList := by
  have hstages : ((do
      settings.checkLength expression
      let text ← compact expression
      let tokens ← (Lexer.ofString text).scan.result
      let listing ← toPostorder text
      let value ← Postorder.value listing
      return (value, ⟨text, Token.listing tokens, Token.listing listing⟩) :
        Call (Binary64 × Workings))).journal = [] := by
    refine Call.journal_lift_bind_eq_nil _ fun _ => ?_
    refine Call.journal_lift_bind_eq_nil _ fun text => ?_
    refine Call.journal_lift_bind_eq_nil _ fun tokens => ?_
    refine Call.journal_lift_bind_eq_nil _ fun listing => ?_
    exact Call.journal_lift_bind_eq_nil _ fun value => rfl
  unfold evaluateDetailed
  rw [Call.journal_reporting_eq, hstages, List.nil_append]

theorem journal_call_reading :
    (settings.call expression .reading).journal = (settings.call expression .exact).journal := by
  rw [call_reading, call, Call.journal_map, Call.journal_map]

/-- The record of the conversion at an entry point; the detailed call has none. -/
def conversionAt? (entry : Entry) : Option Record :=
  if entry = .detailed then none else settings.conversion? expression

/-- **The records of a call**: its conversion, then its rejection. -/
theorem journal_call_eq (entry : Entry) :
    (settings.call expression entry).journal =
      (settings.conversionAt? expression entry).toList ++
        (Call.rejection? expression (settings.call expression entry).result).toList := by
  have hexact : (settings.call expression .exact).journal =
      (settings.conversion? expression).toList ++
        (Call.rejection? expression (settings.evaluateExact expression).result).toList := by
    rw [call, Call.journal_map]
    exact settings.journal_evaluateIn expression Rat
  cases entry with
  | plain =>
    rw [call, Call.journal_map, Call.result_map, Call.rejection?_map]
    exact settings.journal_evaluateIn expression Binary64
  | exact =>
    rw [hexact, call, Call.result_map, Call.rejection?_map]
    rfl
  | detailed =>
    rw [call, Call.journal_map, Call.result_map, Call.rejection?_map]
    exact settings.journal_evaluateDetailed expression
  | reading =>
    rw [journal_call_reading, hexact, result_call_reading, Call.rejection?_map]
    rfl

end Settings

/-! ## Lines of a journal -/

/-- The line of a record, with its level. -/
def Record.line (record : Record) : Severity × String :=
  (record.severity, record.message)

/-- The lines of the journal of a call, oldest first. -/
def Call.log {α : Type} (call : Call α) : List (Severity × String) :=
  call.journal.map Record.line

namespace Settings

/-- The line about the conversion. A call other than the detailed one sends it if the length is
within the limit and the expression has a compact text with a listing. -/
structure SendsConversion (settings : Settings) (expression : String) (entry : Entry)
    (line : String) : Prop where
  entry_ne : entry ≠ .detailed
  exists_listing : ∃ text listing, settings.checkLength expression = .ok () ∧
    compact expression = .ok text ∧ toPostorder text = .ok listing ∧
    line = "rpn(" ++ text ++ ") = " ++ Token.listing listing

/-- The line about the rejection, sent if there is an error. -/
def SendsRejection (settings : Settings) (expression : String) (entry : Entry) (line : String) :
    Prop :=
  ∃ e, (settings.call expression entry).result = .error e ∧
    line = "rejet " ++ quoted expression ++ ": " ++ e.message

variable {settings : Settings} {expression : String} {entry : Entry} {line : String}

theorem message_conversionAt?_eq_some_iff :
    (settings.conversionAt? expression entry).map Record.message = some line ↔
      settings.SendsConversion expression entry line := by
  rw [Option.map_eq_some_iff]
  constructor
  · intro h
    obtain ⟨record, hrecord, rfl⟩ := h
    unfold conversionAt? at hrecord
    split at hrecord
    · cases hrecord
    · next hentry =>
      obtain ⟨text, listing, hlength, hcompact, hlisting, rfl⟩ :=
        conversion?_eq_some_iff.1 hrecord
      exact ⟨hentry, text, listing, hlength, hcompact, hlisting, rfl⟩
  · intro h
    obtain ⟨hentry, text, listing, hlength, hcompact, hlisting, rfl⟩ := h
    refine ⟨.converted text listing, ?_, rfl⟩
    rw [conversionAt?, if_neg hentry]
    exact conversion?_eq_some_iff.2 ⟨text, listing, hlength, hcompact, hlisting, rfl⟩

theorem message_rejection?_eq_some_iff :
    (Call.rejection? expression (settings.call expression entry).result).map Record.message =
      some line ↔ settings.SendsRejection expression entry line := by
  unfold SendsRejection
  cases (settings.call expression entry).result with
  | ok answer => simp [Call.rejection?]
  | error e =>
    constructor
    · intro h
      cases h
      exact ⟨e, rfl, rfl⟩
    · rintro ⟨_, ⟨⟩, rfl⟩
      rfl

theorem log_call_eq (settings : Settings) (expression : String) (entry : Entry) :
    (settings.call expression entry).log =
      ((settings.conversionAt? expression entry).map Record.message).toList.map (.trace, ·) ++
        ((Call.rejection? expression (settings.call expression entry).result).map
          Record.message).toList.map (.debug, ·) := by
  have hconversion : (settings.conversionAt? expression entry).toList.map Record.line =
      ((settings.conversionAt? expression entry).map Record.message).toList.map (.trace, ·) := by
    cases hrecord : settings.conversionAt? expression entry with
    | none => rfl
    | some record =>
      unfold conversionAt? at hrecord
      split at hrecord
      · cases hrecord
      · obtain ⟨text, listing, -, -, -, rfl⟩ := conversion?_eq_some_iff.1 hrecord
        rfl
  rw [Call.log, journal_call_eq, List.map_append, hconversion]
  congr 1
  cases (settings.call expression entry).result <;> rfl

/-- The lines of a call are the one about its conversion, then the one about its rejection, and no
others. -/
structure JournalTells (settings : Settings) (expression : String) (entry : Entry) : Prop where
  log_eq : ∃ converted? rejected? : Option String,
    (settings.call expression entry).log =
      converted?.toList.map (.trace, ·) ++ rejected?.toList.map (.debug, ·) ∧
    (∀ line, converted? = some line ↔ settings.SendsConversion expression entry line) ∧
    ∀ line, rejected? = some line ↔ settings.SendsRejection expression entry line
  of_ok : ∀ answer, (settings.call expression entry).result = .ok answer →
    ∀ line ∈ (settings.call expression entry).log, line.1 ≠ .debug
  of_error : ∀ e, (settings.call expression entry).result = .error e → ∃ before,
    (settings.call expression entry).log =
      before ++ [(.debug, "rejet " ++ quoted expression ++ ": " ++ e.message)] ∧
    ∀ line ∈ before, line.1 ≠ .debug

theorem journalTells (settings : Settings) (expression : String) (entry : Entry) :
    settings.JournalTells expression entry := by
  have hlog := settings.log_call_eq expression entry
  constructor
  case log_eq =>
    exact ⟨_, _, hlog, fun _ => message_conversionAt?_eq_some_iff,
      fun _ => message_rejection?_eq_some_iff⟩
  case of_ok =>
    intro answer hresult
    rw [hlog, hresult]
    simp [Call.rejection?]
  case of_error =>
    intro e hresult
    rw [hlog, hresult]
    exact ⟨_, rfl, by simp⟩

end Settings

/-- **The journal of a call is determined by where it stopped.** It has one line about the
conversion if the conversion succeeded and the call is not the detailed one, then one line about the
rejection if there is an error, and no others. The plain and the exact call have the same line about
the conversion, and the call for a reading has the journal of the exact call. -/
theorem journal_call (settings : Settings) (expression : String) :
    (∀ entry, settings.JournalTells expression entry) ∧
      (settings.call expression .plain).log.filter (·.1 = .trace) =
        (settings.call expression .exact).log.filter (·.1 = .trace) ∧
      (settings.call expression .reading).log = (settings.call expression .exact).log := by
  have hdebug (lines : List String) :
      (lines.map fun line => (Severity.debug, line)).filter (·.1 = .trace) = [] := by
    simp
  refine ⟨settings.journalTells expression, ?_, ?_⟩
  · rw [settings.log_call_eq, settings.log_call_eq, List.filter_append, List.filter_append, hdebug,
      hdebug]
    rfl
  · rw [Call.log, settings.journal_call_reading expression, Call.log]

/-- A call that fails behind its conversion, and one that fails before it. -/
example :
    (({} : Settings).call "1 / 0" .exact).log =
        [(.trace, "rpn(1/0) = 1 0 /"), (.debug, "rejet \"1 / 0\": division par zéro")] ∧
      (({} : Settings).call "(1" .reading).log =
        [(.debug, "rejet \"(1\": parenthèses non appariées")] := by
  decide +kernel

end Calculator
