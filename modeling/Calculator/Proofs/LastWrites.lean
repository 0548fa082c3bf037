import Calculator.Proofs.Stages
import Calculator.Session
import Mathlib.Data.List.Induction

/-!
# A session shows the last writes

The settings of a session are the last choices since the last reset, clamped to their ranges, or the
defaults. Only the steps that write a setting have an effect: the two settings are independent, and
a call changes neither.

A call depends on the settings only through the limit, and the text of a reading also on the number
of places. So a session has no state but the last writes: a call answers as it would under fresh
settings with the same values.

Main results: `read_foldl_apply`, the value of a setting at any time, `Settings.call_reading` and
`Settings.call_induction`, the kinds of calls, and `exists_session_getElem?`, what a session shows
after each of its steps.
-/

namespace Calculator

/-! ## Last writes -/

namespace Step

/-- The limit that a step chooses, if any. -/
def maxLength? : Step → Option Nat
  | setMaxLength length => some length
  | _ => none

/-- The number of places that a step chooses, if any. -/
def digits? : Step → Option Nat
  | setDigits digits => some digits
  | _ => none

/-- The steps after the last reset, newest first. -/
def sinceReset (steps : List Step) : List Step :=
  steps.reverse.takeWhile (· ≠ reset)

/-- The last choice since the last reset, if any. -/
def lastWrite? (choice? : Step → Option Nat) (steps : List Step) : Option Nat :=
  (sinceReset steps).findSome? choice?

theorem lastWrite?_append_singleton (choice? : Step → Option Nat) (steps : List Step)
    (step : Step) :
    lastWrite? choice? (steps ++ [step]) =
      if step = reset then none else (choice? step).or (lastWrite? choice? steps) := by
  by_cases hreset : step = reset
  · simp [lastWrite?, sinceReset, hreset]
  · cases hchoice : choice? step <;> simp [lastWrite?, sinceReset, hreset, hchoice]

/-- **A setting is its last write**, if each step resets it, writes it or leaves it unchanged. -/
theorem read_foldl_apply {β : Type} (read : Settings → β) (choice? : Step → Option Nat)
    (write : Nat → β)
    (hstep : ∀ settings step, read (apply settings step) =
      if step = reset then read {} else ((choice? step).map write).getD (read settings))
    (steps : List Step) :
    read (steps.foldl apply {}) = ((lastWrite? choice? steps).map write).getD (read {}) := by
  induction steps using List.reverseRecOn with
  | nil => rfl
  | append_singleton steps step ih =>
    rw [List.foldl_append, List.foldl_cons, List.foldl_nil, hstep, lastWrite?_append_singleton]
    by_cases hreset : step = reset
    · rw [if_pos hreset, if_pos hreset]
      rfl
    · rw [if_neg hreset, if_neg hreset, ih]
      cases choice? step <;> rfl

theorem maxLength_foldl_apply (steps : List Step) :
    (steps.foldl apply {}).maxLength =
      (lastWrite? maxLength? steps).map fun n => min (max n 1) 1048576 := by
  rw [read_foldl_apply Settings.maxLength maxLength? fun n => some (min (max n 1) 1048576)]
  · cases lastWrite? maxLength? steps <;> rfl
  · intro settings step
    cases step <;> rfl

theorem digits_foldl_apply (steps : List Step) :
    (steps.foldl apply {}).digits =
      ((lastWrite? digits? steps).map fun n => min n 200).getD 20 := by
  refine read_foldl_apply Settings.digits digits? (fun n => min n 200) ?_ steps
  intro settings step
  cases step <;> rfl

end Step

theorem sessionFrom_getElem? (settings : Settings) (before : List Step) (step : Step)
    (after : List Step) :
    (sessionFrom settings (before ++ step :: after))[before.length]? =
      some ⟨step.answer? (before.foldl Step.apply settings),
        step.apply (before.foldl Step.apply settings)⟩ := by
  induction before generalizing settings with
  | nil => rfl
  | cons first before ih => exact ih (first.apply settings)

/-! ## Calls and their settings -/

theorem Call.map_eq {α β : Type} (f : α → β) (call : Call α) :
    f <$> call = ⟨call.result.map f, call.journal⟩ := by
  obtain ⟨result, journal⟩ := call
  cases result with
  | error e => rfl
  | ok value =>
    show Call.mk (.ok (f value)) (journal ++ []) = _
    rw [List.append_nil]
    rfl

theorem Call.result_map {α β : Type} (f : α → β) (call : Call α) :
    (f <$> call).result = call.result.map f := by
  rw [map_eq]

theorem Call.journal_map {α β : Type} (f : α → β) (call : Call α) :
    (f <$> call).journal = call.journal := by
  rw [map_eq]

namespace Settings

variable {settings other : Settings} {expression : String}

theorem checkLength_congr (h : settings.maxLength = other.maxLength) :
    settings.checkLength expression = other.checkLength expression := by
  rw [checkLength, checkLength, h]

theorem evaluateIn_congr {α : Type} [Operand α]
    (h : settings.checkLength expression = other.checkLength expression) :
    settings.evaluateIn α expression = other.evaluateIn α expression := by
  rw [evaluateIn, evaluateIn, h]

theorem evaluateDetailed_congr
    (h : settings.checkLength expression = other.checkLength expression) :
    settings.evaluateDetailed expression = other.evaluateDetailed expression := by
  rw [evaluateDetailed, evaluateDetailed, h]

/-- **A call depends only on the check of its length**, and a reading also on the digits. -/
theorem call_congr {entry : Entry}
    (hlength : settings.checkLength expression = other.checkLength expression)
    (hdigits : entry = .reading → settings.digits = other.digits) :
    settings.call expression entry = other.call expression entry := by
  cases entry with
  | plain => rw [call, call, evaluate, evaluate, evaluateIn_congr hlength]
  | exact => rw [call, call, evaluateExact, evaluateExact, evaluateIn_congr hlength]
  | detailed => rw [call, call, evaluateDetailed_congr hlength]
  | reading =>
    rw [call, call, evaluateReading, evaluateReading, evaluateExact, evaluateExact,
      evaluateIn_congr hlength, hdigits rfl]

/-- **A reading is the exact call** with its value read. -/
theorem call_reading :
    settings.call expression .reading =
      (fun r => .reading r (Exact.reading r settings.digits)) <$>
        settings.evaluateExact expression := by
  have hreading : settings.evaluateReading expression =
      (fun r => (r, Exact.reading r settings.digits)) <$> settings.evaluateExact expression := rfl
  rw [call, hreading, Call.map_eq, Call.map_eq, Call.map_eq]
  cases (settings.evaluateExact expression).result <;> rfl

theorem result_call_reading :
    (settings.call expression .reading).result =
      (settings.evaluateExact expression).result.map fun r =>
        .reading r (Exact.reading r settings.digits) := by
  rw [call_reading, Call.result_map]

/-- **All calls are of three kinds**, up to a map of their answers. -/
theorem call_induction {motive : Call Answer → Prop}
    (plain : ∀ f, motive (f <$> settings.evaluateIn Binary64 expression))
    (exact : ∀ f, motive (f <$> settings.evaluateIn Rat expression))
    (detailed : ∀ f, motive (f <$> settings.evaluateDetailed expression)) (entry : Entry) :
    motive (settings.call expression entry) := by
  cases entry with
  | plain => exact plain _
  | exact => exact exact _
  | detailed => exact detailed _
  | reading =>
    rw [call_reading]
    exact exact _

end Settings

/-! ## Sessions -/

/-- What a session shows after a step behind others: the last writes, and the answer of the same
call under any settings with these values. Only a reading depends on the places, and apart from them
it is the exact call. -/
structure SessionState.Follows (state : SessionState) (before : List Step) (step : Step) :
    Prop where
  maxLength_eq : state.settings.maxLength =
    (Step.lastWrite? Step.maxLength? (before ++ [step])).map fun n => min (max n 1) 1048576
  digits_eq : state.settings.digits =
    ((Step.lastWrite? Step.digits? (before ++ [step])).map fun n => min n 200).getD 20
  answer_eq : ∀ entry expression, step = .call entry expression → ∀ fresh : Settings,
    fresh.maxLength = state.settings.maxLength →
    (entry = .reading → fresh.digits = state.settings.digits) →
    state.answer? = some (fresh.call expression entry).result
  reading_eq : ∀ expression, step = .call .reading expression → ∀ fresh : Settings,
    fresh.maxLength = state.settings.maxLength →
    state.answer? = some ((fresh.evaluateExact expression).result.map fun r =>
      .reading r (Exact.reading r state.settings.digits))

/-- **A session shows the last writes.** After each step the settings are the last choices since the
last reset, clamped to their ranges, and the answer of a call is that of fresh settings with these
values. Choices of different settings commute, and a choice overrides an earlier one of the same
setting. -/
theorem exists_session_getElem? (before : List Step) (step : Step) (after : List Step) :
    (∃ state, (session (before ++ step :: after))[before.length]? = some state ∧
      state.Follows before step) ∧
    ∀ (settings : Settings) (m n : Nat),
      (settings.withMaxLength m).withDigits n = (settings.withDigits n).withMaxLength m ∧
      (settings.withMaxLength m).withMaxLength n = settings.withMaxLength n ∧
      (settings.withDigits m).withDigits n = settings.withDigits n := by
  refine ⟨⟨_, sessionFrom_getElem? {} before step after, ?_⟩, fun _ _ _ => ⟨rfl, rfl, rfl⟩⟩
  have hsettings : step.apply (before.foldl Step.apply {}) =
      (before ++ [step]).foldl Step.apply {} := by
    rw [List.foldl_append, List.foldl_cons, List.foldl_nil]
  constructor
  case maxLength_eq =>
    rw [hsettings]
    exact Step.maxLength_foldl_apply _
  case digits_eq =>
    rw [hsettings]
    exact Step.digits_foldl_apply _
  case answer_eq =>
    rintro entry expression rfl fresh hlimit hdigits
    exact congrArg (fun call => some call.result)
      (Settings.call_congr (Settings.checkLength_congr hlimit) hdigits).symm
  case reading_eq =>
    rintro expression rfl fresh hlimit
    rw [Settings.evaluateExact,
      Settings.evaluateIn_congr (Settings.checkLength_congr hlimit)]
    exact congrArg some Settings.result_call_reading

/-- The reset drops the choice before it, and the later limit overrides the earlier one. -/
theorem session_reading_of_last_writes :
    ∃ state, (session ([.setDigits 999, .reset, .setMaxLength 0, .call .plain "1+1", .setDigits 3,
        .setMaxLength 5] ++ [.call .reading "10/3"]))[6]? = some state ∧
      state.settings.maxLength = some 5 ∧ state.settings.digits = 3 ∧
      state.answer? = some (.ok (.reading (mkRat 10 3) "3.333")) := by
  obtain ⟨⟨state, hstate, hfollows⟩, -⟩ := exists_session_getElem? [.setDigits 999, .reset,
    .setMaxLength 0, .call .plain "1+1", .setDigits 3, .setMaxLength 5] (.call .reading "10/3") []
  have hlimit : state.settings.maxLength = some 5 := hfollows.maxLength_eq
  have hdigits : state.settings.digits = 3 := hfollows.digits_eq
  refine ⟨state, hstate, hlimit, hdigits, ?_⟩
  have hanswer := hfollows.reading_eq "10/3" rfl (({} : Settings).withMaxLength 5) hlimit.symm
  rw [hanswer, hdigits]
  decide +kernel

end Calculator
