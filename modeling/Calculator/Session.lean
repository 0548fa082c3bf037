import Calculator.Evaluator

/-!
# Sessions

A session starts from the default settings, changes them and calls the calculator. After each step
it shows the answer, if the step was a call, and the settings. A call does not change the settings
(`Step.apply_call`).
-/

namespace Calculator

/-- The entry points of the calculator. -/
inductive Entry where
  /-- The value in binary64. -/
  | plain
  /-- The exact value. -/
  | exact
  /-- The value in binary64 and the workings. -/
  | detailed
  /-- The exact value and its decimal reading. -/
  | reading
  deriving DecidableEq

/-- The answer of a call. -/
inductive Answer where
  | plain (value : Binary64)
  | exact (value : Rat)
  | detailed (value : Binary64) (workings : Workings)
  | reading (value : Rat) (text : String)
  deriving DecidableEq

/-- Calls the calculator at one of its entry points. -/
def Settings.call (settings : Settings) (expression : String) : Entry → Call Answer
  | .plain => .plain <$> settings.evaluate expression
  | .exact => .exact <$> settings.evaluateExact expression
  | .detailed => (fun (value, workings) => .detailed value workings) <$>
      settings.evaluateDetailed expression
  | .reading => (fun (value, text) => .reading value text) <$>
      settings.evaluateReading expression

/-- A step of a session. -/
inductive Step where
  | reset
  | setMaxLength (length : Nat)
  | setDigits (digits : Nat)
  | call (entry : Entry) (expression : String)
  deriving DecidableEq

namespace Step

/-- The settings after a step. -/
def apply (settings : Settings) : Step → Settings
  | reset => {}
  | setMaxLength length => settings.withMaxLength length
  | setDigits digits => settings.withDigits digits
  | call _ _ => settings

/-- The answer of a step under the settings before it; only a call has one. -/
def answer? (settings : Settings) : Step → Option (Except EvalError Answer)
  | call entry expression => some (settings.call expression entry).result
  | _ => none

@[simp] theorem apply_call (settings : Settings) (entry : Entry) (expression : String) :
    (call entry expression).apply settings = settings := rfl

end Step

/-- What a session shows after a step. -/
structure SessionState where
  answer? : Option (Except EvalError Answer)
  settings : Settings

/-- The session that starts with the given settings. -/
def sessionFrom (settings : Settings) : List Step → List SessionState
  | [] => []
  | step :: steps =>
    let after := step.apply settings
    ⟨step.answer? settings, after⟩ :: sessionFrom after steps

/-- A session from the default settings. -/
def session (steps : List Step) : List SessionState :=
  sessionFrom {} steps

end Calculator
