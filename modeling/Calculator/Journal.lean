import Calculator.Error
import Calculator.Text.Quoted
import Calculator.Token.Basic

/-!
# Calls and their journal

A call of the calculator has a result and sends records to a journal: the conversion of an
expression, and the reason of its rejection. `Call` is a result together with the records sent
before it. A sequence of two calls has the records of both in order (`Call.journal_bind`), and stops
where the first fails (`Call.result_bind`).
-/

namespace Calculator

/-- The level of a record. -/
inductive Severity where
  | trace
  | debug
  deriving DecidableEq

/-- A record of the journal. -/
inductive Record where
  /-- A compact text was converted to a postorder listing. -/
  | converted (text : String) (listing : List Token)
  /-- An expression has no value. -/
  | rejected (expression : String) (error : EvalError)
  deriving DecidableEq

namespace Record

/-- Conversions have the trace level, rejections the debug level. -/
def severity : Record → Severity
  | converted .. => .trace
  | rejected .. => .debug

/-- The line of a record, in French. -/
def message : Record → String
  | converted text listing => s!"rpn({text}) = {Token.listing listing}"
  | rejected expression error => s!"rejet {quoted expression}: {error.message}"

end Record

/-- A result with the records sent before it, oldest first. -/
structure Call (α : Type) where
  result : Except EvalError α
  journal : List Record

namespace Call

variable {α β : Type}

/-- A call that sends nothing. -/
def ofExcept (result : Except EvalError α) : Call α :=
  ⟨result, []⟩

/-- Sends one record. -/
def send (record : Record) : Call Unit :=
  ⟨.ok (), [record]⟩

/-- The sequence of two calls; the second one runs if the first has a result. -/
def andThen (call : Call α) (next : α → Call β) : Call β :=
  match call.result with
  | .ok value => ⟨(next value).result, call.journal ++ (next value).journal⟩
  | .error e => ⟨.error e, call.journal⟩

instance : Monad Call where
  pure value := ofExcept (.ok value)
  bind := andThen

instance : MonadLift (Except EvalError) Call where
  monadLift := ofExcept

/-- A call that sends one record more if it fails. -/
def reporting (expression : String) (call : Call α) : Call α :=
  match call.result with
  | .ok _ => call
  | .error e => { call with journal := call.journal ++ [.rejected expression e] }

theorem result_bind (call : Call α) (next : α → Call β) :
    (call >>= next).result = call.result >>= fun value => (next value).result := by
  change (andThen call next).result = _
  unfold andThen
  split <;> simp_all [bind, Except.bind]

theorem journal_bind (call : Call α) (next : α → Call β) :
    (call >>= next).journal =
      call.journal ++ (match call.result with
        | .ok value => (next value).journal
        | .error _ => []) := by
  change (andThen call next).journal = _
  unfold andThen
  split <;> simp_all

@[simp] theorem result_reporting (expression : String) (call : Call α) :
    (call.reporting expression).result = call.result := by
  unfold reporting
  split <;> simp_all

theorem journal_reporting (expression : String) (call : Call α) :
    (call.reporting expression).journal =
      call.journal ++ (match call.result with
        | .ok _ => []
        | .error e => [.rejected expression e]) := by
  unfold reporting
  split <;> simp_all

end Call

end Calculator
