import Calculator.Evaluator
import Calculator.Proofs.Run

/-!
# The stages of a call

The result of a call is that of its stages in sequence; the journal has no effect on it.
-/

namespace Calculator

theorem Call.result_lift_bind {α β : Type} (stage : Except EvalError α) (next : α → Call β) :
    ((liftM stage : Call α) >>= next).result = stage >>= fun value => (next value).result :=
  Call.result_bind _ _

theorem Call.result_send_bind {β : Type} (record : Record) (next : Unit → Call β) :
    (Call.send record >>= next).result = (next ()).result :=
  Call.result_bind _ _

namespace Settings

/-- The plain and the exact call: length, compact text, listing, value. -/
theorem result_evaluateIn (α : Type) [Operand α] (settings : Settings) (expression : String) :
    (settings.evaluateIn α expression).result = (do
      settings.checkLength expression
      let text ← compact expression
      let listing ← toPostorder text
      Postorder.value listing) := by
  unfold evaluateIn
  simp only [Call.result_reporting, Call.result_lift_bind, Call.result_send_bind]
  rfl

/-- The stages before the last, which return the listing. -/
def listing (settings : Settings) (expression : String) : Except EvalError (List Token) := do
  settings.checkLength expression
  let text ← compact expression
  toPostorder text

theorem result_evaluateIn_eq_bind (α : Type) [Operand α] (settings : Settings)
    (expression : String) :
    (settings.evaluateIn α expression).result =
      settings.listing expression >>= Postorder.value := by
  rw [result_evaluateIn, listing]
  cases settings.checkLength expression with
  | error e => rfl
  | ok _ => cases compact expression <;> rfl

/-- A call has a value exactly if every stage succeeds. -/
theorem result_evaluateIn_eq_ok_iff_stages {α : Type} [Operand α] {settings : Settings}
    {expression : String} {v : α} :
    (settings.evaluateIn α expression).result = .ok v ↔
      settings.checkLength expression = .ok () ∧ ∃ text, compact expression = .ok text ∧
        ∃ listing, toPostorder text = .ok listing ∧ Postorder.value listing = .ok v := by
  rw [result_evaluateIn]
  simp only [bind_eq_ok_iff]
  exact ⟨fun ⟨(), hlength, h⟩ => ⟨hlength, h⟩, fun ⟨hlength, h⟩ => ⟨(), hlength, h⟩⟩

/-- The detailed call reads all tokens before it converts them. -/
theorem result_evaluateDetailed (settings : Settings) (expression : String) :
    (settings.evaluateDetailed expression).result = (do
      settings.checkLength expression
      let text ← compact expression
      let tokens ← (Lexer.ofString text).scan.result
      let listing ← toPostorder text
      let value ← Postorder.value listing
      return (value, ⟨text, Token.listing tokens, Token.listing listing⟩)) := by
  unfold evaluateDetailed
  simp only [Call.result_reporting, Call.result_lift_bind]
  rfl

theorem checkLength_of_none {settings : Settings} (h : settings.maxLength = none)
    (expression : String) : settings.checkLength expression = .ok () := by
  rw [checkLength, h]

end Settings

end Calculator
