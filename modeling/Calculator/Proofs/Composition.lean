import Calculator.Proofs.Grouping
import Calculator.Proofs.ListingValue

/-!
# Evaluation is compositional

An accepted expression can be put in parentheses and used as an operand: the value of the whole is
that of the operator on the values of its parts. The parts need not be derived by the grammar. The
proof uses their listings, of which the listing of an operation is composed, and the trees of these
listings.

Main result: `evaluate_operation`.
-/

namespace Calculator

/-! ## Outcomes -/

/-- The result of an operation: the value its operator computes, or the error of a zero divisor. -/
structure Operator.Outcome {α : Type} [Operand α] (o : Operator) (a b : α)
    (result : Except EvalError α) : Prop where
  value : (o.divides → ¬Operand.isZero b) → result = .ok (o.operation a b)
  division : o = .divide → Operand.isZero b → result = .error .divisionByZero
  remainder : o = .modulo → Operand.isZero b → result = .error .moduloByZero

theorem Operator.outcome_apply {α : Type} [Operand α] (o : Operator) (a b : α) :
    o.Outcome a b (o.apply a b) := by
  refine ⟨fun h => apply_eq_ok_iff.2 ⟨h, rfl⟩, ?_, ?_⟩
  · rintro rfl hzero
    exact apply_eq_error_iff.2 ⟨hzero, rfl⟩
  · rintro rfl hzero
    exact apply_eq_error_iff.2 ⟨hzero, rfl⟩

/-! ## Texts of groups and operations -/

theorem admissible_group {text : String} (h : Admissible text) :
    Admissible ("(" ++ text ++ ")") := by
  simp only [admissible_append]
  exact ⟨⟨by decide, h⟩, by decide⟩

theorem withoutBlanks_group (text : String) :
    withoutBlanks ("(" ++ text ++ ")") = "(" ++ withoutBlanks text ++ ")" := by
  simp only [withoutBlanks_append]
  rfl

theorem admissible_operation (o : Operator) {left right : String} (hleft : Admissible left)
    (hright : Admissible right) :
    Admissible ("(" ++ left ++ ")" ++ String.singleton o.symbol ++ "(" ++ right ++ ")") := by
  have hsymbol : Admissible (String.singleton o.symbol) := by cases o <;> decide
  rw [admissible_append, admissible_append, admissible_append, admissible_append]
  exact ⟨⟨⟨⟨admissible_group hleft, hsymbol⟩, by decide⟩, hright⟩, by decide⟩

theorem withoutBlanks_operation (o : Operator) (left right : String) :
    withoutBlanks ("(" ++ left ++ ")" ++ String.singleton o.symbol ++ "(" ++ right ++ ")") =
      "(" ++ withoutBlanks left ++ ")" ++ String.singleton o.symbol ++ "(" ++
        withoutBlanks right ++ ")" := by
  have hsymbol : withoutBlanks (String.singleton o.symbol) = String.singleton o.symbol := by
    cases o <;> decide
  simp only [withoutBlanks_append, hsymbol]
  rfl

/-! ## Calls and their listings -/

namespace Settings

variable {α : Type} [Operand α] {settings : Settings}

theorem exists_listing_of_result {expression : String} {v : α}
    (h : (settings.evaluateIn α expression).result = .ok v) :
    ∃ listing, Admissible expression ∧ toPostorder (withoutBlanks expression) = .ok listing ∧
      Postorder.value listing = .ok v := by
  obtain ⟨-, text, hcompact, listing, hlisting, hvalue⟩ :=
    result_evaluateIn_eq_ok_iff_stages.1 h
  obtain ⟨rfl, -, haccepted⟩ := compact_eq_ok_iff.1 hcompact
  exact ⟨listing, admissible_iff.2 haccepted, hlisting, hvalue⟩

theorem result_of_admissible (hlimit : settings.maxLength = none) {expression : String}
    (h : Admissible expression) (hne : (withoutBlanks expression).toList ≠ []) :
    (settings.evaluateIn α expression).result =
      toPostorder (withoutBlanks expression) >>= Postorder.value := by
  rw [result_evaluateIn, checkLength_of_none hlimit, h.compact_eq hne]
  rfl

theorem result_group (hlimit : settings.maxLength = none) {expression : String} {v : α}
    (h : (settings.evaluateIn α expression).result = .ok v) :
    (settings.evaluateIn α ("(" ++ expression ++ ")")).result = .ok v := by
  obtain ⟨listing, hadmissible, hlisting, hvalue⟩ := exists_listing_of_result h
  have htext := withoutBlanks_group expression
  rw [result_of_admissible hlimit (admissible_group hadmissible) (by simp [htext]), htext,
    toPostorder_group hlisting]
  exact hvalue

theorem result_operation (hlimit : settings.maxLength = none) (o : Operator)
    {left right : String} {x y : α} (hleft : (settings.evaluateIn α left).result = .ok x)
    (hright : (settings.evaluateIn α right).result = .ok y) :
    (settings.evaluateIn α
      ("(" ++ left ++ ")" ++ String.singleton o.symbol ++ "(" ++ right ++ ")")).result =
      o.apply x y := by
  obtain ⟨ls, hadmissible, hls, hx⟩ := exists_listing_of_result hleft
  obtain ⟨rs, hadmissible', hrs, hy⟩ := exists_listing_of_result hright
  obtain ⟨l, rfl, hl⟩ := Postorder.exists_tree_of_value hx
  obtain ⟨r, rfl, hr⟩ := Postorder.exists_tree_of_value hy
  have htext := withoutBlanks_operation o left right
  rw [result_of_admissible hlimit (admissible_operation o hadmissible hadmissible')
    (by rw [htext]; simp), htext, toPostorder_operation o hls hrs]
  -- The listings are those of two trees, and together that of the tree of the operation.
  show Postorder.value (Expression.binary o l r).postorder = _
  rw [Expression.value_postorder, Expression.evaluate, hl, hr]
  rfl

end Settings

/-- **Evaluation is compositional.** An accepted expression keeps its value in parentheses, and an
operation on two of them has the result of its operator on their values. The conversion is
compositional on every text it accepts, with or without a value. -/
theorem evaluate_operation {settings : Settings} (hlimit : settings.maxLength = none)
    (o : Operator) (left right : String) :
    (∀ x, (settings.evaluate left).result = .ok x →
      (settings.evaluate ("(" ++ left ++ ")")).result = .ok x ∧
        ∀ y, (settings.evaluate right).result = .ok y →
          o.Outcome x y (settings.evaluate
            ("(" ++ left ++ ")" ++ String.singleton o.symbol ++ "(" ++ right ++ ")")).result) ∧
    (∀ x, (settings.evaluateExact left).result = .ok x →
      (settings.evaluateExact ("(" ++ left ++ ")")).result = .ok x ∧
        ∀ y, (settings.evaluateExact right).result = .ok y →
          o.Outcome x y (settings.evaluateExact
            ("(" ++ left ++ ")" ++ String.singleton o.symbol ++ "(" ++ right ++ ")")).result) ∧
    ∀ ls, toPostorder left = .ok ls →
      toPostorder ("(" ++ left ++ ")") = .ok ls ∧
        ∀ rs, toPostorder right = .ok rs →
          toPostorder ("(" ++ left ++ ")" ++ String.singleton o.symbol ++ "(" ++ right ++ ")") =
            .ok (ls ++ rs ++ [.op o]) := by
  refine ⟨fun x hx => ⟨Settings.result_group hlimit hx, fun y hy => ?_⟩,
    fun x hx => ⟨Settings.result_group hlimit hx, fun y hy => ?_⟩,
    fun ls hls => ⟨toPostorder_group hls, fun rs hrs => toPostorder_operation o hls hrs⟩⟩
  · have hresult := Settings.result_operation hlimit o hx hy
    rw [Settings.evaluate, hresult]
    exact o.outcome_apply x y
  · have hresult := Settings.result_operation hlimit o hx hy
    rw [Settings.evaluateExact, hresult]
    exact o.outcome_apply x y

/-- A remainder by zero and a quotient, on operands that the grammar does not derive, and the
listing of a division without operands. -/
theorem evaluate_operation_on_underived :
    (({} : Settings).evaluate "( 1(2)+)%((2)2-)").result = .error .moduloByZero ∧
      (({} : Settings).evaluateExact "( 1(2)+)/((3)4/)").result = .ok 4 ∧
      toPostorder "(-)/()" = .ok [.op .minus, .op .divide] := by
  have hlimit : ({} : Settings).maxLength = none := rfl
  have hthree : (({} : Settings).evaluate " 1(2)+").result =
      .ok (.finite false ⟨0x4008000000000000, by decide⟩) := by decide +kernel
  have hzero : (({} : Settings).evaluate "(2)2-").result = .ok (.zero false) := by decide +kernel
  have hexact : (({} : Settings).evaluateExact " 1(2)+").result = .ok 3 := by decide +kernel
  have hquarters : (({} : Settings).evaluateExact "(3)4/").result = .ok (3 / 4) := by
    decide +kernel
  have hfour : Operator.divide.operation (3 : Rat) (3 / 4) = 4 := by decide +kernel
  have hminus : toPostorder "-" = .ok [.op .minus] := by decide +kernel
  have hempty : toPostorder "" = .ok [] := by decide +kernel
  obtain ⟨hplain, -, -⟩ := evaluate_operation hlimit .modulo " 1(2)+" "(2)2-"
  obtain ⟨-, hquotient, -⟩ := evaluate_operation hlimit .divide " 1(2)+" "(3)4/"
  obtain ⟨-, -, hlisting⟩ := evaluate_operation hlimit .divide "-" ""
  refine ⟨((hplain _ hthree).2 _ hzero).remainder rfl rfl, ?_, (hlisting _ hminus).2 _ hempty⟩
  have hvalue := ((hquotient _ hexact).2 _ hquarters).value (by decide +kernel)
  rw [hfour] at hvalue
  exact hvalue

end Calculator
