import Calculator.Error

/-!
# Steps that can fail

Both machines of the calculator take tokens one by one and stop at the first error, and a call runs
its stages in the same way. Here the results and the errors of a sequence are derived from those of
its parts, and those of a run from those of its steps.
-/

namespace Calculator

theorem bind_eq_ok_iff {α β : Type} {first : Except EvalError α} {next : α → Except EvalError β}
    {b : β} : first >>= next = .ok b ↔ ∃ a, first = .ok a ∧ next a = .ok b := by
  cases first with
  | error e =>
    refine ⟨fun h => (by cases h), fun ⟨a, h, _⟩ => (by cases h)⟩
  | ok a =>
    refine ⟨fun h => ⟨a, rfl, h⟩, fun ⟨a', h, hnext⟩ => ?_⟩
    cases h
    exact hnext

theorem bind_eq_error_iff {α β : Type} {first : Except EvalError α}
    {next : α → Except EvalError β} {e : EvalError} :
    first >>= next = .error e ↔ first = .error e ∨ ∃ a, first = .ok a ∧ next a = .error e := by
  cases first with
  | error e' =>
    refine ⟨fun h => (by cases h; exact .inl rfl), fun h => ?_⟩
    rcases h with h | ⟨a, h, -⟩
    · cases h
      rfl
    · cases h
  | ok a =>
    refine ⟨fun h => .inr ⟨a, rfl, h⟩, fun h => ?_⟩
    rcases h with h | ⟨a', h, hnext⟩
    · cases h
    · cases h
      exact hnext

/-- Two sequences with the same first part have the same errors if their second parts have. -/
theorem bind_error_congr {α β γ : Type} {first : Except EvalError α}
    {next : α → Except EvalError β} {next' : α → Except EvalError γ}
    (h : ∀ a, first = .ok a → ∀ e, next a = .error e ↔ next' a = .error e) (e : EvalError) :
    first >>= next = .error e ↔ first >>= next' = .error e := by
  rw [bind_eq_error_iff, bind_eq_error_iff]
  refine or_congr ⟨fun he => ?_, fun he => ?_⟩ (exists_congr fun a => and_congr_right (h a · e))
  · rw [he]
  · rw [he]

/-! ## Errors with a property -/

/-- Every error of the result has this property. -/
def FailsOnlyWith (p : EvalError → Prop) {α : Type} (result : Except EvalError α) : Prop :=
  ∀ e, result = .error e → p e

namespace FailsOnlyWith

variable {p q : EvalError → Prop} {α β : Type} {result : Except EvalError α}

theorem ok (a : α) : FailsOnlyWith p (.ok a) := by
  intro e h
  cases h

theorem error {e : EvalError} (h : p e) : FailsOnlyWith p (.error e : Except EvalError α) := by
  intro e' he
  cases he
  exact h

theorem mono (h : FailsOnlyWith p result) (hpq : ∀ e, p e → q e) : FailsOnlyWith q result :=
  fun e he => hpq e (h e he)

theorem bind {next : α → Except EvalError β} (h : FailsOnlyWith p result)
    (hnext : ∀ a, result = .ok a → FailsOnlyWith p (next a)) :
    FailsOnlyWith p (result >>= next) := by
  intro e he
  rcases bind_eq_error_iff.1 he with hfirst | ⟨a, ha, hrest⟩
  · exact h e hfirst
  · exact hnext a ha e hrest

theorem map (h : FailsOnlyWith p result) (f : α → β) : FailsOnlyWith p (result.map f) := by
  cases result with
  | error e => exact error (h e rfl)
  | ok a => exact ok (f a)

end FailsOnlyWith

/-! ## Runs -/

/-- **Induction on a successful run.** A relation that holds of the empty run, and of a run if it
holds behind the first step, holds of every successful run. -/
theorem run_induction {σ τ : Type} {step : σ → τ → Except EvalError σ}
    {motive : σ → List τ → σ → Prop} (nil : ∀ s, motive s [] s)
    (cons : ∀ s t middle ts final, step s t = .ok middle → motive middle ts final →
      motive s (t :: ts) final)
    {s final : σ} {ts : List τ} (h : ts.foldlM step s = .ok final) : motive s ts final := by
  induction ts generalizing s with
  | nil =>
    cases h
    exact nil _
  | cons t ts ih =>
    obtain ⟨middle, hstep, hrest⟩ := bind_eq_ok_iff.1 h
    exact cons _ t middle ts final hstep (ih hrest)

/-- **Where a run fails.** A run fails exactly if some step fails and all before it succeed. -/
theorem run_eq_error_iff {σ τ : Type} {step : σ → τ → Except EvalError σ} {s : σ} {ts : List τ}
    {e : EvalError} :
    ts.foldlM step s = .error e ↔ ∃ before t after middle, ts = before ++ t :: after ∧
      before.foldlM step s = .ok middle ∧ step middle t = .error e := by
  constructor
  · intro h
    induction ts generalizing s with
    | nil => cases h
    | cons t ts ih =>
      rcases bind_eq_error_iff.1 h with hstep | ⟨next, hstep, hrest⟩
      · exact ⟨[], t, ts, s, rfl, rfl, hstep⟩
      · obtain ⟨before, u, after, middle, rfl, hbefore, hu⟩ := ih hrest
        exact ⟨t :: before, u, after, middle, rfl, bind_eq_ok_iff.2 ⟨next, hstep, hbefore⟩, hu⟩
  · rintro ⟨before, t, after, middle, rfl, hbefore, hstep⟩
    rw [List.foldlM_append, hbefore]
    show (t :: after).foldlM step middle = _
    rw [List.foldlM_cons]
    exact bind_eq_error_iff.2 (.inl hstep)

theorem FailsOnlyWith.run {p : EvalError → Prop} {σ τ : Type} {step : σ → τ → Except EvalError σ}
    {ts : List τ} (h : ∀ t ∈ ts, ∀ s, FailsOnlyWith p (step s t)) (s : σ) :
    FailsOnlyWith p (ts.foldlM step s) := by
  intro e he
  obtain ⟨before, t, after, middle, rfl, -, hstep⟩ := run_eq_error_iff.1 he
  exact h t (by simp) middle e hstep

end Calculator
