import Calculator.Postorder.Yard
import Calculator.Proofs.Run

/-!
# Parentheses and scopes

A yard has one open scope for each open parenthesis, so the parentheses of an expression alone
decide whether it can be converted: a closing one must have a scope to close, and no scope may be
open at the end.

Main results: `Yard.steps_isOk_iff`, tokens can be taken exactly if every closing parenthesis among
them has its partner before it; `Yard.length_outer_of_steps`, the number of scopes that are then
open; `Yard.result_isOk_iff`, a whole expression can be converted exactly if its parentheses are
balanced.
-/

namespace Calculator

/-! ## Counting parentheses -/

namespace Token

/-- With `depth` parentheses open before them, the tokens close only open ones. -/
def ClosesOpened (depth : Nat) (tokens : List Token) : Prop :=
  ∀ start, start <+: tokens → start.count .rparen ≤ depth + start.count .lparen

/-- With `depth` parentheses open before them, the tokens close these and their own, and leave none
open. -/
structure Closes (depth : Nat) (tokens : List Token) : Prop where
  opened : ClosesOpened depth tokens
  all : depth + tokens.count .lparen = tokens.count .rparen

/-- Every parenthesis has its partner. -/
abbrev Balanced (tokens : List Token) : Prop :=
  Closes 0 tokens

theorem closesOpened_nil (depth : Nat) : ClosesOpened depth [] := by
  intro start hstart
  rw [List.prefix_nil.1 hstart]
  exact Nat.zero_le _

theorem closesOpened_cons {depth : Nat} {t : Token} {ts : List Token} :
    ClosesOpened depth (t :: ts) ↔
      ∀ start, start <+: ts → (t :: start).count .rparen ≤ depth + (t :: start).count .lparen := by
  refine ⟨?_, ?_⟩
  · intro h start hstart
    exact h (t :: start) (List.cons_prefix_cons.2 ⟨rfl, hstart⟩)
  · intro h start hstart
    rcases List.prefix_cons_iff.1 hstart with rfl | ⟨us, rfl, hus⟩
    · exact Nat.zero_le _
    · exact h us hus

theorem closesOpened_lparen {depth : Nat} {ts : List Token} :
    ClosesOpened depth (.lparen :: ts) ↔ ClosesOpened (depth + 1) ts := by
  rw [closesOpened_cons]
  refine forall₂_congr fun start _ => ?_
  rw [List.count_cons_self, List.count_cons_of_ne (by decide), Nat.add_right_comm, Nat.add_assoc]

theorem closesOpened_rparen {depth : Nat} {ts : List Token} :
    ClosesOpened depth (.rparen :: ts) ↔ 0 < depth ∧ ClosesOpened (depth - 1) ts := by
  have hcount (start : List Token) :
      (Token.rparen :: start).count .rparen ≤ depth + (Token.rparen :: start).count .lparen ↔
        start.count .rparen + 1 ≤ depth + start.count .lparen := by
    rw [List.count_cons_self, List.count_cons_of_ne (by decide)]
  rw [closesOpened_cons]
  refine ⟨?_, ?_⟩
  · intro h
    have hpos := (hcount []).1 (h [] List.nil_prefix)
    refine ⟨hpos, fun start hstart => ?_⟩
    have := (hcount start).1 (h start hstart)
    omega
  · intro ⟨hpos, h⟩ start hstart
    have := h start hstart
    refine (hcount start).2 ?_
    omega

theorem closesOpened_of_ne {depth : Nat} {t : Token} {ts : List Token} (hl : t ≠ .lparen)
    (hr : t ≠ .rparen) : ClosesOpened depth (t :: ts) ↔ ClosesOpened depth ts := by
  rw [closesOpened_cons]
  refine forall₂_congr fun start _ => ?_
  rw [List.count_cons_of_ne hl, List.count_cons_of_ne hr]

theorem closes_nil {depth : Nat} : Closes depth [] ↔ depth = 0 := by
  refine ⟨fun h => h.all, fun h => ?_⟩
  subst h
  exact ⟨closesOpened_nil 0, rfl⟩

theorem closes_lparen {depth : Nat} {ts : List Token} :
    Closes depth (.lparen :: ts) ↔ Closes (depth + 1) ts := by
  have hcount : depth + (Token.lparen :: ts).count .lparen = (Token.lparen :: ts).count .rparen ↔
      depth + 1 + ts.count .lparen = ts.count .rparen := by
    rw [List.count_cons_self, List.count_cons_of_ne (by decide), Nat.add_right_comm,
      Nat.add_assoc]
  exact ⟨fun h => ⟨closesOpened_lparen.1 h.opened, hcount.1 h.all⟩,
    fun h => ⟨closesOpened_lparen.2 h.opened, hcount.2 h.all⟩⟩

theorem closes_rparen {depth : Nat} {ts : List Token} :
    Closes depth (.rparen :: ts) ↔ 0 < depth ∧ Closes (depth - 1) ts := by
  have hcount : depth + (Token.rparen :: ts).count .lparen = (Token.rparen :: ts).count .rparen ↔
      depth + ts.count .lparen = ts.count .rparen + 1 := by
    rw [List.count_cons_self, List.count_cons_of_ne (by decide)]
  refine ⟨?_, ?_⟩
  · intro h
    obtain ⟨hpos, hopened⟩ := closesOpened_rparen.1 h.opened
    have := hcount.1 h.all
    exact ⟨hpos, hopened, by omega⟩
  · intro ⟨hpos, h⟩
    have := h.all
    exact ⟨closesOpened_rparen.2 ⟨hpos, h.opened⟩, hcount.2 (by omega)⟩

theorem closes_of_ne {depth : Nat} {t : Token} {ts : List Token} (hl : t ≠ .lparen)
    (hr : t ≠ .rparen) : Closes depth (t :: ts) ↔ Closes depth ts := by
  have hcount : depth + (t :: ts).count .lparen = (t :: ts).count .rparen ↔
      depth + ts.count .lparen = ts.count .rparen := by
    rw [List.count_cons_of_ne hl, List.count_cons_of_ne hr]
  exact ⟨fun h => ⟨(closesOpened_of_ne hl hr).1 h.opened, hcount.1 h.all⟩,
    fun h => ⟨(closesOpened_of_ne hl hr).2 h.opened, hcount.2 h.all⟩⟩

end Token

/-! ## Scopes of a yard -/

namespace Yard

open Token

theorem step_eq_error_iff {yard : Yard} {t : Token} {e : EvalError} :
    yard.step t = .error e ↔ t = .rparen ∧ yard.outer = [] ∧ e = .mismatchedParentheses := by
  cases t with
  | rparen => cases h : yard.outer <;> simp [step, h, eq_comm]
  | _ => simp [step]

theorem finish_of_outer {yard : Yard} (h : yard.outer = []) :
    yard.finish = .ok (emit yard.waiting yard.output).reverse := by
  simp only [finish, h]

theorem outer_of_finish {yard : Yard} {listing : List Token} (h : yard.finish = .ok listing) :
    yard.outer = [] := by
  cases houter : yard.outer with
  | nil => rfl
  | cons scope outer => simp [finish, houter] at h

theorem length_outer_of_step {yard next : Yard} {t : Token} (h : yard.step t = .ok next) :
    next.outer.length + [t].count .rparen = yard.outer.length + [t].count .lparen := by
  cases t with
  | num text => cases h; rfl
  | op o => cases h; rfl
  | lparen => cases h; rfl
  | rparen =>
    cases houter : yard.outer with
    | nil => simp [step, houter] at h
    | cons scope outer =>
      simp only [step, houter, Except.ok.injEq] at h
      subst h
      rfl

theorem error_of_steps {yard : Yard} {tokens : List Token} {e : EvalError}
    (h : yard.steps tokens = .error e) : e = .mismatchedParentheses := by
  induction tokens generalizing yard with
  | nil => cases h
  | cons t ts ih =>
    rcases bind_eq_error_iff.1 h with hstep | ⟨next, -, hrest⟩
    · exact (step_eq_error_iff.1 hstep).2.2
    · exact ih hrest

/-- **There is one open scope for each open parenthesis.** -/
theorem length_outer_of_steps {yard next : Yard} {tokens : List Token}
    (h : yard.steps tokens = .ok next) :
    next.outer.length + tokens.count .rparen = yard.outer.length + tokens.count .lparen := by
  refine run_induction (motive := fun yard tokens next =>
    next.outer.length + tokens.count .rparen = yard.outer.length + tokens.count .lparen)
    (fun _ => rfl) (fun yard t middle ts next hstep hrest => ?_) h
  have hfirst := length_outer_of_step hstep
  rw [← List.singleton_append, List.count_append, List.count_append]
  omega

/-- **Tokens can be taken exactly if each closing parenthesis has its partner before it.** -/
theorem steps_isOk_iff (yard : Yard) (tokens : List Token) :
    (∃ next, yard.steps tokens = .ok next) ↔ ClosesOpened yard.outer.length tokens := by
  induction tokens generalizing yard with
  | nil => exact ⟨fun _ => closesOpened_nil _, fun _ => ⟨yard, rfl⟩⟩
  | cons t ts ih =>
    rw [steps_cons]
    cases t with
    | num text => rw [closesOpened_of_ne (by simp) (by simp)]; exact ih _
    | op o => rw [closesOpened_of_ne (by simp) (by simp)]; exact ih _
    | lparen => rw [closesOpened_lparen]; exact ih _
    | rparen =>
      rw [closesOpened_rparen]
      cases houter : yard.outer with
      | nil =>
        have hstep : yard.step .rparen = .error .mismatchedParentheses :=
          step_eq_error_iff.2 ⟨rfl, houter, rfl⟩
        rw [hstep]
        exact ⟨fun ⟨next, h⟩ => (by cases h), fun ⟨h, _⟩ => absurd h (Nat.lt_irrefl 0)⟩
      | cons scope outer =>
        have hstep : yard.step .rparen = .ok ⟨emit yard.waiting yard.output, scope, outer⟩ := by
          simp [step, houter]
        rw [hstep]
        exact (ih _).trans ⟨fun h => ⟨Nat.succ_pos _, h⟩, fun h => h.2⟩

/-- **An expression can be converted exactly if its parentheses are balanced.** -/
theorem result_isOk_iff (tokens : List Token) :
    (∃ listing, (steps {} tokens >>= finish) = .ok listing) ↔ Token.Balanced tokens := by
  refine ⟨?_, ?_⟩
  · intro ⟨listing, h⟩
    obtain ⟨next, hsteps, hfinish⟩ := bind_eq_ok_iff.1 h
    have houter := outer_of_finish hfinish
    have hlength := length_outer_of_steps hsteps
    rw [houter] at hlength
    refine ⟨(steps_isOk_iff {} tokens).1 ⟨next, hsteps⟩, ?_⟩
    simpa using hlength.symm
  · intro h
    obtain ⟨next, hsteps⟩ := (steps_isOk_iff {} tokens).2 h.opened
    have houter : next.outer = [] := by
      have hlength := length_outer_of_steps hsteps
      have hall : 0 + tokens.count .lparen = tokens.count .rparen := h.all
      refine List.eq_nil_of_length_eq_zero ?_
      rw [show ({} : Yard).outer.length = 0 from rfl] at hlength
      omega
    exact ⟨_, bind_eq_ok_iff.2 ⟨next, hsteps, finish_of_outer houter⟩⟩

end Yard

end Calculator
