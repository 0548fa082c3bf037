import Calculator.Proofs.Parentheses
import Mathlib.Data.List.Perm.Basic

/-!
# The content of a yard

A yard reorders the tokens it takes. At any time its output and its waiting operators are, up to
order, the tokens taken without the parentheses (`Yard.content_steps`), so a listing is a
permutation of the converted tokens without their parentheses (`Yard.perm_of_finish`).
-/

namespace Calculator

/-- Whether a token is a parenthesis. -/
def Token.isParenthesis : Token → Bool
  | lparen | rparen => true
  | _ => false

namespace Yard

/-- The output of a yard, and the waiting operators of all scopes. -/
def content (yard : Yard) : List Token :=
  yard.output ++ (yard.waiting ++ yard.outer.flatten).map .op

theorem content_step {yard next : Yard} {t : Token} (h : yard.step t = .ok next) :
    next.content.Perm ([t].filter (fun u => !u.isParenthesis) ++ yard.content) := by
  -- A step moves operators from the stack to the output, so both sides are counted.
  refine List.perm_iff_count.2 fun u => ?_
  cases t with
  | num text =>
    cases h
    rfl
  | lparen =>
    cases h
    rfl
  | rparen =>
    cases houter : yard.outer with
    | nil => simp [step, houter] at h
    | cons scope outer =>
      simp only [step, houter, Except.ok.injEq] at h
      subst h
      simp only [content, emit, houter, Token.isParenthesis, List.flatten_cons, List.map_append,
        List.count_append, List.count_reverse, List.filter_cons, List.filter_nil, Bool.not_true,
        Bool.false_eq_true, if_false, List.count_nil]
      omega
  | op o =>
    cases h
    have hsplit := congrArg (fun ops => (ops.map Token.op).count u)
      (List.takeWhile_append_dropWhile (p := releases o) (l := yard.waiting))
    simp only [List.map_append, List.count_append] at hsplit
    simp only [content, emit, List.cons_append, List.map_cons, List.map_append, List.count_append,
      List.count_cons, List.count_reverse, Token.isParenthesis, List.filter_cons, List.filter_nil,
      Bool.not_false, if_true, List.count_nil]
    omega

/-- **The content of a yard is what it has taken.** -/
theorem content_steps {yard next : Yard} {tokens : List Token} (h : yard.steps tokens = .ok next) :
    next.content.Perm (tokens.filter (fun u => !u.isParenthesis) ++ yard.content) := by
  refine run_induction (motive := fun yard tokens next =>
    next.content.Perm (tokens.filter (fun u => !u.isParenthesis) ++ yard.content))
    (fun _ => .refl _) (fun yard t middle ts next hstep hrest => ?_) h
  rw [← List.singleton_append, List.filter_append, List.append_assoc]
  refine hrest.trans (((content_step hstep).append_left _).trans ?_)
  exact List.perm_append_comm_assoc _ _ _

/-- **A listing is a permutation of the tokens without their parentheses.** -/
theorem perm_of_finish {tokens listing : List Token}
    (h : (steps {} tokens >>= finish) = .ok listing) :
    listing.Perm (tokens.filter fun u => !u.isParenthesis) := by
  obtain ⟨next, hsteps, hfinish⟩ := bind_eq_ok_iff.1 h
  have houter := outer_of_finish hfinish
  have hcontent := content_steps hsteps
  rw [show ({} : Yard).content = [] from rfl, List.append_nil] at hcontent
  rw [finish_of_outer houter] at hfinish
  cases hfinish
  refine List.Perm.trans ?_ hcontent
  rw [reverse_emit, content, houter]
  simpa using next.output.reverse_perm.append_right _

end Yard

end Calculator
