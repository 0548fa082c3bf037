import Calculator.Proofs.Acceptance

/-!
# Groups in parentheses

Text in parentheses is read and converted as if it stood alone. A parenthesis ends every run of
digits, so no number extends across it; inside a scope the yard uses neither the operators waiting
outside nor the earlier output. Whether a scope ends with its parenthesis or with the text makes no
difference: both put out the waiting operators.

Main results: `Yard.steps_group`, a yard puts out a group and is otherwise unchanged;
`toPostorder_group` and `toPostorder_operation`, the listings of a group and of an operation on two
of them.
-/

namespace Calculator

/-! ## A yard inside outer scopes -/

namespace Yard

/-- The yard with some output before its own and some scopes around its own. -/
def within (yard : Yard) (output : List Token) (outer : List (List Operator)) : Yard :=
  ⟨yard.output ++ output, yard.waiting, yard.outer ++ outer⟩

variable {yard next : Yard} {output : List Token} {outer : List (List Operator)}

@[simp] theorem emit_append (operators : List Operator) (first output : List Token) :
    emit operators (first ++ output) = emit operators first ++ output := by
  simp [emit]

/-- A step does not depend on the output before it and the scopes around it. -/
theorem step_within {t : Token} (h : yard.step t = .ok next) :
    (yard.within output outer).step t = .ok (next.within output outer) := by
  cases t with
  | num text => cases h; rfl
  | lparen => cases h; rfl
  | op o => cases h; simp [step, within]
  | rparen =>
    cases houter : yard.outer with
    | nil => simp [step, houter] at h
    | cons scope scopes =>
      simp only [step, houter, Except.ok.injEq] at h
      subst h
      simp [step, within, houter]

theorem steps_within {tokens : List Token} (h : yard.steps tokens = .ok next) :
    (yard.within output outer).steps tokens = .ok (next.within output outer) := by
  refine run_induction (motive := fun yard tokens next =>
    (yard.within output outer).steps tokens = .ok (next.within output outer)) (fun _ => rfl)
    (fun yard t middle ts next hstep hrest => ?_) h
  exact bind_eq_ok_iff.2 ⟨_, step_within hstep, hrest⟩

theorem steps_within_nil (yard : Yard) (output : List Token) (tokens : List Token) :
    (yard.within output []).steps tokens =
      (fun next => next.within output []) <$> yard.steps tokens := by
  cases h : yard.steps tokens with
  | ok next => exact steps_within h
  | error e =>
    cases hwithin : (yard.within output []).steps tokens with
    | error e' =>
      rw [error_of_steps h, error_of_steps hwithin]
      rfl
    | ok next =>
      -- Whether tokens can be taken depends on the number of open scopes alone.
      have hcloses := (steps_isOk_iff _ _).1 ⟨next, hwithin⟩
      rw [within, List.append_nil] at hcloses
      obtain ⟨next', hnext⟩ := (steps_isOk_iff yard tokens).2 hcloses
      rw [h] at hnext
      cases hnext

theorem finish_within_nil (yard : Yard) (output : List Token) :
    (yard.within output []).finish =
      (fun listing => output.reverse ++ listing) <$> yard.finish := by
  cases houter : yard.outer <;> simp [finish, within, houter]

/-- **A group is put out.** The output grows by its listing; the waiting operators before it and the
scopes around it are unchanged. -/
theorem steps_group {tokens listing : List Token} (h : (steps {} tokens >>= finish) = .ok listing)
    (yard : Yard) :
    yard.steps (.lparen :: (tokens ++ [.rparen])) =
      .ok { yard with output := listing.reverse ++ yard.output } := by
  obtain ⟨last, hsteps, hfinish⟩ := bind_eq_ok_iff.1 h
  have houter := outer_of_finish hfinish
  rw [finish_of_outer houter] at hfinish
  cases hfinish
  have hopen : yard.step .lparen =
      .ok (({} : Yard).within yard.output (yard.waiting :: yard.outer)) := rfl
  have hclose : (last.within yard.output (yard.waiting :: yard.outer)).step .rparen =
      .ok { yard with output := emit last.waiting last.output ++ yard.output } := by
    simp [step, within, houter]
  rw [steps_cons, hopen]
  show steps _ (tokens ++ [.rparen]) = _
  rw [steps_append, steps_within hsteps, List.reverse_reverse, ← hclose]
  show steps _ [.rparen] = _
  rw [steps_cons, hclose]
  rfl

end Yard

/-! ## Groups and operations -/

/-- **The listing of a group** is that of its content. -/
theorem toPostorder_group {text : String} {listing : List Token}
    (h : toPostorder text = .ok listing) : toPostorder ("(" ++ text ++ ")") = .ok listing := by
  obtain ⟨tokens, hread, rfl, hsteps⟩ := exists_tokens_of_toPostorder h
  have htext : "(" ++ Token.concat tokens ++ ")" =
      Token.concat (.lparen :: (tokens ++ [.rparen])) := by
    refine String.toList_inj.1 ?_
    simp [Token.concat, Token.text]
  rw [htext, toPostorder_concat (Token.readable_group hread), Yard.steps_group hsteps]
  simp [bind, Except.bind, Yard.finish, Yard.emit]

/-- **The listing of an operation** on two groups: that of its left operand, that of its right
operand, the operator. -/
theorem toPostorder_operation {left right : String} {ls rs : List Token} (o : Operator)
    (hleft : toPostorder left = .ok ls) (hright : toPostorder right = .ok rs) :
    toPostorder ("(" ++ left ++ ")" ++ String.singleton o.symbol ++ "(" ++ right ++ ")") =
      .ok (ls ++ rs ++ [.op o]) := by
  obtain ⟨tokens, hread, rfl, hsteps⟩ := exists_tokens_of_toPostorder hleft
  obtain ⟨tokens', hread', rfl, hsteps'⟩ := exists_tokens_of_toPostorder hright
  have hreadable : Token.Readable
      (.lparen :: (tokens ++ [.rparen]) ++ .op o :: .lparen :: (tokens' ++ [.rparen])) :=
    (Token.readable_append_cons (by simp [Token.isNumber])).2
      ⟨Token.readable_group hread, Token.readable_group hread'⟩
  have htext : "(" ++ Token.concat tokens ++ ")" ++ String.singleton o.symbol ++ "(" ++
        Token.concat tokens' ++ ")" =
      Token.concat
        (.lparen :: (tokens ++ [.rparen]) ++ .op o :: .lparen :: (tokens' ++ [.rparen])) := by
    refine String.toList_inj.1 ?_
    simp [Token.concat, Token.text]
  rw [htext, toPostorder_concat hreadable, Yard.steps_append, Yard.steps_group hsteps]
  show (Yard.steps _ (.lparen :: (tokens' ++ [.rparen])) >>= _) = _
  rw [Yard.steps_group hsteps']
  simp [bind, Except.bind, Yard.finish, Yard.emit]

end Calculator
