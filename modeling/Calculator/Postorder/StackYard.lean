import Calculator.Postorder.Yard

/-!
# The converter with one stack

The converter with the waiting operators and the open parentheses on one stack, newest on top. A
token pops operators until one binds less tightly or a parenthesis is on top.

`StackYard.convert` takes the tokens of a text as they are read, and `StackYard.Reaches` are its
states. A `Yard` does the same scope by scope.
-/

namespace Calculator

namespace Waiting

/-- The operator of an entry, if it is one. -/
def operator? : Waiting → Option Operator
  | op o => some o
  | lparen => none

end Waiting

/-- The state of the converter. -/
structure StackYard where
  /-- The output, newest first. -/
  output : List Token := []
  /-- The waiting operators and the open parentheses, newest first. -/
  stack : List Waiting := []
  deriving DecidableEq

namespace StackYard

/-- Pops the operators on top of the stack that an operator releases, and puts them out. -/
def release (o : Operator) (output : List Token) : List Waiting → StackYard
  | .op top :: below =>
    if top.precedence < o.precedence then ⟨output, .op top :: below⟩
    else release o (.op top :: output) below
  | stack => ⟨output, stack⟩

/-- Pops the operators down to a parenthesis, puts them out, and removes the parenthesis. -/
def closeScope (output : List Token) : List Waiting → Except EvalError StackYard
  | .op top :: below => closeScope (.op top :: output) below
  | .lparen :: below => .ok ⟨output, below⟩
  | [] => .error .mismatchedParentheses

/-- Takes one token of an infix expression. -/
def step (yard : StackYard) : Token → Except EvalError StackYard
  | .num text => .ok { yard with output := .num text :: yard.output }
  | .lparen => .ok { yard with stack := .lparen :: yard.stack }
  | .rparen => closeScope yard.output yard.stack
  | .op o =>
    let next := release o yard.output yard.stack
    .ok { next with stack := .op o :: next.stack }

/-- Pops everything at the end of the expression. -/
def finish (output : List Token) : List Waiting → Except EvalError (List Token)
  | .op top :: below => finish (.op top :: output) below
  | .lparen :: _ => .error .mismatchedParentheses
  | [] => .ok output.reverse

/-- Takes the tokens of a text from a place on, each as it is read. -/
def convert (yard : StackYard) (lexer : Lexer) : Except EvalError (List Token) :=
  match _ : lexer.next? with
  | none => finish yard.output yard.stack
  | some (.error e, _) => .error e
  | some (.ok t, after) => yard.step t >>= fun next => next.convert after
termination_by lexer.rest.length
decreasing_by exact Lexer.length_rest_lt ‹_›

/-- The states of the conversion of a text: the tokens taken so far, the state, and the place of the
next token. -/
inductive Reaches (text : String) : List Token → StackYard → Lexer → Prop
  | start : Reaches text [] {} (Lexer.ofString text)
  | step {taken : List Token} {yard next : StackYard} {lexer after : Lexer} {t : Token}
      (h : Reaches text taken yard lexer) (hread : lexer.next? = some (.ok t, after))
      (hstep : yard.step t = .ok next) : Reaches text (taken ++ [t]) next after

theorem convert_of_none {yard : StackYard} {lexer : Lexer} (h : lexer.next? = none) :
    yard.convert lexer = finish yard.output yard.stack := by
  rw [convert.eq_def]
  split <;> simp_all

theorem convert_of_error {yard : StackYard} {lexer after : Lexer} {e : EvalError}
    (h : lexer.next? = some (.error e, after)) : yard.convert lexer = .error e := by
  rw [convert.eq_def]
  split <;> simp_all

theorem convert_of_ok {yard : StackYard} {lexer after : Lexer} {t : Token}
    (h : lexer.next? = some (.ok t, after)) :
    yard.convert lexer = yard.step t >>= fun next => next.convert after := by
  rw [convert.eq_def]
  split <;> simp_all

end StackYard

end Calculator
