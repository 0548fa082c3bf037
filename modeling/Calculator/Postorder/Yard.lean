import Calculator.Token.Lexer

/-!
# From infix to postorder

A yard takes the tokens of an infix expression one by one and puts them out in postorder, each
operator after its operands. Numbers are put out at once. An operator waits until its right operand
is complete: it is released by the next operator of its scope that does not bind tighter, or by the
end of the scope. A scope extends from a parenthesis to its partner, or over the whole expression,
so an operator never waits across a parenthesis.

The waiting operators are kept scope by scope, newest first; `Yard.stack` is the same as one stack
with the open parentheses.
-/

namespace Calculator

/-- The state of a conversion. -/
structure Yard where
  /-- The output, newest first. -/
  output : List Token := []
  /-- The waiting operators of the innermost open scope, newest first. -/
  waiting : List Operator := []
  /-- Those of the scopes around it, innermost first. -/
  outer : List (List Operator) := []
  deriving DecidableEq

namespace Yard

/-- Puts out operators in the order given. -/
def emit (operators : List Operator) (output : List Token) : List Token :=
  (operators.map Token.op).reverse ++ output

/-- Whether an operator releases a waiting one of its scope, which it does unless it binds tighter.
Equal precedences release, so that operators associate to the left. -/
def releases (next waiting : Operator) : Bool :=
  next.precedence ≤ waiting.precedence

/-- Takes one token of an infix expression. -/
def step (yard : Yard) : Token → Except EvalError Yard
  | .num text => .ok { yard with output := .num text :: yard.output }
  | .lparen => .ok { yard with waiting := [], outer := yard.waiting :: yard.outer }
  | .rparen =>
    match yard.outer with
    | [] => .error .mismatchedParentheses
    | scope :: outer => .ok ⟨emit yard.waiting yard.output, scope, outer⟩
  | .op o =>
    .ok { yard with
      output := emit (yard.waiting.takeWhile (releases o)) yard.output
      waiting := o :: yard.waiting.dropWhile (releases o) }

/-- Takes the tokens in order. -/
def steps (yard : Yard) (tokens : List Token) : Except EvalError Yard :=
  tokens.foldlM step yard

/-- The whole output at the end of the expression; every scope must be closed. -/
def finish (yard : Yard) : Except EvalError (List Token) :=
  match yard.outer with
  | [] => .ok (emit yard.waiting yard.output).reverse
  | _ :: _ => .error .mismatchedParentheses

@[simp] theorem steps_nil (yard : Yard) : yard.steps [] = .ok yard := rfl

theorem steps_cons (yard : Yard) (t : Token) (ts : List Token) :
    yard.steps (t :: ts) = yard.step t >>= fun next => next.steps ts := rfl

theorem steps_append (yard : Yard) (ts us : List Token) :
    yard.steps (ts ++ us) = yard.steps ts >>= fun next => next.steps us :=
  List.foldlM_append

@[simp] theorem reverse_emit (operators : List Operator) (output : List Token) :
    (emit operators output).reverse = output.reverse ++ operators.map Token.op := by
  simp [emit]

end Yard

/-! ## The operator stack -/

/-- An entry of the stack: an operator or an open parenthesis. -/
inductive Waiting where
  | op (operator : Operator)
  | lparen
  deriving DecidableEq

/-- The waiting operators as one stack, newest first, with the open parentheses. -/
def Yard.stack (yard : Yard) : List Waiting :=
  yard.waiting.map .op ++ yard.outer.flatMap fun scope => .lparen :: scope.map .op

theorem Yard.count_lparen_stack (yard : Yard) : yard.stack.count .lparen = yard.outer.length := by
  have hops (ops : List Operator) : (ops.map Waiting.op).count .lparen = 0 :=
    List.count_eq_zero.2 (by simp)
  have houter (outer : List (List Operator)) :
      (outer.flatMap fun scope => Waiting.lparen :: scope.map .op).count .lparen =
        outer.length := by
    induction outer with
    | nil => rfl
    | cons scope outer ih => simp [List.count_append, hops, ih]
  simp [stack, List.count_append, hops, houter]

/-! ## Postorder listings -/

/-- The postorder listing of an infix text without blanks. The tokens are taken as they are read, so
an unmatched closing parenthesis is reported before an error behind it, and that error before an
unclosed parenthesis. -/
def toPostorder (text : String) : Except EvalError (List Token) := do
  let scan := (Lexer.ofString text).scan
  let yard ← Yard.steps {} scan.tokens
  match scan.error? with
  | some e => throw e
  | none => yard.finish

namespace Yard

/-- The listing of what a scan reads, from the state of a yard. -/
def convert (yard : Yard) (scan : Lexer.Scan) : Except EvalError (List Token) := do
  let next ← yard.steps scan.tokens
  match scan.error? with
  | some e => throw e
  | none => next.finish

theorem toPostorder_eq_convert (text : String) :
    toPostorder text = convert {} (Lexer.ofString text).scan := rfl

end Yard

end Calculator
