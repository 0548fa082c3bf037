import Calculator.Number.Operand
import Calculator.Token.Basic

/-!
# The value of a postorder listing

A listing is evaluated from left to right with a stack of values, newest first: a number is pushed,
an operator replaces the two newest values, the older one being its left operand. At the end there
must be exactly one value. A listing has no parentheses.
-/

namespace Calculator.Postorder

variable {α : Type} [Operand α]

/-- Takes one token of a listing. -/
def step (stack : List α) : Token → Except EvalError (List α)
  | .num text =>
    match Operand.ofLiteral? text with
    | some value => .ok (value :: stack)
    | none => .error (.invalidNumber text)
  | .op o =>
    match stack with
    | right :: left :: below => do return (← o.apply left right) :: below
    | _ => .error .insufficientOperands
  | .lparen | .rparen => .error .mismatchedParentheses

/-- The only value of a stack. -/
def top : List α → Except EvalError α
  | [value] => .ok value
  | [] => .error .insufficientOperands
  | _ :: _ :: _ => .error .tooManyOperands

/-- Takes the tokens in order. -/
def steps (stack : List α) (tokens : List Token) : Except EvalError (List α) :=
  tokens.foldlM step stack

/-- The value of a listing. -/
def value (tokens : List Token) : Except EvalError α :=
  steps [] tokens >>= top

theorem steps_cons (stack : List α) (t : Token) (ts : List Token) :
    steps stack (t :: ts) = step stack t >>= fun next => steps next ts := rfl

theorem steps_append (stack : List α) (ts us : List Token) :
    steps stack (ts ++ us) = steps stack ts >>= fun next => steps next us :=
  List.foldlM_append

end Calculator.Postorder
