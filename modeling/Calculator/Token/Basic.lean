import Calculator.Operator

/-!
# Tokens

The tokens of an expression: numbers, operators and parentheses, each with its text. A number keeps
its text; its value depends on the type of operands.

An expression is written with the characters of numbers (digits and the point) and with those that
are tokens of their own; `isAccepted` is their union.
-/

namespace Calculator

/-- A token of an expression. -/
inductive Token where
  | num (text : String)
  | op (operator : Operator)
  | lparen
  | rparen
  deriving DecidableEq

namespace Token

/-- The text of a token. -/
def text : Token → String
  | num text => text
  | op o => String.singleton o.symbol
  | lparen => "("
  | rparen => ")"

/-- The texts of the tokens on one line, separated by spaces. -/
def listing (tokens : List Token) : String :=
  " ".intercalate (tokens.map text)

/-- The texts of the tokens without separators. -/
def concat (tokens : List Token) : String :=
  String.join (tokens.map text)

/-- The token of a single character. -/
def ofChar? : Char → Option Token
  | '(' => some lparen
  | ')' => some rparen
  | c => (Operator.ofChar? c).map op

@[simp] theorem ofChar?_symbol (o : Operator) : ofChar? o.symbol = some (op o) := by
  cases o <;> rfl

theorem text_of_ofChar? {c : Char} {t : Token} (h : ofChar? c = some t) :
    t.text = String.singleton c := by
  unfold ofChar? at h
  split at h
  · cases h; rfl
  · cases h; rfl
  · obtain ⟨o, ho, rfl⟩ := Option.map_eq_some_iff.1 h
    rw [Operator.ofChar?_eq_some_iff.1 ho]
    rfl

theorem ofChar?_ne_num (c : Char) (text : String) : ofChar? c ≠ some (num text) := by
  unfold ofChar?
  split <;> simp

@[simp] theorem concat_nil : concat [] = "" := rfl

@[simp] theorem toList_concat_cons (t : Token) (ts : List Token) :
    (concat (t :: ts)).toList = t.text.toList ++ (concat ts).toList := by
  simp [concat]

end Token

/-! ## Characters -/

/-- The characters of numbers. -/
def isNumeral (c : Char) : Bool :=
  c.isDigit || c == '.'

/-- The characters of expressions. -/
def isAccepted (c : Char) : Bool :=
  isNumeral c || (Token.ofChar? c).isSome

/-- A well formed number: at least one digit and at most one point, in any place. -/
def isLiteral (run : List Char) : Bool :=
  run.any Char.isDigit && run.count '.' ≤ 1

theorem ne_nil_of_isLiteral {run : List Char} (h : isLiteral run) : run ≠ [] := by
  rintro rfl
  simp [isLiteral] at h

theorem ofChar?_eq_none_of_isNumeral {c : Char} (h : isNumeral c) : Token.ofChar? c = none := by
  cases ht : Token.ofChar? c with
  | none => rfl
  | some t =>
    unfold Token.ofChar? at ht
    split at ht
    · simp [isNumeral] at h
    · simp [isNumeral] at h
    · obtain ⟨o, ho, -⟩ := Option.map_eq_some_iff.1 ht
      rw [Operator.ofChar?_eq_some_iff.1 ho] at h
      cases o <;> simp [isNumeral, Operator.symbol] at h

end Calculator
