import Calculator.Expression

/-!
# The grammar of infix expressions

A sum is a product, or a sum and a product with `+` or `-` between. A product is a factor, or a
product and a factor with `*`, `/` or `%` between. A factor is a literal, or a sum in parentheses.
The inhabitants of `Phrase` are the derivations of this grammar. A phrase has a text and an
expression tree; the tree does not keep the parentheses.

The two classes of operators are listed here, not taken from `Operator.precedence`.
-/

namespace Calculator

/-- The operators of a sum. -/
def Operator.isAdditive : Operator → Bool
  | plus | minus => true
  | times | divide | modulo => false

/-- The operators of a product. -/
def Operator.isMultiplicative : Operator → Bool
  | times | divide | modulo => true
  | plus | minus => false

/-- The nonterminals of the grammar. -/
inductive PhraseKind where
  | sum
  | product
  | factor
  deriving DecidableEq

/-- The derivations of the grammar. -/
inductive Phrase : PhraseKind → Type where
  | literal (text : String) (numerals : text.toList.all isNumeral)
      (wellFormed : isLiteral text.toList) : Phrase .factor
  | group (inner : Phrase .sum) : Phrase .factor
  | ofFactor (factor : Phrase .factor) : Phrase .product
  | multiply (left : Phrase .product) (operator : Operator)
      (multiplicative : operator.isMultiplicative) (right : Phrase .factor) : Phrase .product
  | ofProduct (product : Phrase .product) : Phrase .sum
  | add (left : Phrase .sum) (operator : Operator)
      (additive : operator.isAdditive) (right : Phrase .product) : Phrase .sum

namespace Phrase

/-- The tokens a phrase is written with. -/
def tokens : {kind : PhraseKind} → Phrase kind → List Token
  | _, literal text _ _ => [.num text]
  | _, group inner => .lparen :: (inner.tokens ++ [.rparen])
  | _, ofFactor factor => factor.tokens
  | _, multiply left o _ right => left.tokens ++ .op o :: right.tokens
  | _, ofProduct product => product.tokens
  | _, add left o _ right => left.tokens ++ .op o :: right.tokens

/-- The text of a phrase, without blanks. -/
def text {kind : PhraseKind} (phrase : Phrase kind) : String :=
  Token.concat phrase.tokens

/-- The tree a phrase stands for. -/
def expression : {kind : PhraseKind} → Phrase kind → Expression
  | _, literal text _ _ => .literal text
  | _, group inner => inner.expression
  | _, ofFactor factor => factor.expression
  | _, multiply left o _ right => .binary o left.expression right.expression
  | _, ofProduct product => product.expression
  | _, add left o _ right => .binary o left.expression right.expression

end Phrase

end Calculator
