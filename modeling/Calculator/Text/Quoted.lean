import Calculator.Text.Blank
import Calculator.Text.Extender
import Calculator.Text.Unseen

/-!
# Quoted text

A text as shown in the journal: between double quotes, on one line, with every character escaped
that has no visible form. A quote and a backslash follow a backslash; tab, carriage return, line
feed and the null character have a letter each; every other control character, every blank but the
space, every extender and every unseen character is written `\u` with its code point in hexadecimal
between braces.
-/

namespace Calculator

/-- The control characters of Unicode: the code points below the space, and those from the delete
character up to `0x9f`. -/
def isControl (c : Char) : Bool :=
  c.toNat < 0x20 || (0x7f ≤ c.toNat && c.toNat < 0xa0)

/-- Whether a character has a visible form when it stands alone. -/
def isPlain (c : Char) : Bool :=
  c = ' ' || !(isControl c || isBlank c || isExtender c || isUnseen c)

/-- The quoted form of one character. -/
def quotedChar (c : Char) : List Char :=
  if c = '"' || c = '\\' then ['\\', c]
  else if c = '\t' then ['\\', 't']
  else if c = '\r' then ['\\', 'r']
  else if c = '\n' then ['\\', 'n']
  else if c = '\x00' then ['\\', '0']
  else if isPlain c then [c]
  else ['\\', 'u', '\x7b'] ++ Nat.toDigits 16 c.toNat ++ ['\x7d']

/-- The quoted form of a text. -/
def quoted (text : String) : String :=
  String.ofList ('"' :: (text.toList.flatMap quotedChar ++ ['"']))

end Calculator
