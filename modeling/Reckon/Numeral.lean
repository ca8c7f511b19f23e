/-
This file holds the numeral language: an optional sign, then digits with at
most one point among them and at least one digit. There is no exponent and no
spelling of an infinity, so a numeral always denotes a decimal fraction, and
its value is the double nearest to it.
-/

import Reckon.Binary64

namespace Reckon.Numeral

/-! ### Characters -/

def isSign (char : Char) : Bool :=
  char == '+' || char == '-'

/-- The characters a numeral is made of after its sign. -/
def isNumeric (char : Char) : Bool :=
  char.isDigit || char == '.'

/-! ### The language -/

/-- A text without its sign, if it has one. -/
def unsigned : List Char → List Char
  | [] => []
  | char :: rest => if isSign char then rest else char :: rest

/-- Whether a text is a numeral. -/
def accepts (text : List Char) : Bool :=
  let body := unsigned text
  body.all isNumeric && body.any Char.isDigit && body.count '.' ≤ 1

/-- How many digits of a numeral stand behind its point. -/
def decimals (text : List Char) : Nat :=
  (text.dropWhile (· != '.')).length - 1

/-- The digits of a numeral read as one whole number, the point left out. -/
def digits (text : List Char) : Nat :=
  Nat.ofDigitChars 10 ((unsigned text).filter Char.isDigit) 0

/-- The double nearest to the fraction a numeral denotes. A minus sign is kept on zero. -/
def value (text : List Char) : Float :=
  Binary64.ofWord (text.head? == some '-')
    (Binary64.nearest (digits text) (Nat.pow 10 (decimals text)))

end Reckon.Numeral
