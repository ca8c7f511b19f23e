/-
This file holds the four ways a number is written.

Expressions are written plainly: a whole number has no point, any other number
has all its digits around a point, and there is never an exponent, so that the
numeral language reads back what was written. The other three spellings write
a point in every number that has no exponent and an exponent in very large and
very small ones. They differ only in their words for the values that are no
numerals and in how they write a mantissa of a single digit, and a record says
how each of them decides.
-/

import Reckon.Decimal

namespace Reckon

/-- What the spellings with exponents decide differently. -/
structure Spelling where
  notANumber : String
  infinity : String
  /-- What follows the only digit of a mantissa. -/
  afterSingleDigit : String

namespace Spelling

/-- The spelling of messages and of descriptions of a tree. -/
def literal : Spelling := ⟨"nan", "inf", ""⟩

def json : Spelling := ⟨"NaN", "Infinity", ""⟩

def yaml : Spelling := ⟨".nan", ".inf", ".0"⟩

/-! ### Finite numbers -/

/-- The exponents written with the digits around a point: from a ten-thousandth up to, but
not with, ten to the sixteenth. -/
def isPositional (exponent : Int) : Bool :=
  -4 ≤ exponent && exponent < 16

/-- An exponent with its sign and at least two digits. -/
def exponentText (exponent : Int) : String :=
  let digits := toString exponent.natAbs
  (if exponent < 0 then "e-" else "e+") ++ (if digits.length < 2 then "0" ++ digits else digits)

/-- The first digit, the other digits behind a point, and the exponent. -/
def scientific (spelling : Spelling) (decimal : Decimal) : String :=
  let mantissa :=
    match decimal.digitChars with
    | first :: second :: rest => String.ofList (first :: '.' :: second :: rest)
    | single => String.ofList single ++ spelling.afterSingleDigit
  mantissa ++ exponentText decimal.leadingExponent

/-- The digits around a point, with at least one behind it. -/
def pointed (decimal : Decimal) : String :=
  String.ofList decimal.positional ++ (if decimal.decimals = 0 then ".0" else "")

def unsigned (spelling : Spelling) (decimal : Decimal) : String :=
  if isPositional decimal.leadingExponent then pointed decimal else spelling.scientific decimal

/-! ### Doubles -/

/-- A double in a spelling with exponents. Minus zero keeps its sign. -/
def write (spelling : Spelling) (value : Float) : String :=
  let word := Binary64.word value
  let sign := if Binary64.isNegative value then "-" else ""
  if Binary64.infinity < word then spelling.notANumber
  else if word = Binary64.infinity then sign ++ spelling.infinity
  else sign ++ spelling.unsigned (Decimal.shortest word)

/-- The digits of a finite word without an exponent: exactly where it is whole, and the fewest
that read back where it is not. -/
def plainDigits (word : Nat) : List Char :=
  if Binary64.steps word % Binary64.stepsPerUnit = 0 then
    Nat.toDigits 10 (Binary64.steps word / Binary64.stepsPerUnit)
  else (Decimal.shortest word).positional

/-- A double as expressions write it. Zero has no sign. -/
def plain (value : Float) : String :=
  let word := Binary64.word value
  let sign := if Binary64.isNegative value && word != 0 then "-" else ""
  if Binary64.infinity < word then "NaN"
  else if word = Binary64.infinity then sign ++ "Infinity"
  else sign ++ String.ofList (plainDigits word)

end Spelling

end Reckon
