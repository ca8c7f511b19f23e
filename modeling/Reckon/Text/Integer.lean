/-
This file reads whole numbers from free text and writes them. A text that is
read may have blanks around it, one sign, and digits of any script, with single
underscores between them. The number of digits is limited both ways, so that
reading and writing stay quick.
-/

import Reckon.Text.Blank
import Reckon.Text.DecimalDigit

namespace Reckon.Text

/-- The most digits a whole number may have. -/
def digitLimit : Nat := 4300

/-! ### Reading -/

/-- The blanks that may stand around a whole number: all but the four control characters that
separate records. -/
def isIntegerMargin (char : Char) : Bool :=
  isBlank char && !(0x1c ≤ char.toNat && char.toNat ≤ 0x1f)

/-- The values of a run of digits. An underscore needs a digit on either side. -/
def digitRun? : List Char → Option (List Nat)
  | [] => none
  | [char] => (decimalDigit? char).map ([·])
  | char :: '_' :: rest => do return (← decimalDigit? char) :: (← digitRun? rest)
  | char :: rest => do return (← decimalDigit? char) :: (← digitRun? rest)

/-- The whole number that a run of digits denotes, if it is not too long. -/
def natural? (run : List Char) : Option Nat := do
  let digits ← digitRun? run
  if digits.length ≤ digitLimit then
    return digits.foldl (fun sum digit => 10 * sum + digit) 0
  else none

/-- The whole number that a text denotes. -/
def integer? (text : String) : Option Int :=
  match trim isIntegerMargin text.toList with
  | '-' :: run => (natural? run).map fun value => -(value : Int)
  | '+' :: run => (natural? run).map Int.ofNat
  | run => (natural? run).map Int.ofNat

/-! ### Writing -/

/-- The one thing that can go wrong when a whole number is written. -/
inductive DigitError
  | tooMany

def DigitError.message : DigitError → String
  | .tooMany =>
    "Exceeds the limit (" ++ toString digitLimit ++ " digits) for integer string conversion; " ++
      "use sys.set_int_max_str_digits() to increase the limit"

/-- The text of a whole number. -/
def decimal (value : Int) : Except DigitError String :=
  if (toString value.natAbs).length ≤ digitLimit then .ok (toString value) else .error .tooMany

end Reckon.Text
