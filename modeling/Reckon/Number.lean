/-
This file holds the numbers that callers hand in: whole numbers of any size
and doubles. A tree stores doubles only, and a whole number beyond their range
has no place in it.
-/

import Reckon.Spelling
import Reckon.Text.Integer

namespace Reckon

inductive Number
  | whole (value : Int)
  | double (value : Float)

namespace Number

/-- The one thing that can go wrong when a number becomes a double. -/
inductive ConversionError
  | tooLarge

def ConversionError.message : ConversionError → String
  | .tooLarge => "int too large to convert to float"

/-- The double nearest to a number. -/
def toDouble : Number → Except ConversionError Float
  | .double value => .ok value
  | .whole value =>
    match Binary64.ofInt? value with
    | some rounded => .ok rounded
    | none => .error .tooLarge

/-- A number as expressions write it. -/
def plain : Number → Except Text.DigitError String
  | .whole value => Text.decimal value
  | .double value => .ok (Spelling.plain value)

/-- A number as messages write it. -/
def literal : Number → Except Text.DigitError String
  | .whole value => Text.decimal value
  | .double value => .ok (Spelling.literal.write value)

end Number

end Reckon
