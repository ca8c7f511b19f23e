/-
This file reads the binary64 format through whole numbers.

A double without its sign bit is a word, and words are ordered as the
magnitudes they stand for. Every finite magnitude is a whole number of equal
steps, `2 ^ 1074` of them to the unit, so a magnitude is compared, multiplied
and rounded in whole-number arithmetic and nothing is lost on the way. The
one rounding of the project, from a quotient to the nearest word, is here:
numerals are read with it, and the search for the shortest decimal asks it
whether a candidate reads back.
-/

namespace Reckon.Binary64

/-! ### Words and the magnitudes they stand for -/

/-- The word of an infinite magnitude. Smaller words are finite, and a larger one stands for
no number at all. -/
def infinity : Nat := 2047 * Nat.pow 2 52

/-- The number `2 ^ exponent`, under a name so that nothing computes a large one to compare it. -/
def powerOfTwo (exponent : Nat) : Nat := Nat.pow 2 exponent

/-- How many steps of the finest grid make a unit. -/
def stepsPerUnit : Nat := powerOfTwo 1074

/-- The magnitude of a finite word, counted in steps. Below `2 ^ 52` the word is the count;
above, every block of `2 ^ 52` words is twice as coarse as the block before it. -/
def steps (word : Nat) : Nat :=
  if word < Nat.pow 2 52 then word
  else (Nat.pow 2 52 + word % Nat.pow 2 52) * Nat.pow 2 (word / Nat.pow 2 52 - 1)

/-! ### Rounding -/

/-- The whole number nearest to a quotient; a half goes to the even neighbour. -/
def nearestWhole (numerator denominator : Nat) : Nat :=
  let below := numerator / denominator
  let rest := numerator % denominator
  if 2 * rest < denominator then below
  else if denominator < 2 * rest then below + 1
  else below + below % 2

/-- The word nearest to a quotient; a half goes to the even word.

A word holds 53 binary digits of its magnitude. `excess` counts the digits of the quotient
that do not fit: rounding to a multiple of `2 ^ excess` steps leaves a whole number of at most
53 digits, or `2 ^ 53` itself, and either way `excess` blocks further up is its word. -/
def nearest (numerator denominator : Nat) : Nat :=
  let excess := (numerator * stepsPerUnit / denominator).log2 + 1 - 53
  min infinity
    (excess * Nat.pow 2 52 +
      nearestWhole (numerator * stepsPerUnit) (denominator * Nat.pow 2 excess))

/-! ### Doubles -/

/-- The double with a sign and a word. -/
def ofWord (negative : Bool) (word : Nat) : Float :=
  Float.ofBits (UInt64.ofNat (if negative then Nat.pow 2 63 + word else word))

/-- The word of a double. -/
def word (value : Float) : Nat :=
  value.toBits.toNat % Nat.pow 2 63

/-- Whether the sign bit of a double is set, which it is for minus zero too. -/
def isNegative (value : Float) : Bool :=
  Nat.pow 2 63 ≤ value.toBits.toNat

/-- The double nearest to a whole number, or nothing when that double is infinite. -/
def ofInt? (value : Int) : Option Float :=
  let rounded := nearest value.natAbs 1
  if rounded < infinity then some (ofWord (value < 0) rounded) else none

end Reckon.Binary64
