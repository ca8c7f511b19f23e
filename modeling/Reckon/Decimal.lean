/-
This file holds decimal numbers and the shortest decimal of a double.

A decimal of a double has to read back: among all doubles, the one nearest to
it must be the double it was written for. On a coarse grid of decimals no
point does, on a fine one several do. The search goes from coarse to fine and
stops at the first grid with a point that reads back; of the two neighbours of
the double on that grid it takes the nearer, and the even one at a tie. It
cannot fail, because every finite double is a point of the finest grid.
-/

import Reckon.Binary64

namespace Reckon

/-- The number `coefficient * 10 ^ exponent`. -/
structure Decimal where
  coefficient : Nat
  exponent : Int

namespace Decimal

/-! ### The finest grid -/

/-- The finest grid of decimals has `10 ^ finest` points to the unit. -/
def finest : Nat := 1074

/-- The magnitude of a finite word, counted in points of the finest grid. -/
def points (word : Nat) : Nat :=
  Binary64.steps word * Nat.pow 5 finest

/-- Whether so many points of the finest grid read back as a word. -/
def readsBack (word count : Nat) : Bool :=
  Binary64.nearest count (Nat.pow 10 finest) == word

/-! ### The search -/

/-- Of the two multiples of a step around a total, the one that serves; the nearer one where both
do. The answer counts the steps. -/
def neighbour? (serves : Nat → Bool) (total step : Nat) : Option Nat :=
  let below := total / step
  match serves (below * step), serves ((below + 1) * step) with
  | true, true => some (Binary64.nearestWhole total step)
  | true, false => some below
  | false, true => some (below + 1)
  | false, false => none

/-- On the grid whose step is `10 ^ place` points of the finest one, the neighbour of a
magnitude that reads back. -/
def onGrid? (word place : Nat) : Option Nat :=
  neighbour? (readsBack word) (points word) (Nat.pow 10 place)

/-- The first grid that serves, going from a step of `10 ^ place` down, if it is known what each
grid but the finest finds. The finest serves always. -/
def coarsestFrom (found? : Nat → Option Nat) (onFinest : Nat) : Nat → Decimal
  | 0 => ⟨onFinest, -finest⟩
  | place + 1 =>
    match found? (place + 1) with
    | some coefficient => ⟨coefficient, (place + 1 : Nat) - (finest : Int)⟩
    | none => coarsestFrom found? onFinest place

/-- The decimal with the fewest digits that reads back as a finite word. The search starts at a
grid whose step is already greater than the magnitude; zero is on every grid and needs none. -/
def shortest (word : Nat) : Decimal :=
  if word = 0 then ⟨0, 0⟩
  else coarsestFrom (onGrid? word) (points word)
    (finest + (Nat.toDigits 10 (Binary64.steps word / Binary64.stepsPerUnit)).length)

/-! ### Written forms -/

/-- The digits of a decimal. -/
def digitChars (decimal : Decimal) : List Char :=
  Nat.toDigits 10 decimal.coefficient

/-- How many digits of a decimal stand behind the point. -/
def decimals (decimal : Decimal) : Nat :=
  (-decimal.exponent).toNat

/-- The power of ten of the first digit. -/
def leadingExponent (decimal : Decimal) : Int :=
  decimal.digitChars.length - 1 + decimal.exponent

/-- The digits in front of the point, filled up with zeros to at least one. -/
def wholeChars (decimal : Decimal) : List Char :=
  if decimal.decimals < decimal.digitChars.length then
    decimal.digitChars.take (decimal.digitChars.length - decimal.decimals) ++
      List.replicate decimal.exponent.toNat '0'
  else ['0']

/-- The digits behind the point, filled up with zeros from the point on. -/
def fractionChars (decimal : Decimal) : List Char :=
  List.replicate (decimal.decimals - decimal.digitChars.length) '0' ++
    decimal.digitChars.drop (decimal.digitChars.length - decimal.decimals)

/-- The digits with the point among them, and no point when none stand behind it. -/
def positional (decimal : Decimal) : List Char :=
  match decimal.fractionChars with
  | [] => decimal.wholeChars
  | fraction => decimal.wholeChars ++ '.' :: fraction

end Decimal

end Reckon
