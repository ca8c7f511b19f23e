/-
This file proves that the text of a finite double denotes the double. Each grid
that the search for the shortest decimal settles on has a point that reads back,
and the last grid has the double itself; and a decimal written with its digits
around a point denotes the same number as the decimal.
-/

import Mathlib
import Reckon.Proofs.PlainText
import Reckon.Proofs.Rounding

namespace Reckon

namespace Decimal

/-! ### The shortest decimal reads back -/

/-- The word nearest to a decimal. -/
def nearest (decimal : Decimal) : Nat :=
  Binary64.nearest (decimal.coefficient * 10 ^ decimal.exponent.toNat) (10 ^ decimal.decimals)

variable {word : Nat}

theorem nearest_points (finite : word < Binary64.infinity) :
    Binary64.nearest (points word) (10 ^ finest) = word := by
  refine Binary64.nearest_eq_of_steps finite (Nat.pow_pos (by decide)) ?_
  have grid : Binary64.stepsPerUnit = 2 ^ finest := by
    rw [Binary64.stepsPerUnit_eq, finest]
  rw [points, grid, Nat.mul_assoc]
  generalize finest = top
  exact congrArg (_ * ·) (Nat.mul_pow 5 2 top).symm

/-- On the grid with `10 ^ top` points to the unit, every `10 ^ place` of them make a step. -/
theorem mul_ten_pow_shift (coefficient place top : Nat) :
    coefficient * 10 ^ ((place : Int) - (top : Int)).toNat * 10 ^ top =
      coefficient * 10 ^ place * 10 ^ (-((place : Int) - (top : Int))).toNat := by
  have exponents : ((place : Int) - (top : Int)).toNat + top =
      place + (-((place : Int) - (top : Int))).toNat := by
    omega
  rw [Nat.mul_assoc, Nat.mul_assoc, ← Nat.pow_add, ← Nat.pow_add, exponents]

/-- The point of a grid as a decimal. -/
theorem nearest_grid (coefficient place : Nat) :
    nearest ⟨coefficient, (place : Int) - (finest : Int)⟩ =
      Binary64.nearest (coefficient * 10 ^ place) (10 ^ finest) :=
  Binary64.nearest_congr (Nat.pow_pos (by decide)) (Nat.pow_pos (by decide))
    (mul_ten_pow_shift coefficient place finest)

/-- The neighbour that is found serves. -/
theorem serves_of_neighbour {serves : Nat → Bool} {total step count : Nat}
    (found : neighbour? serves total step = some count) : serves (count * step) = true := by
  rw [neighbour?] at found
  cases below : serves (total / step * step) <;>
    cases above : serves ((total / step + 1) * step) <;>
    simp only [below, above, Option.some.injEq, reduceCtorEq] at found
  · rw [← found, above]
  · rw [← found, below]
  · rcases Binary64.nearestWhole_cases total step with same | same
    · rw [← found, same, below]
    · rw [← found, same, above]

theorem nearest_of_readsBack {count : Nat} (serves : readsBack word count = true) :
    Binary64.nearest count (10 ^ finest) = word := by
  -- With the exponent generalized, comparing the two powers does not compute them.
  rw [readsBack, beq_iff_eq] at serves
  generalize finest = top at serves ⊢
  exact serves

/-- A search ends with a word if the word is nearest to all that it may find. -/
theorem nearest_coarsestFrom {found? : Nat → Option Nat} {onFinest : Nat}
    (last : Binary64.nearest onFinest (10 ^ finest) = word)
    (serves : ∀ place coefficient, found? place = some coefficient →
      Binary64.nearest (coefficient * 10 ^ place) (10 ^ finest) = word) (place : Nat) :
    (coarsestFrom found? onFinest place).nearest = word := by
  induction place with
  | zero =>
    have grid := nearest_grid onFinest 0
    rw [Int.natCast_zero, Int.zero_sub, Nat.pow_zero, Nat.mul_one, last] at grid
    exact grid
  | succ place inductionHypothesis =>
    rw [coarsestFrom]
    split
    · next coefficient found =>
      rw [nearest_grid]
      exact serves (place + 1) coefficient found
    · exact inductionHypothesis

/-- Of all doubles the one nearest to a shortest decimal is the one it was found for. -/
theorem nearest_shortest (finite : word < Binary64.infinity) : (shortest word).nearest = word := by
  rw [shortest]
  by_cases zero : word = 0
  · rw [if_pos zero, zero]
    show Binary64.nearest (0 * 10 ^ 0) (10 ^ 0) = 0
    rw [Nat.zero_mul]
    exact Binary64.nearest_zero (by decide)
  · rw [if_neg zero]
    exact nearest_coarsestFrom (nearest_points finite)
      (fun _ _ found => nearest_of_readsBack (serves_of_neighbour found)) _

/-! ### The digits of a decimal -/

variable (decimal : Decimal)

theorem length_fractionChars : decimal.fractionChars.length = decimal.decimals := by
  rw [fractionChars, List.length_append, List.length_replicate, List.length_drop]
  omega

theorem ofDigitChars_digitChars :
    Nat.ofDigitChars 10 decimal.digitChars 0 = decimal.coefficient :=
  Nat.ofDigitChars_ten_toDigits

theorem digitChars_length_pos : 0 < decimal.digitChars.length :=
  Nat.length_toDigits_pos

/-- The digits around the point, taken for one whole number. -/
theorem ofDigitChars_chars :
    Nat.ofDigitChars 10 (decimal.wholeChars ++ decimal.fractionChars) 0 =
      decimal.coefficient * 10 ^ decimal.exponent.toNat := by
  have nonempty := decimal.digitChars_length_pos
  have behind : decimal.decimals = (-decimal.exponent).toNat := rfl
  rw [wholeChars, fractionChars]
  by_cases fewer : decimal.decimals < decimal.digitChars.length
  · have noZeros : decimal.decimals - decimal.digitChars.length = 0 := by omega
    rw [if_pos fewer, noZeros, List.replicate_zero, List.nil_append]
    by_cases whole : decimal.decimals = 0
    · rw [whole, Nat.sub_zero, List.take_length, List.drop_length, List.append_nil,
        Nat.ofDigitChars_append, ofDigitChars_digitChars, Nat.ofDigitChars_replicate_zero,
        Nat.mul_comm]
    · have unscaled : decimal.exponent.toNat = 0 := by omega
      rw [unscaled, List.replicate_zero, List.append_nil, List.take_append_drop,
        ofDigitChars_digitChars, Nat.pow_zero, Nat.mul_one]
  · have unscaled : decimal.exponent.toNat = 0 := by omega
    have all : decimal.digitChars.length - decimal.decimals = 0 := by omega
    have zero : Nat.ofDigitChars 10 ['0'] 0 = 0 := rfl
    rw [if_neg fewer, all, List.drop_zero, Nat.ofDigitChars_append, zero, Nat.ofDigitChars_append,
      Nat.ofDigitChars_replicate_zero, Nat.mul_zero, ofDigitChars_digitChars, unscaled,
      Nat.pow_zero, Nat.mul_one]

/-- The positional form of a decimal denotes the double nearest to it. -/
theorem value_form (negative : Bool) :
    Numeral.value (decimal.form negative).text = Binary64.ofWord negative decimal.nearest := by
  rw [Numeral.Form.value_text]
  show Binary64.ofWord negative (Binary64.nearest
    (Nat.ofDigitChars 10 (decimal.wholeChars ++ decimal.fractionChars) 0)
    (10 ^ decimal.fractionChars.length)) = _
  rw [ofDigitChars_chars, length_fractionChars]
  rfl

end Decimal

/-! ### The text of a double -/

/-- The text of a finite double denotes the double with the same word, the sign kept unless the
double is a zero. -/
theorem reread_eq_ofWord {value : Float} (finite : Binary64.word value < Binary64.infinity) :
    reread value =
      Binary64.ofWord (Binary64.isNegative value && Binary64.word value != 0)
        (Binary64.word value) := by
  rw [reread, Spelling.toList_plain finite, Spelling.form]
  split
  · next whole =>
    have representable : Binary64.steps (Binary64.word value) / Binary64.stepsPerUnit *
        Binary64.stepsPerUnit = Binary64.steps (Binary64.word value) * Nat.pow 10 0 := by
      rw [Nat.pow_eq, Nat.pow_zero, Nat.mul_one, Nat.div_mul_cancel (Nat.dvd_of_mod_eq_zero whole)]
    rw [Numeral.Form.value_text]
    simp only [Numeral.Form.ofWhole, List.append_nil, List.length_nil,
      Nat.ofDigitChars_ten_toDigits,
      Binary64.nearest_eq_of_steps finite (by decide) representable]
  · rw [Decimal.value_form, Decimal.nearest_shortest finite]

end Reckon
