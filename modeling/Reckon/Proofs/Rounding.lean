/-
This file proves what the project needs to know of its one rounding. It sees a
quotient, not how the quotient is written; and a quotient that is the magnitude
of a finite word is rounded to that word. A whole number is rounded to an infinity
from half of a step below the first power of two that is out of range.
-/

import Mathlib
import Reckon.Binary64

namespace Reckon.Binary64

theorem infinity_eq : infinity = 2047 * 2 ^ 52 := rfl

theorem powerOfTwo_eq (exponent : Nat) : powerOfTwo exponent = 2 ^ exponent := rfl

theorem stepsPerUnit_eq : stepsPerUnit = 2 ^ 1074 := powerOfTwo_eq 1074

theorem steps_eq (word : Nat) :
    steps word =
      if word < 2 ^ 52 then word else (2 ^ 52 + word % 2 ^ 52) * 2 ^ (word / 2 ^ 52 - 1) :=
  rfl

theorem nearest_eq (numerator denominator : Nat) :
    nearest numerator denominator =
      min infinity
        (((numerator * stepsPerUnit / denominator).log2 + 1 - 53) * 2 ^ 52 +
          nearestWhole (numerator * stepsPerUnit)
            (denominator * 2 ^ ((numerator * stepsPerUnit / denominator).log2 + 1 - 53))) :=
  rfl

/-! ### The nearest whole number -/

theorem nearestWhole_mul_right (numerator denominator : Nat) {factor : Nat}
    (positive : 0 < factor) :
    nearestWhole (numerator * factor) (denominator * factor) =
      nearestWhole numerator denominator := by
  have below : 2 * (numerator % denominator * factor) < denominator * factor ↔
      2 * (numerator % denominator) < denominator := by
    rw [← Nat.mul_assoc, Nat.mul_lt_mul_right positive]
  have above : denominator * factor < 2 * (numerator % denominator * factor) ↔
      denominator < 2 * (numerator % denominator) := by
    rw [← Nat.mul_assoc, Nat.mul_lt_mul_right positive]
  simp only [nearestWhole, Nat.mul_div_mul_right _ _ positive, Nat.mul_mod_mul_right, below, above]

/-- A whole number is nearest to itself. -/
theorem nearestWhole_mul_self (whole : Nat) {denominator : Nat} (positive : 0 < denominator) :
    nearestWhole (whole * denominator) denominator = whole := by
  rw [nearestWhole, Nat.mul_div_cancel _ positive, Nat.mul_mod_left, if_pos positive]

/-- The nearest whole number is one of the two neighbours. -/
theorem nearestWhole_cases (numerator denominator : Nat) :
    nearestWhole numerator denominator = numerator / denominator ∨
      nearestWhole numerator denominator = numerator / denominator + 1 := by
  rw [nearestWhole]
  split
  · exact .inl rfl
  · split
    · exact .inr rfl
    · have parity := Nat.mod_two_eq_zero_or_one (numerator / denominator)
      omega

/-- A whole number above an odd one is nearest as soon as half of the step up to it is passed. -/
theorem lt_nearestWhole_iff {numerator denominator below : Nat} (positive : 0 < denominator)
    (odd : below % 2 = 1) :
    below < nearestWhole numerator denominator ↔
      (2 * below + 1) * denominator ≤ 2 * numerator := by
  have split := Nat.div_add_mod numerator denominator
  have small := Nat.mod_lt numerator positive
  rcases Nat.lt_trichotomy below (numerator / denominator) with less | same | more
  · have reached : (below + 1) * denominator ≤ denominator * (numerator / denominator) := by
      rw [Nat.mul_comm denominator]
      exact Nat.mul_le_mul_right _ less
    refine iff_of_true ?_ ?_
    · rcases nearestWhole_cases numerator denominator with same | same <;> omega
    · rw [Nat.add_mul, Nat.one_mul] at reached
      rw [Nat.add_mul, Nat.mul_assoc]
      omega
  · subst same
    have bound : (2 * (numerator / denominator) + 1) * denominator ≤ 2 * numerator ↔
        denominator ≤ 2 * (numerator % denominator) := by
      rw [Nat.add_mul, Nat.mul_assoc, Nat.mul_comm (numerator / denominator)]
      omega
    rw [bound, nearestWhole]
    split
    · omega
    · split <;> omega
  · have missed : denominator * (numerator / denominator + 1) ≤ below * denominator := by
      rw [Nat.mul_comm below]
      exact Nat.mul_le_mul_left _ more
    refine iff_of_false ?_ ?_
    · rcases nearestWhole_cases numerator denominator with same | same <;> omega
    · rw [Nat.mul_add] at missed
      rw [Nat.add_mul, Nat.mul_assoc]
      omega

/-! ### The nearest word -/

theorem nearest_mul_right (numerator denominator : Nat) {factor : Nat} (positive : 0 < factor) :
    nearest (numerator * factor) (denominator * factor) = nearest numerator denominator := by
  have scaled : numerator * factor * stepsPerUnit = numerator * stepsPerUnit * factor :=
    Nat.mul_right_comm _ _ _
  have spread (excess : Nat) :
      denominator * factor * 2 ^ excess = denominator * 2 ^ excess * factor :=
    Nat.mul_right_comm _ _ _
  simp only [nearest_eq, scaled, spread, Nat.mul_div_mul_right _ _ positive,
    nearestWhole_mul_right _ _ positive]

/-- Equal quotients are rounded to the same word. -/
theorem nearest_congr {numerator denominator numerator' denominator' : Nat}
    (positive : 0 < denominator) (positive' : 0 < denominator')
    (same : numerator * denominator' = numerator' * denominator) :
    nearest numerator denominator = nearest numerator' denominator' := by
  rw [← nearest_mul_right numerator denominator positive', same,
    ← nearest_mul_right numerator' denominator' positive, Nat.mul_comm denominator]

/-- A whole number of steps of at most 53 digits, and what is to be added to it for its word. -/
theorem steps_eq_digits (word : Nat) :
    ∃ whole, steps word = whole * 2 ^ ((steps word).log2 + 1 - 53) ∧
      ((steps word).log2 + 1 - 53) * 2 ^ 52 + whole = word := by
  rw [steps_eq]
  by_cases subnormal : word < 2 ^ 52
  · have short : word.log2 < 52 := by
      by_cases zero : word = 0
      · rw [zero]
        decide
      · exact (Nat.log2_lt zero).mpr subnormal
    have none : word.log2 + 1 - 53 = 0 := by omega
    rw [if_pos subnormal, none]
    exact ⟨word, by omega, by omega⟩
  · have nonzero : (2 ^ 52 + word % 2 ^ 52) * 2 ^ (word / 2 ^ 52 - 1) ≠ 0 :=
      Nat.mul_ne_zero (by omega) (Nat.ne_of_gt (Nat.two_pow_pos _))
    have log : ((2 ^ 52 + word % 2 ^ 52) * 2 ^ (word / 2 ^ 52 - 1)).log2 =
        52 + (word / 2 ^ 52 - 1) := by
      rw [Nat.log2_eq_iff nonzero, Nat.add_right_comm, Nat.pow_add, Nat.pow_add]
      exact ⟨Nat.mul_le_mul_right _ (Nat.le_add_right _ _),
        Nat.mul_lt_mul_of_pos_right (by omega) (Nat.two_pow_pos _)⟩
    have excess : 52 + (word / 2 ^ 52 - 1) + 1 - 53 = word / 2 ^ 52 - 1 := by omega
    rw [if_neg subnormal, log, excess]
    exact ⟨2 ^ 52 + word % 2 ^ 52, rfl, by omega⟩

/-- A quotient that is the magnitude of a finite word is rounded to this word. -/
theorem nearest_eq_of_steps {word numerator denominator : Nat} (finite : word < infinity)
    (positive : 0 < denominator)
    (representable : numerator * stepsPerUnit = steps word * denominator) :
    nearest numerator denominator = word := by
  obtain ⟨whole, split, sum⟩ := steps_eq_digits word
  generalize excess : (steps word).log2 + 1 - 53 = count at split sum
  have quotient : steps word * denominator / denominator = steps word :=
    Nat.mul_div_cancel _ positive
  have spread : steps word * denominator = whole * (denominator * 2 ^ count) := by
    rw [split, Nat.mul_assoc, Nat.mul_comm (2 ^ count)]
  have wide : 0 < denominator * 2 ^ count := Nat.mul_pos positive (Nat.two_pow_pos count)
  rw [nearest_eq, representable, quotient, excess, spread, nearestWhole_mul_self whole wide, sum]
  exact Nat.min_eq_right (Nat.le_of_lt finite)

theorem nearest_zero {denominator : Nat} (positive : 0 < denominator) :
    nearest 0 denominator = 0 := by
  refine nearest_eq_of_steps (by decide) positive ?_
  rw [Nat.zero_mul]
  exact (Nat.zero_mul denominator).symm

/-! ### Whole numbers out of range -/

theorem log2_mul_two_pow {whole : Nat} (positive : whole ≠ 0) (exponent : Nat) :
    (whole * 2 ^ exponent).log2 = whole.log2 + exponent := by
  refine (Nat.log2_eq_iff (Nat.mul_ne_zero positive (Nat.ne_of_gt (Nat.two_pow_pos _)))).mpr ?_
  rw [Nat.pow_add, Nat.add_right_comm, Nat.pow_add]
  exact ⟨Nat.mul_le_mul_right _ (Nat.log2_self_le positive),
    Nat.mul_lt_mul_of_pos_right Nat.lt_log2_self (Nat.two_pow_pos _)⟩

section
variable {whole places width : Nat}

/-- The word of a positive whole number is that of its highest digit and of its digits behind it. -/
theorem nearest_one (positive : whole ≠ 0) (unit : width = 1074) (kept : 52 + places = width) :
    nearest whole 1 =
      min infinity ((whole.log2 + places) * 2 ^ 52 +
        nearestWhole (whole * 2 ^ width) (2 ^ (whole.log2 + places))) := by
  have log : (whole * 2 ^ width / 1).log2 = whole.log2 + width := by
    rw [Nat.div_one, log2_mul_two_pow positive]
  have excess : whole.log2 + width + 1 - 53 = whole.log2 + places := by omega
  rw [nearest_eq, stepsPerUnit_eq, ← unit, log, excess, Nat.one_mul]

/-- The digits kept of a whole number are 53, but for the one more that rounding may make. -/
theorem nearestWhole_log2_bounds (positive : whole ≠ 0) (kept : 52 + places = width) :
    2 ^ 52 ≤ nearestWhole (whole * 2 ^ width) (2 ^ (whole.log2 + places)) ∧
      nearestWhole (whole * 2 ^ width) (2 ^ (whole.log2 + places)) ≤ 2 ^ 53 := by
  have low : 2 ^ 52 ≤ whole * 2 ^ width / 2 ^ (whole.log2 + places) := by
    rw [Nat.le_div_iff_mul_le (Nat.two_pow_pos _), ← Nat.pow_add,
      show 52 + (whole.log2 + places) = whole.log2 + width by omega, Nat.pow_add]
    exact Nat.mul_le_mul_right _ (Nat.log2_self_le positive)
  have high : whole * 2 ^ width / 2 ^ (whole.log2 + places) < 2 ^ 53 := by
    rw [Nat.div_lt_iff_lt_mul (Nat.two_pow_pos _), ← Nat.pow_add,
      show 53 + (whole.log2 + places) = whole.log2 + 1 + width by omega, Nat.pow_add]
    exact Nat.mul_lt_mul_of_pos_right Nat.lt_log2_self (Nat.two_pow_pos _)
  rcases nearestWhole_cases (whole * 2 ^ width) (2 ^ (whole.log2 + places)) with same | same <;>
    rw [same] <;> omega

end

/-- The whole numbers that are rounded to an infinity: they begin half of a step below the first
power of two that is out of range. -/
theorem nearest_one_lt_infinity_iff (whole : Nat) :
    nearest whole 1 < infinity ↔ whole < 2 ^ 1024 - 2 ^ 970 := by
  -- The exponents get names, so that no power of them is computed.
  rw [show 1024 = 970 + 54 by decide]
  obtain ⟨width, unit⟩ : ∃ width, width = 1074 := ⟨_, rfl⟩
  generalize half : 970 = place
  have powers (more : Nat) : 2 ^ (place + more) = 2 ^ more * 2 ^ place := by
    rw [Nat.add_comm, Nat.pow_add]
  have some : 0 < 2 ^ place := Nat.two_pow_pos _
  rw [powers 54]
  by_cases zero : whole = 0
  · rw [zero, nearest_zero Nat.one_pos]
    exact iff_of_true (by decide) (by omega)
  obtain ⟨low, high⟩ := nearestWhole_log2_bounds zero (show 52 + 1022 = width by omega)
  rw [nearest_one zero unit (show 52 + 1022 = width by omega), infinity_eq]
  rcases Nat.lt_trichotomy whole.log2 (place + 53) with less | same | more
  · have bound := (Nat.log2_lt zero).mp less
    rw [powers 53] at bound
    exact iff_of_true (by omega) (by omega)
  · -- The digits are those in front of the last 971, rounded by these.
    have parts : 2 ^ (place + 53 + 1022) = 2 ^ 1 * 2 ^ place * 2 ^ width := by
      rw [← powers, ← Nat.pow_add]
      congr 1
      omega
    have wide : 0 < 2 ^ 1 * 2 ^ place := Nat.mul_pos Nat.two_pos some
    have last := @lt_nearestWhole_iff whole _ _ wide (show (2 ^ 53 - 1) % 2 = 1 by decide)
    rw [same, parts, nearestWhole_mul_right _ _ (Nat.two_pow_pos _)] at high ⊢
    omega
  · have bound : 2 ^ (place + 54) ≤ whole :=
      Nat.le_trans (Nat.pow_le_pow_right Nat.two_pos more) (Nat.log2_self_le zero)
    rw [powers 54] at bound
    exact iff_of_false (by omega) (by omega)

/-- The whole numbers that no double can hold. -/
theorem ofInt?_eq_none_iff (value : Int) :
    ofInt? value = none ↔ 2 ^ 1024 - 2 ^ 970 ≤ value.natAbs := by
  rw [← Nat.not_lt, ← nearest_one_lt_infinity_iff, ofInt?]
  split <;> simp_all

end Reckon.Binary64
