/-
This file ties doubles to their words. A double is its 64 bits; of the many
patterns that stand for no number it only ever has one. So a double is its sign
and its word, and the exponent in the word tells whether it is finite.
-/

import Mathlib
import Reckon.Proofs.Rounding

namespace Reckon.Binary64

open Float.Model Float.Model.UnpackedFloat

/-- The pattern of 64 bits in its three parts. -/
abbrev Pattern := BitVec Format.binary64.numBits

theorem toNat_unpackExponent (pattern : Pattern) :
    (unpackExponent pattern).toNat = pattern.toNat / 2 ^ 52 % 2 ^ 11 := by
  rw [unpackExponent, BitVec.toNat_cast, BitVec.extractLsb_toNat, Nat.shiftRight_eq_div_pow]
  rfl

/-- What is no finite number has the topmost exponent. -/
theorem isFinite_unpack_iff (pattern : Pattern) :
    (UnpackedFloat.unpack Format.binary64 pattern).isFinite = true ↔
      (unpackExponent pattern).toNat ≠ 2047 := by
  have topmost_iff : unpackExponent pattern = -1#_ ↔ (unpackExponent pattern).toNat = 2047 :=
    ⟨fun same => congrArg BitVec.toNat same, fun same => BitVec.eq_of_toNat_eq same⟩
  rw [Ne, ← topmost_iff, UnpackedFloat.unpack]
  by_cases topmost : unpackExponent pattern = -1#_
  · rw [if_pos topmost]
    refine iff_of_false ?_ fun other => other topmost
    split <;> exact Bool.false_ne_true
  · rw [if_neg topmost]
    refine iff_of_true ?_ topmost
    split
    · split <;> rfl
    · rfl

/-- A finite double has a finite word. -/
theorem word_lt_infinity_iff (value : Float) : word value < infinity ↔ value.isFinite = true := by
  have finite : value.isFinite = true ↔ value.toBits.toNat / 2 ^ 52 % 2 ^ 11 ≠ 2047 := by
    have exponent := toNat_unpackExponent value.toBits.toBitVec
    rw [UInt64.toNat_toBitVec] at exponent
    rw [← exponent]
    exact isFinite_unpack_iff value.toBits.toBitVec
  rw [finite, word, infinity_eq, Nat.pow_eq]
  omega

/-- A double is its sign and its word. -/
theorem ofWord_word (value : Float) : ofWord (isNegative value) (word value) = value := by
  have bits : (if isNegative value then Nat.pow 2 63 + word value else word value) =
      value.toBits.toNat := by
    have bound := value.toBits.toNat_lt
    rw [isNegative, word, Nat.pow_eq]
    split <;> rename_i sign <;> rw [decide_eq_true_iff] at sign <;> omega
  rw [ofWord, bits, UInt64.ofNat_toNat, Float.ofBits_toBits]

/-- Only minus zero has a sign and the word zero. -/
theorem eq_negative_zero {value : Float} (negative : isNegative value = true)
    (zero : word value = 0) : value = -0.0 := by
  rw [← ofWord_word value, negative, zero]
  decide +kernel

end Reckon.Binary64
