/-
This file says that evaluating a tree always comes to a double, and that a leaf
that is no number leaves no number.

A machine need not divide as the format says: it may refuse a zero divisor. So a
quotient looks at its divisor first and answers by itself where that is zero:
with no number if the dividend is zero or none, and with an infinity otherwise,
whose sign is that of both operands. What is left to the machine it never
refuses, and both ways together are the division of the format. An evaluation on
such a machine therefore comes to the value of the tree, also where the zero is
only the value of an operand far down.
-/

import Reckon.Proofs.Doubles
import Reckon.Proofs.Formula

namespace Reckon

open Float.Model Float.Model.UnpackedFloat

/-! ### What is no number -/

theorem isNaN_iff {value : Float} : value.isNaN = true ↔ value = Float.nan := by
  rw [Float.isNaN_eq_decide_eq_nan, decide_eq_true_iff]

namespace Operator

theorem apply_nan_left (operator : Operator) (second : Float) :
    operator.apply Float.nan second = Float.nan := by
  cases operator <;> rfl

/-- The format looks at the left operand first, so its cases have to be told apart here. -/
theorem apply_nan_right (operator : Operator) (first : Float) :
    operator.apply first Float.nan = Float.nan := by
  cases operator with
  | sum =>
    show Float.ofModel (.pack (UnpackedFloat.add _ first.toModel.unpack .notANumber)) = _
    cases first.toModel.unpack <;> rfl
  | difference =>
    show Float.ofModel (.pack (UnpackedFloat.sub _ first.toModel.unpack .notANumber)) = _
    cases first.toModel.unpack <;> rfl
  | product =>
    show Float.ofModel (.pack (UnpackedFloat.mul _ first.toModel.unpack .notANumber)) = _
    cases first.toModel.unpack <;> rfl
  | quotient =>
    show Float.ofModel (.pack (UnpackedFloat.div _ first.toModel.unpack .notANumber)) = _
    cases first.toModel.unpack <;> rfl

end Operator

/-- What is no number is passed on by every node above it. -/
theorem Formula.evaluate_eq_nan (formula : Formula)
    (none : ∃ value ∈ formula.tree.leaves, value = Float.nan) :
    formula.tree.evaluate = Float.nan := by
  induction formula with
  | leaf value =>
    obtain ⟨_, member, rfl⟩ := none
    rw [tree, Tree.evaluate_leaf]
    exact (List.mem_singleton.mp member).symm
  | node left operator right leftHypothesis rightHypothesis =>
    obtain ⟨value, member, isNone⟩ := none
    rw [tree, Tree.evaluate_node]
    rcases List.mem_append.mp member with onLeft | onRight
    · rw [leftHypothesis ⟨value, onLeft, isNone⟩]
      exact operator.apply_nan_left _
    · rw [rightHypothesis ⟨value, onRight, isNone⟩]
      exact operator.apply_nan_right _

/-! ### Division by zero -/

namespace Binary64

/-- The magnitude of a double with the sign of another. -/
def withSignOf (magnitude sign : Float) : Float :=
  ofWord (isNegative sign) (word magnitude)

theorem toNat_unpackSign (pattern : Pattern) :
    (unpackSign pattern).toNat = pattern.toNat / 2 ^ 63 % 2 := by
  rw [unpackSign, BitVec.toNat_cast, BitVec.extractLsb_toNat, Nat.shiftRight_eq_div_pow]
  rfl

theorem ofBitVec_unpackSign (value : Float) :
    Sign.ofBitVec (@unpackSign Format.binary64 value.toBits.toBitVec) =
      if isNegative value then .negative else .positive := by
  have bound := value.toBits.toNat_lt
  have bit := toNat_unpackSign value.toBits.toBitVec
  rw [UInt64.toNat_toBitVec] at bit
  rw [Sign.ofBitVec, isNegative, Nat.pow_eq]
  by_cases negative : 2 ^ 63 ≤ value.toBits.toNat
  · rw [decide_eq_true negative, if_pos rfl, if_neg]
    intro same
    rw [same, show (0#1).toNat = 0 from rfl] at bit
    omega
  · rw [decide_eq_false negative, if_neg Bool.false_ne_true, if_pos]
    apply BitVec.eq_of_toNat_eq
    rw [bit, show (0#1).toNat = 0 from rfl]
    omega

theorem eq_of_unpack {value : Float} {parts : UnpackedFloat}
    (same : value.toModel.unpack = parts) : value = Float.ofModel (.pack parts) := by
  rw [← same]
  exact (Float.ofBits_toBits value).symm

/-- What is a number other than zero has an infinite quotient by zero. -/
theorem unpack_div_zero (pattern : Pattern) (sign : Sign) :
    UnpackedFloat.unpack Format.binary64 pattern = .notANumber ∨
      (∃ other, UnpackedFloat.unpack Format.binary64 pattern = .zero other) ∨
      UnpackedFloat.div Format.binary64 (UnpackedFloat.unpack Format.binary64 pattern)
        (.zero sign) = .infinity (Sign.ofBitVec (unpackSign pattern) / sign) := by
  fun_cases UnpackedFloat.unpack Format.binary64 pattern with
  | case1 => exact .inr (.inr rfl)
  | case2 => exact .inl rfl
  | case3 => exact .inr (.inl ⟨_, rfl⟩)
  | case4 => exact .inr (.inr rfl)
  | case5 => exact .inr (.inr rfl)

/-- The sign of that quotient is that of both operands. -/
theorem div_ofWord_zero {dividend : Float} (number : dividend ≠ Float.nan)
    (nonzero : (dividend == 0) = false) (negative : Bool) :
    dividend / ofWord negative 0 = ofWord (isNegative dividend ^^ negative) infinity := by
  have zero : (ofWord negative 0).toModel.unpack =
      .zero (if negative then .negative else .positive) := by
    cases negative <;> rfl
  show Float.ofModel (.pack (UnpackedFloat.div _ dividend.toModel.unpack
    (ofWord negative 0).toModel.unpack)) = _
  rw [zero]
  rcases unpack_div_zero dividend.toBits.toBitVec (if negative then .negative else .positive) with
    none | ⟨sign, isZero⟩ | infinite
  · exact absurd (eq_of_unpack none) number
  · rw [eq_of_unpack isZero] at nonzero
    cases sign <;> exact absurd nonzero (by decide +kernel)
  · rw [ofBitVec_unpackSign] at infinite
    refine (congrArg (fun parts => Float.ofModel (.pack parts)) infinite).trans ?_
    cases isNegative dividend <;> cases negative <;> decide +kernel

/-- A double that is equal to zero is one of the two zeros. -/
theorem eq_ofWord_zero {value : Float} (zero : (value == 0) = true) :
    value = ofWord (isNegative value) 0 := by
  obtain ⟨_, _, rfl | ⟨rfl, _⟩ | ⟨rfl, _⟩⟩ := Float.beq_iff_ne_nan_and_eq.mp zero <;>
    decide +kernel

/-- The quotient by zero, put together from what the machine has. -/
theorem div_zero {dividend divisor : Float} (zero : (divisor == 0) = true) :
    dividend / divisor =
      if dividend == 0 || dividend.isNaN then Float.nan
      else withSignOf Float.inf dividend * withSignOf 1 divisor := by
  rw [eq_ofWord_zero zero]
  split
  · next none =>
    rw [Bool.or_eq_true, isNaN_iff] at none
    rcases none with isZero | rfl
    · rw [eq_ofWord_zero isZero]
      cases isNegative dividend <;> cases isNegative divisor <;> decide +kernel
    · rfl
  · next nonzero =>
    rw [Bool.or_eq_true, isNaN_iff, not_or, Bool.not_eq_true] at nonzero
    rw [div_ofWord_zero nonzero.2 nonzero.1, withSignOf, withSignOf]
    cases isNegative dividend <;> cases isNegative divisor <;> decide +kernel

end Binary64

/-! ### A machine that refuses a zero divisor -/

/-- What a machine raises where it has no answer. -/
inductive Trap
  | zeroDivisor

/-- The division of the machine. A zero of either sign is refused, whatever the dividend is. -/
def Binary64.divide (dividend divisor : Float) : Except Trap Float :=
  if divisor == 0 then .error .zeroDivisor else .ok (dividend / divisor)

/-- The arithmetic of the four operators on the machine. A quotient by zero never comes to it. -/
def Operator.perform : Operator → Float → Float → Except Trap Float
  | .sum, first, second => .ok (first + second)
  | .difference, first, second => .ok (first - second)
  | .product, first, second => .ok (first * second)
  | .quotient, dividend, divisor =>
    if divisor == 0 then
      if dividend == 0 || dividend.isNaN then .ok Float.nan
      else .ok (Binary64.withSignOf Float.inf dividend * Binary64.withSignOf 1 divisor)
    else Binary64.divide dividend divisor

/-- The machine has an answer to every operation, and it is that of the format. -/
theorem Operator.perform_eq (operator : Operator) (first second : Float) :
    operator.perform first second = .ok (operator.apply first second) := by
  cases operator with
  | quotient =>
    rw [perform]
    by_cases zero : (second == 0) = true
    · show _ = Except.ok (first / second)
      rw [if_pos zero, Binary64.div_zero zero]
      split <;> rfl
    · rw [if_neg zero, Binary64.divide, if_neg zero]
      rfl
  | _ => rfl

/-- An operation on the machine: that of the operator with its symbol, or a function that is not
one of the four. -/
def Operation.perform (operation : Operation) (first second : Float) : Except Trap Float :=
  match Operator.ofSymbol? operation.symbol with
  | some operator => operator.perform first second
  | none => .ok (operation.apply first second)

theorem Operation.perform_operation (operator : Operator) (first second : Float) :
    operator.operation.perform first second = operator.perform first second := by
  rw [perform, Operator.operation, Operator.ofSymbol?_symbol]

/-- The evaluation of a tree on the machine. A node whose operand has trapped has no value. -/
def Visitor.trapping : Visitor (Except Trap Float) where
  leaf _ value := .ok value
  node _ _ operation _ left right := do operation.perform (← left) (← right)
  closed _ _ := none

theorem Formula.fold_trapping (formula : Formula) (level : Nat) :
    Visitor.trapping.fold level formula.tree = .ok formula.tree.evaluate := by
  induction formula generalizing level with
  | leaf value =>
    rw [tree, Tree.evaluate_leaf]
    rfl
  | node left operator right leftHypothesis rightHypothesis =>
    show Visitor.trapping.node level left.tree operator.operation right.tree
      (Visitor.trapping.fold (level + 1) left.tree)
      (Visitor.trapping.fold (level + 1) right.tree) = _
    rw [leftHypothesis, rightHypothesis, tree, Tree.evaluate_node]
    show operator.operation.perform _ _ = _
    rw [Operation.perform_operation, Operator.perform_eq]
    rfl

/-- The walk over a tree of the four operators comes to a double on a machine whose division
refuses zero, whatever its leaves hold, and this double is the value of the tree. If a leaf is no
number, then neither is the value. -/
theorem Formula.evaluation_never_traps (formula : Formula) :
    Visitor.trapping.walk formula.tree = .ok formula.tree.evaluate ∧
      ((∃ value ∈ formula.tree.leaves, value.isNaN = true) →
        formula.tree.evaluate.isNaN = true) := by
  constructor
  · rw [Visitor.walk_eq_fold]
    exact formula.fold_trapping 0
  · simp only [isNaN_iff]
    exact formula.evaluate_eq_nan

/-- In `nan / (2 - 2)` the divisor is a zero that no leaf holds, and the quotient is no infinity. -/
theorem Formula.evaluation_never_traps_by_difference :
    Visitor.trapping.walk (node (.leaf Float.nan) .quotient
        (.node (.leaf 2) .difference (.leaf 2))).tree =
      .ok (node (.leaf Float.nan) .quotient (.node (.leaf 2) .difference (.leaf 2))).tree.evaluate ∧
    (node (.leaf Float.nan) .quotient
      (.node (.leaf 2) .difference (.leaf 2))).tree.evaluate.isNaN = true := by
  obtain ⟨answered, passed⟩ := evaluation_never_traps
    (node (.leaf Float.nan) .quotient (.node (.leaf 2) .difference (.leaf 2)))
  exact ⟨answered, passed ⟨Float.nan, List.mem_cons_self, by decide⟩⟩

end Reckon
