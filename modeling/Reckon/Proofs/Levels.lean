/-
This file says what lies at a level of a tree. The list of places still to see
is gone over from the front, and each place adds the parts of its own tree: the
tree itself at level zero, nothing below a leaf, and below a node what its left
and its right operand have one level less far down.
-/

import Reckon.Tree.Level

namespace Reckon.Tree

variable {Leaf : Type}

/-- The parts of a tree so many steps down, from left to right. -/
def partsAt : Tree Leaf → Nat → List (Tree Leaf)
  | tree, 0 => [tree]
  | .leaf _, _ + 1 => []
  | .node left _ right, target + 1 => left.partsAt target ++ right.partsAt target

@[simp] theorem partsAt_zero (tree : Tree Leaf) : tree.partsAt 0 = [tree] := by
  cases tree <;> rfl

@[simp] theorem partsAt_leaf (value : Leaf) (target : Nat) :
    (leaf value).partsAt (target + 1) = [] := rfl

@[simp] theorem partsAt_node (left : Tree Leaf) (operation : Operation) (right : Tree Leaf)
    (target : Nat) :
    (node left operation right).partsAt (target + 1) =
      left.partsAt target ++ right.partsAt target := rfl

theorem atLevel_here (target : Nat) (tree : Tree Leaf) (places : List (Tree Leaf × Nat)) :
    atLevel target ((tree, target) :: places) = tree :: atLevel target places := by
  cases tree <;> rw [atLevel, if_pos rfl]

/-- A place that is not yet past the level adds its own parts in front of the others. -/
theorem atLevel_cons (tree : Tree Leaf) (steps level : Nat) (places : List (Tree Leaf × Nat)) :
    atLevel (level + steps) ((tree, level) :: places) =
      tree.partsAt steps ++ atLevel (level + steps) places := by
  induction steps generalizing tree level places with
  | zero => rw [Nat.add_zero, atLevel_here, partsAt_zero, List.singleton_append]
  | succ steps inductionHypothesis =>
    cases tree with
    | leaf value =>
      rw [atLevel, if_neg (by omega)]
      rfl
    | node left operation right =>
      have below : level + (steps + 1) = level + 1 + steps := by omega
      rw [atLevel, if_neg (by omega)]
      simp only [below, inductionHypothesis, partsAt_node, List.append_assoc]

theorem level_eq_partsAt (tree : Tree Leaf) (target : Nat) :
    tree.level target = tree.partsAt target := by
  rw [level]
  cases target with
  | zero => rw [if_pos (by omega), partsAt_zero]
  | succ target =>
    have single := tree.atLevel_cons (target + 1) 0 []
    rw [Nat.zero_add, atLevel, List.append_nil] at single
    rw [if_neg (by omega), Int.toNat_natCast, single]

/-- Nothing lies below the height of a tree, and something at each level above. -/
theorem partsAt_eq_nil_iff (tree : Tree Leaf) (target : Nat) :
    tree.partsAt target = [] ↔ tree.height < target := by
  induction tree generalizing target with
  | leaf value => cases target <;> simp [height]
  | node left operation right leftHypothesis rightHypothesis =>
    cases target with
    | zero => simp
    | succ target =>
      rw [partsAt_node, List.append_eq_nil_iff, leftHypothesis, rightHypothesis, height]
      omega

/-- What holds of a tree and goes from nodes to their operands holds of all parts of it. -/
theorem forall_mem_partsAt (condition : Tree Leaf → Prop)
    (inherited : ∀ left operation right, condition (node left operation right) →
      condition left ∧ condition right)
    {tree : Tree Leaf} (holds : condition tree) (target : Nat) :
    ∀ part ∈ tree.partsAt target, condition part := by
  induction tree generalizing target with
  | leaf value =>
    cases target with
    | zero => simpa using holds
    | succ target => simp
  | node left operation right leftHypothesis rightHypothesis =>
    cases target with
    | zero => simpa using holds
    | succ target =>
      obtain ⟨onLeft, onRight⟩ := inherited left operation right holds
      rw [partsAt_node]
      exact List.forall_mem_append.mpr
        ⟨leftHypothesis onLeft target, rightHypothesis onRight target⟩

end Reckon.Tree
