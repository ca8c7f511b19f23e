/-
This file says what a stage of a reduction writes. It is the expression of
another tree: the tree cut off at a level, with a leaf in the place of each node
there that holds the value of that node. A cut changes no value, so all stages
are expressions of trees with the same value, and they go from the tree itself
down to its value.

The reduction never builds the tree that is cut off. It asks for brackets by
the priorities of the operands as they were, and leaves all brackets out at the
last level it opens. That this comes to the same is `operandText_cut`.
-/

import Reckon.Tree.Reduction

namespace Reckon

namespace Tree

/-! ### Depth -/

variable {Leaf : Type}

/-- A tree among others counts with the level of its deepest leaf. -/
theorem deepest_cons (tree : Tree Leaf) (level : Int) (places : List (Tree Leaf × Int))
    (greatest : Int) :
    deepest ((tree, level) :: places) greatest =
      deepest places (max greatest (level + tree.height)) := by
  induction tree generalizing level places greatest with
  | leaf value => rw [deepest, height, Int.ofNat_zero, Int.add_zero]
  | node left operation right leftHypothesis rightHypothesis =>
    rw [deepest, rightHypothesis, leftHypothesis, height]
    refine congrArg _ ?_
    omega

/-- The base is one level above the root. -/
theorem depthBelow_eq (tree : Tree Leaf) (base : Int) :
    tree.depthBelow base = base + 1 + tree.height := by
  rw [depthBelow, deepest_cons, deepest]
  omega

theorem depth_eq_height (tree : Tree Leaf) : tree.depth = tree.height := by
  rw [depth, depthBelow_eq]
  omega

/-! ### Cutting a tree off -/

/-- The tree with its nodes from a level on replaced by their values. The root is at level
zero. -/
def cut : Expression → Int → Expression
  | .leaf value, _ => .leaf value
  | .node left operation right, resolved =>
    if resolved ≤ 0 then .leaf (node left operation right).evaluate
    else .node (left.cut (resolved - 1)) operation (right.cut (resolved - 1))

theorem cut_node {resolved : Int} (positive : 0 < resolved) (left : Expression)
    (operation : Operation) (right : Expression) :
    (node left operation right).cut resolved =
      .node (left.cut (resolved - 1)) operation (right.cut (resolved - 1)) := by
  rw [cut, if_neg (by omega)]

/-- Above all nodes there is nothing but the value. -/
theorem cut_of_nonpos {resolved : Int} (none : resolved ≤ 0) (tree : Expression) :
    tree.cut resolved = .leaf tree.evaluate := by
  cases tree with
  | leaf value => rw [cut, evaluate_leaf]
  | node left operation right => rw [cut, if_pos none]

/-- Below all nodes there is nothing to cut off. -/
theorem cut_of_height_le {tree : Expression} {resolved : Int}
    (all : (tree.height : Int) ≤ resolved) : tree.cut resolved = tree := by
  induction tree generalizing resolved with
  | leaf value => rfl
  | node left operation right leftHypothesis rightHypothesis =>
    rw [height] at all
    rw [cut_node (by omega), leftHypothesis (by omega), rightHypothesis (by omega)]

theorem evaluate_cut (tree : Expression) (resolved : Int) :
    (tree.cut resolved).evaluate = tree.evaluate := by
  induction tree generalizing resolved with
  | leaf value => rfl
  | node left operation right leftHypothesis rightHypothesis =>
    by_cases none : resolved ≤ 0
    · rw [cut_of_nonpos none, evaluate_leaf]
    · rw [cut_node (by omega), evaluate_node, evaluate_node, leftHypothesis, rightHypothesis]

theorem priority_cut {resolved : Int} (positive : 0 < resolved) (tree : Expression) :
    (tree.cut resolved).priority = tree.priority := by
  cases tree with
  | leaf value => rfl
  | node left operation right =>
    rw [cut_node positive]
    rfl

end Tree

/-! ### The stages -/

open Visitor

/-- The text of an operand of the cut tree. At the last level that is opened the operands are
leaves, and they have no brackets. -/
theorem operandText_cut (operand : Expression) (operation : Operation) (resolved : Int)
    (text : String) :
    operandText (operand.cut resolved) operation text =
      if resolved ≤ 0 then text else operandText operand operation text := by
  split
  · next none =>
    rw [Tree.cut_of_nonpos none]
    rfl
  · next opened =>
    rw [operandText, operandText, Tree.isCompound, Tree.isCompound,
      Tree.priority_cut (Int.not_le.mp opened)]

/-- The reduction at a place of a tree writes the part there as it is cut off. -/
theorem fold_reduction (tree : Expression) (resolved : Int) (level : Nat) :
    (reduction resolved).fold level tree = (tree.cut (resolved - level)).render := by
  induction tree generalizing level with
  | leaf value => rw [Tree.cut, Tree.render_leaf, fold, reduction]
  | node left operation right leftHypothesis rightHypothesis =>
    by_cases opened : (level : Int) < resolved
    · have below : resolved - (level + 1 : Nat) = resolved - level - 1 := by omega
      have last : resolved ≤ (level : Int) + 1 ↔ resolved - level - 1 ≤ 0 := by omega
      rw [Tree.cut_node (by omega), Tree.render_node, operandText_cut, operandText_cut, ← below,
        ← leftHypothesis, ← rightHypothesis, below, fold]
      simp only [reduction, if_pos opened, last]
      split <;> rfl
    · rw [Tree.cut_of_nonpos (by omega), Tree.render_leaf, fold]
      simp only [reduction, if_neg opened]

namespace Tree

theorem resolve_eq_render_cut (tree : Expression) (resolved : Int) :
    tree.resolve resolved = (tree.cut resolved).render := by
  rw [resolve, walk_eq_fold, fold_reduction, Int.ofNat_zero, Int.sub_zero]

/-- The stages of a tree are the expressions of its cuts, from the deepest to the value, and a cut
keeps the value of the tree. -/
theorem stages_are_cuts (tree : Expression) :
    (∀ resolved, tree.resolve resolved = (tree.cut resolved).render ∧
      (tree.cut resolved).evaluate = tree.evaluate) ∧
    (∀ resolved, tree.depth ≤ resolved → tree.resolve resolved = tree.render) ∧
    (∀ resolved ≤ 0, tree.resolve resolved = Spelling.plain tree.evaluate) ∧
    (tree.stages.length : Int) = tree.depth + 1 ∧
    ∀ level : Nat, level ≤ tree.depth →
      tree.stages[(tree.depth - level).toNat]? = some (tree.cut level).render := by
  refine ⟨fun resolved => ⟨resolve_eq_render_cut tree resolved, evaluate_cut tree resolved⟩,
    fun resolved all => ?_, fun resolved none => ?_, ?_, fun level within => ?_⟩
  · rw [depth_eq_height] at all
    rw [resolve_eq_render_cut, cut_of_height_le all]
  · rw [resolve_eq_render_cut, cut_of_nonpos none, render_leaf]
  · rw [stages, List.length_map, List.length_reverse, List.length_range, depth_eq_height]
    omega
  · rw [depth_eq_height] at within ⊢
    have count : ((tree.height : Int) + 1).toNat = tree.height + 1 := rfl
    have index : ((tree.height : Int) - level).toNat = tree.height - level := by omega
    have mirrored : tree.height + 1 - 1 - (tree.height - level) = level := by omega
    rw [stages, depth_eq_height, count, index, List.getElem?_map,
      List.getElem?_reverse (by rw [List.length_range]; omega), List.length_range, mirrored,
      List.getElem?_range (by omega), Option.map_some, resolve_eq_render_cut]

end Tree

end Reckon
