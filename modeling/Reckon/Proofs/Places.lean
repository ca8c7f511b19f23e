/-
This file says where the parts of a tree lie. A place is known by the path that
leads to it from the root, a list of turns to the left or to the right, so that
one part that occurs twice in a tree has two places.

The walk that collects a level goes over the tree with a list of places still to
see. It finds what a recursion over the tree finds (`level_eq_partsAt`), and so
each path of the right length that does not leave the tree is taken once, in the
order of the paths. From there levels compose, and the depths agree: the height
that a node has from its operands, the greatest level of a leaf that a walk
finds, and the last level that is not empty.
-/

import Mathlib.Data.List.Basic
import Reckon.Proofs.Levels
import Reckon.Proofs.Truncation

namespace Reckon.Tree

variable {Leaf : Type}

/-! ### Paths -/

/-- The operand that a step down goes to. -/
inductive Turn
  | left
  | right
deriving DecidableEq

/-- The part of a tree at the end of a path from its root. Nothing is below a leaf. -/
def follow : Tree Leaf → List Turn → Option (Tree Leaf)
  | tree, [] => some tree
  | .leaf _, _ :: _ => none
  | .node left _ _, .left :: path => left.follow path
  | .node _ _ right, .right :: path => right.follow path

@[simp] theorem follow_nil (tree : Tree Leaf) : tree.follow [] = some tree := by
  cases tree <;> rfl

/-- Where two paths part, the first turns left and the second turns right. -/
inductive LeftOf : List Turn → List Turn → Prop
  | here (first second : List Turn) : LeftOf (.left :: first) (.right :: second)
  | deeper {first second : List Turn} (turn : Turn) (leftOf : LeftOf first second) :
      LeftOf (turn :: first) (turn :: second)

theorem LeftOf.ne {first second : List Turn} (leftOf : LeftOf first second) : first ≠ second := by
  induction leftOf with
  | here first second => simp
  | deeper turn leftOf inductionHypothesis => simpa using inductionHypothesis

/-- The paths of so many steps in a tree, from left to right. -/
def paths : Tree Leaf → Nat → List (List Turn)
  | _, 0 => [[]]
  | .leaf _, _ + 1 => []
  | .node left _ right, steps + 1 =>
    (left.paths steps).map (Turn.left :: ·) ++ (right.paths steps).map (Turn.right :: ·)

@[simp] theorem paths_zero (tree : Tree Leaf) : tree.paths 0 = [[]] := by
  cases tree <;> rfl

@[simp] theorem paths_leaf (value : Leaf) (steps : Nat) : (leaf value).paths (steps + 1) = [] := rfl

@[simp] theorem paths_node (left : Tree Leaf) (operation : Operation) (right : Tree Leaf)
    (steps : Nat) :
    (node left operation right).paths (steps + 1) =
      (left.paths steps).map (Turn.left :: ·) ++ (right.paths steps).map (Turn.right :: ·) := rfl

/-- The paths are all of those that stay in the tree. -/
theorem mem_paths_iff {tree : Tree Leaf} {steps : Nat} {path : List Turn} :
    path ∈ tree.paths steps ↔ path.length = steps ∧ (tree.follow path).isSome = true := by
  induction tree generalizing steps path with
  | leaf value => cases steps <;> cases path <;> simp [follow]
  | node left operation right leftHypothesis rightHypothesis =>
    cases steps with
    | zero => cases path <;> simp
    | succ steps =>
      cases path with
      | nil => simp
      | cons turn path =>
        cases turn with
        | left => simp [leftHypothesis, follow]
        | right => simp [rightHypothesis, follow]

theorem pairwise_below {paths : List (List Turn)} (ordered : paths.Pairwise LeftOf) (turn : Turn) :
    (paths.map (turn :: ·)).Pairwise LeftOf :=
  List.pairwise_map.mpr (ordered.imp (LeftOf.deeper turn))

/-- Of any two paths the first lies to the left of the second. -/
theorem pairwise_paths (tree : Tree Leaf) (steps : Nat) : (tree.paths steps).Pairwise LeftOf := by
  induction tree generalizing steps with
  | leaf value => cases steps <;> simp
  | node left operation right leftHypothesis rightHypothesis =>
    cases steps with
    | zero => simp
    | succ steps =>
      rw [paths_node, List.pairwise_append]
      refine ⟨pairwise_below (leftHypothesis steps) .left,
        pairwise_below (rightHypothesis steps) .right, ?_⟩
      intro first inLeft second inRight
      obtain ⟨first, _, rfl⟩ := List.mem_map.mp inLeft
      obtain ⟨second, _, rfl⟩ := List.mem_map.mp inRight
      exact .here first second

/-- At the ends of the paths are the parts. -/
theorem map_follow_paths (tree : Tree Leaf) (steps : Nat) :
    (tree.paths steps).map tree.follow = (tree.partsAt steps).map some := by
  induction tree generalizing steps with
  | leaf value => cases steps <;> simp
  | node left operation right leftHypothesis rightHypothesis =>
    cases steps with
    | zero => simp
    | succ steps =>
      rw [paths_node, partsAt_node, List.map_append, List.map_append, ← leftHypothesis,
        ← rightHypothesis, List.map_map, List.map_map]
      rfl

/-! ### Levels -/

/-- The parts of parts are parts further down. -/
theorem flatMap_partsAt (tree : Tree Leaf) (first second : Nat) :
    (tree.partsAt first).flatMap (·.partsAt second) = tree.partsAt (first + second) := by
  induction tree generalizing first with
  | leaf value =>
    cases first with
    | zero => simp
    | succ first => rw [Nat.succ_add, partsAt_leaf, partsAt_leaf, List.flatMap_nil]
  | node left operation right leftHypothesis rightHypothesis =>
    cases first with
    | zero => simp
    | succ first =>
      rw [Nat.succ_add, partsAt_node, partsAt_node, List.flatMap_append, leftHypothesis,
        rightHypothesis]

/-- A level of a tree has the parts at the ends of all paths with so many steps, each path once and
the paths from left to right. It is made of the levels of the two operands, one step less far down,
and the levels of what is found at one level are a level of the tree again. -/
theorem levels_compose (tree : Tree Leaf) :
    tree.level 0 = [tree] ∧
    (∀ target : Nat, tree.level ↑(target + 1) =
      match tree with
      | .leaf _ => []
      | .node left _ right => left.level target ++ right.level target) ∧
    (∀ target : Nat, ∃ paths : List (List Turn), paths.Nodup ∧ paths.Pairwise LeftOf ∧
      (∀ path, path ∈ paths ↔ path.length = target ∧ (tree.follow path).isSome = true) ∧
      paths.map tree.follow = (tree.level target).map some) ∧
    ∀ first second : Nat,
      (tree.level first).flatMap (fun part => part.level second) =
        tree.level ↑(first + second) := by
  refine ⟨tree.level_eq_partsAt 0 |>.trans tree.partsAt_zero, fun target => ?_, fun target => ?_,
    fun first second => ?_⟩
  · cases tree with
    | leaf value => rw [level_eq_partsAt, partsAt_leaf]
    | node left operation right => simp only [level_eq_partsAt, partsAt_node]
  · have ordered := tree.pairwise_paths target
    refine ⟨tree.paths target, ordered.imp LeftOf.ne, ordered, fun path => mem_paths_iff, ?_⟩
    rw [level_eq_partsAt, map_follow_paths]
  · simp only [level_eq_partsAt, flatMap_partsAt]

/-! ### Depths -/

theorem exists_eq_leaf {tree : Tree Leaf} (low : tree.height = 0) : ∃ value, tree = leaf value := by
  cases tree with
  | leaf value => exact ⟨value, rfl⟩
  | node left operation right =>
    rw [height] at low
    omega

/-- A part reaches no further down than its tree. -/
theorem height_add_le_of_mem_partsAt {tree part : Tree Leaf} {target : Nat}
    (member : part ∈ tree.partsAt target) : part.height + target ≤ tree.height := by
  induction tree generalizing target with
  | leaf value =>
    cases target with
    | zero =>
      rw [partsAt_zero, List.mem_singleton] at member
      exact Nat.le_of_eq (congrArg height member)
    | succ target => exact absurd member List.not_mem_nil
  | node left operation right leftHypothesis rightHypothesis =>
    cases target with
    | zero =>
      rw [partsAt_zero, List.mem_singleton] at member
      exact Nat.le_of_eq (congrArg height member)
    | succ target =>
      rw [partsAt_node, List.mem_append] at member
      rw [height]
      rcases member with inLeft | inRight
      · have bound := leftHypothesis inLeft
        omega
      · have bound := rightHypothesis inRight
        omega

theorem level_ne_nil_iff (tree : Tree Leaf) (target : Int) :
    tree.level target ≠ [] ↔ target ≤ tree.height := by
  rcases Int.le_total target 0 with above | below
  · rw [level, if_pos above]
    exact iff_of_true (List.cons_ne_nil _ _) (by omega)
  · obtain ⟨target, rfl⟩ := Int.eq_ofNat_of_zero_le below
    rw [level_eq_partsAt, Ne, partsAt_eq_nil_iff]
    omega

/-- The height of a tree, the depth that a walk from any base finds, and the last level at which
something lies are the same, and only leaves lie at that level. -/
theorem depths_agree (tree : Tree Leaf) :
    (∀ base : Int, tree.depthBelow base = base + 1 + tree.height) ∧
    (∀ target : Int, tree.level target ≠ [] ↔ target ≤ tree.depth) ∧
    ∀ part ∈ tree.level tree.depth, ∃ value, part = leaf value := by
  refine ⟨tree.depthBelow_eq, fun target => ?_, fun part member => exists_eq_leaf ?_⟩
  · rw [depth_eq_height, level_ne_nil_iff]
  · rw [depth_eq_height, level_eq_partsAt] at member
    have bound := height_add_le_of_mem_partsAt member
    omega

end Reckon.Tree
