/-
This file asks how deep a tree is and what lies at a level of it. A level is a
number of steps down from the root. Both questions are answered by going over
the tree with a list of the places still to see, so a tree may have any height.
-/

import Reckon.Tree

namespace Reckon.Tree

variable {Leaf : Type}

/-! ### Depth -/

/-- The greatest level of a leaf among some trees, each with a level of its own, and no less than
the greatest level so far. -/
def deepest : List (Tree Leaf × Int) → Int → Int
  | [], greatest => greatest
  | (.leaf _, level) :: places, greatest => deepest places (max greatest level)
  | (.node left _ right, level) :: places, greatest =>
    deepest ((right, level + 1) :: (left, level + 1) :: places) greatest
termination_by places => places.foldr (fun place rest => place.1.size + rest) 0
decreasing_by all_goals simp only [List.foldr_cons, size]; omega

/-- The level of the deepest leaf of a tree whose root is one level below a base. -/
def depthBelow (tree : Tree Leaf) (base : Int) : Int :=
  deepest [(tree, base + 1)] base

/-- The level of the deepest leaf. A leaf alone has depth zero. -/
def depth (tree : Tree Leaf) : Int :=
  tree.depthBelow (-1)

/-! ### Levels -/

/-- The trees at a level among some trees, each with a level of its own, in their order. -/
def atLevel (target : Nat) : List (Tree Leaf × Nat) → List (Tree Leaf)
  | [] => []
  | (tree, level) :: places =>
    if level = target then tree :: atLevel target places
    else
      match tree with
      | .leaf _ => atLevel target places
      | .node left _ right =>
        atLevel target ((left, level + 1) :: (right, level + 1) :: places)
termination_by places => places.foldr (fun place rest => place.1.size + rest) 0
decreasing_by
  · have positive := size_pos tree
    simp only [List.foldr_cons]
    omega
  · simp only [List.foldr_cons, size]
    omega
  · simp only [List.foldr_cons, size]
    omega

/-- The parts of a tree at a level, from left to right. The tree itself is the only one at level
zero, and above. -/
def level (tree : Tree Leaf) (target : Int) : List (Tree Leaf) :=
  if target ≤ 0 then [tree] else atLevel target.toNat [(tree, 0)]

end Reckon.Tree
