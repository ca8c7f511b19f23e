/-
This file tells leaves apart that hold no number. Two numbers are compared as
numbers, but what is no number differs from everything, and a tree with such a
leaf would differ even from itself. So a leaf gets a mark when it is made and
keeps it in every tree it becomes a part of, and leaves with one mark are one
leaf. Nothing but the comparison looks at marks.
-/

import Reckon.Tree

namespace Reckon

/-- A number with the mark of its leaf. -/
structure Marked where
  value : Float
  mark : Nat

/-- Whether two leaves hold the same number or are one leaf. -/
def Marked.same (first second : Marked) : Bool :=
  first.value == second.value || first.mark == second.mark

namespace Tree

/-- An expression with marks for its leaves, given out from left to right, and the first mark that
is left. -/
def marked (mark : Nat) : Expression → Tree Marked × Nat
  | .leaf value => (.leaf ⟨value, mark⟩, mark + 1)
  | .node left operation right =>
    let first := marked mark left
    let second := marked first.2 right
    (.node first.1 operation second.1, second.2)

/-- The expression without the marks. -/
def unmarked (tree : Tree Marked) : Expression :=
  tree.map Marked.value

theorem unmarked_marked (mark : Nat) (tree : Expression) :
    (tree.marked mark).1.unmarked = tree := by
  induction tree generalizing mark with
  | leaf value => rfl
  | node left operation right leftHypothesis rightHypothesis =>
    show node (marked mark left).1.unmarked operation
      (marked (marked mark left).2 right).1.unmarked = node left operation right
    rw [leftHypothesis, rightHypothesis]

/-- A tree is the same as itself, whatever its leaves hold. -/
theorem sameBy_marked_self (tree : Tree Marked) : tree.sameBy Marked.same tree = true :=
  tree.sameBy_self fun value => by simp [Marked.same]

end Tree

end Reckon
