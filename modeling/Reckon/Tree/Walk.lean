/-
This file walks over a tree from the leaves up, with the work that is left
kept in a list. A visitor says what to do at a leaf, at a node whose operands
are done, and at a node that is not to be opened at all; each time it is told
the level of the place, which is its distance from the root.

`fold` is the same as a plain recursion over the tree. `run_visit` says that
the two agree whatever else is left to do, and so `walk`, which is what runs,
never finds a result missing and ends with exactly one.
-/

import Reckon.Tree

namespace Reckon

/-- What to do at each place of a tree. -/
structure Visitor (Result : Type) where
  leaf : Nat → Float → Result
  node : Nat → Expression → Operation → Expression → Result → Result → Result
  /-- The result for a whole node, if the walk is not to open it. -/
  closed : Nat → Expression → Option Result

namespace Visitor

/-! ### The recursion -/

/-- The results of a visitor from the leaves up, for a tree at a level. -/
def fold {Result : Type} (visitor : Visitor Result) (level : Nat) : Expression → Result
  | .leaf value => visitor.leaf level value
  | .node left operation right =>
    match visitor.closed level (.node left operation right) with
    | some result => result
    | none =>
      visitor.node level left operation right (visitor.fold (level + 1) left)
        (visitor.fold (level + 1) right)

/-! ### The walk -/

/-- A piece of work: to visit a tree, or to finish a node whose operands are done. -/
inductive Task
  | visit (tree : Expression) (level : Nat)
  | finish (left : Expression) (operation : Operation) (right : Expression) (level : Nat)

/-- A bound on the steps that a task takes. -/
def Task.cost : Task → Nat
  | .visit tree _ => 2 * tree.size
  | .finish _ _ _ _ => 1

/-- Does all tasks, the first one first, with the results so far, the latest one first. There is
no answer when a node is to be finished before its operands are done. -/
def run {Result : Type} (visitor : Visitor Result) :
    List Task → List Result → Option (List Result)
  | [], results => some results
  | .visit (.leaf value) level :: tasks, results =>
    visitor.run tasks (visitor.leaf level value :: results)
  | .visit (.node left operation right) level :: tasks, results =>
    match visitor.closed level (.node left operation right) with
    | some result => visitor.run tasks (result :: results)
    | none =>
      visitor.run
        (.visit left (level + 1) :: .visit right (level + 1) ::
          .finish left operation right level :: tasks)
        results
  | .finish left operation right level :: tasks, second :: first :: results =>
    visitor.run tasks (visitor.node level left operation right first second :: results)
  | .finish _ _ _ _ :: _, _ => none
termination_by tasks => tasks.foldr (fun task rest => task.cost + rest) 0
decreasing_by all_goals simp only [List.foldr_cons, Task.cost, Tree.size]; omega

/-- Visiting a tree puts the result of the recursion on top of the results. -/
theorem run_visit {Result : Type} (visitor : Visitor Result) (tree : Expression) (level : Nat)
    (tasks : List Task) (results : List Result) :
    visitor.run (.visit tree level :: tasks) results =
      visitor.run tasks (visitor.fold level tree :: results) := by
  induction tree generalizing level tasks results with
  | leaf value => rw [run, fold]
  | node left operation right leftHypothesis rightHypothesis =>
    rw [run, fold]
    cases visitor.closed level (.node left operation right) with
    | some result => rfl
    | none => simp only [leftHypothesis, rightHypothesis, run]

theorem run_single {Result : Type} (visitor : Visitor Result) (tree : Expression) :
    visitor.run [.visit tree 0] [] = some [visitor.fold 0 tree] := by
  rw [run_visit, run]

/-- The only result of a walk over a tree. -/
def walk {Result : Type} (visitor : Visitor Result) (tree : Expression) : Result :=
  ((visitor.run [.visit tree 0] []).get (by simp [run_single])).head (by simp [run_single])

theorem walk_eq_fold {Result : Type} (visitor : Visitor Result) (tree : Expression) :
    visitor.walk tree = visitor.fold 0 tree := by
  simp [walk, run_single]

end Visitor

end Reckon
