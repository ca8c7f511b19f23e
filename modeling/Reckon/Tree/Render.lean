/-
This file computes the value of a tree and writes a tree as an expression.

An operand is put in brackets only when it is compound and binds less tightly
than the operation it belongs to. An operand that binds just as tightly has
none, on either side, so a difference taken from a difference is written as a
plain chain.
-/

import Reckon.Tree.Walk

namespace Reckon

namespace Visitor

/-- The arithmetic of a tree. -/
def evaluation : Visitor Float where
  leaf _ value := value
  node _ _ operation _ left right := operation.apply left right
  closed _ _ := none

/-- The text of an operand, in brackets if its operation needs them. -/
def operandText (operand : Expression) (operation : Operation) (text : String) : String :=
  if operand.isCompound && operand.priority < operation.priority then "(" ++ text ++ ")" else text

/-- The expression of a tree. -/
def rendering : Visitor String where
  leaf _ value := Spelling.plain value
  node _ left operation right leftText rightText :=
    operation.join (operandText left operation leftText) (operandText right operation rightText)
  closed _ _ := none

end Visitor

namespace Tree

/-- The value of a tree. -/
def evaluate (tree : Expression) : Float :=
  Visitor.evaluation.walk tree

/-- A tree as an expression with the fewest brackets that priorities ask for. -/
def render (tree : Expression) : String :=
  Visitor.rendering.walk tree

end Tree

/-! ### Equations -/

theorem Visitor.fold_evaluation (tree : Expression) (level level' : Nat) :
    evaluation.fold level tree = evaluation.fold level' tree := by
  induction tree generalizing level level' with
  | leaf value => rfl
  | node left operation right leftHypothesis rightHypothesis =>
    show operation.apply _ _ = operation.apply _ _
    rw [leftHypothesis, rightHypothesis]

theorem Visitor.fold_rendering (tree : Expression) (level level' : Nat) :
    rendering.fold level tree = rendering.fold level' tree := by
  induction tree generalizing level level' with
  | leaf value => rfl
  | node left operation right leftHypothesis rightHypothesis =>
    show operation.join (operandText left operation _) (operandText right operation _) =
      operation.join (operandText left operation _) (operandText right operation _)
    rw [leftHypothesis, rightHypothesis]

namespace Tree

open Visitor

@[simp]
theorem evaluate_leaf (value : Float) : (leaf value).evaluate = value := by
  rw [evaluate, walk_eq_fold]
  rfl

@[simp]
theorem evaluate_node (left : Expression) (operation : Operation) (right : Expression) :
    (node left operation right).evaluate = operation.apply left.evaluate right.evaluate := by
  simp only [evaluate, walk_eq_fold]
  show operation.apply (evaluation.fold 1 left) (evaluation.fold 1 right) = _
  rw [fold_evaluation left 1 0, fold_evaluation right 1 0]

@[simp]
theorem render_leaf (value : Float) : (leaf value).render = Spelling.plain value := by
  rw [render, walk_eq_fold]
  rfl

@[simp]
theorem render_node (left : Expression) (operation : Operation) (right : Expression) :
    (node left operation right).render =
      operation.join (operandText left operation left.render)
        (operandText right operation right.render) := by
  simp only [render, walk_eq_fold]
  show operation.join (operandText left operation (rendering.fold 1 left))
    (operandText right operation (rendering.fold 1 right)) = _
  rw [fold_rendering left 1 0, fold_rendering right 1 0]

end Tree

end Reckon
