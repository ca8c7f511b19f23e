/-
This file holds trees of operations. A node is an operation on two operands,
so a chain of operations that groups to the left is a tree as high as the
chain is long. The shape of a tree does not depend on what its leaves hold; in
an expression they hold numbers.

A leaf has a priority too, one that no operator has. A tree counts as compound
by its priority alone: an operation that a caller makes up with a leaf's
priority makes nodes that are never put in brackets.
-/

import Reckon.Operation
import Reckon.Spelling
import Reckon.Text.Quoted

namespace Reckon

/-- A tree of operations over leaves of some kind. -/
inductive Tree (Leaf : Type)
  | leaf (value : Leaf)
  | node (left : Tree Leaf) (operation : Operation) (right : Tree Leaf)

/-- An expression is a tree of numbers. -/
abbrev Expression := Tree Float

namespace Tree

variable {Leaf : Type}

/-! ### Construction -/

/-- An operand of a node is not there. -/
inductive ConstructionError
  | missingOperand

def ConstructionError.message : ConstructionError → String
  | .missingOperand => "Compound requires both a left and a right operand"

/-- The node of an operation and two operands that may not be there. -/
def combine (left : Option (Tree Leaf)) (operation : Operation) (right : Option (Tree Leaf)) :
    Except ConstructionError (Tree Leaf) :=
  match left, right with
  | some left, some right => .ok (.node left operation right)
  | _, _ => .error .missingOperand

/-- The tree of the same shape whose leaves hold what a function makes of them. -/
def map {Image : Type} (function : Leaf → Image) : Tree Leaf → Tree Image
  | .leaf value => .leaf (function value)
  | .node left operation right => .node (left.map function) operation (right.map function)

/-! ### Measures -/

/-- The priority of a leaf. -/
def leafPriority : Int := -1

def priority : Tree Leaf → Int
  | .leaf _ => leafPriority
  | .node _ operation _ => operation.priority

/-- Whether a tree may need brackets as an operand. -/
def isCompound (tree : Tree Leaf) : Bool :=
  tree.priority != leafPriority

/-- How many operations lie above the deepest leaf. -/
def height : Tree Leaf → Nat
  | .leaf _ => 0
  | .node left _ right => 1 + max left.height right.height

/-- How many leaves and nodes a tree has. -/
def size : Tree Leaf → Nat
  | .leaf _ => 1
  | .node left _ right => 1 + left.size + right.size

theorem size_pos (tree : Tree Leaf) : 0 < tree.size := by
  cases tree <;> simp only [size] <;> omega

/-! ### Comparison -/

/-- Whether two trees have the same shape, the same operations, and at each place leaves that a
comparison calls the same. -/
def sameBy (sameLeaf : Leaf → Leaf → Bool) : Tree Leaf → Tree Leaf → Bool
  | .leaf first, .leaf second => sameLeaf first second
  | .node left operation right, .node left' operation' right' =>
    left.sameBy sameLeaf left' && operation == operation' && right.sameBy sameLeaf right'
  | _, _ => false

/-- A tree is the same as itself if each of its leaves is. -/
theorem sameBy_self {sameLeaf : Leaf → Leaf → Bool}
    (reflexive : ∀ value, sameLeaf value value = true) (tree : Tree Leaf) :
    tree.sameBy sameLeaf tree = true := by
  induction tree with
  | leaf value => exact reflexive value
  | node left operation right leftHypothesis rightHypothesis =>
    simp only [sameBy, leftHypothesis, rightHypothesis, Operation.beq_self, Bool.and_self]

end Tree

/-- Expressions are compared with their numbers as numbers: the two zeros are the same and what is
no number differs from everything. -/
instance : BEq Expression := ⟨Tree.sameBy (· == ·)⟩

/-! ### Description -/

/-- The description of an operation. -/
def Operation.describe (operation : Operation) : String :=
  "Operation(" ++ Text.quoted operation.symbol ++ ", priority=" ++ toString operation.priority ++
    ")"

/-- The description of an expression, which names every part of it. -/
def Tree.describe : Expression → String
  | .leaf value => "Leaf(value=" ++ Spelling.literal.write value ++ ")"
  | .node left operation right =>
    "Compound(left=" ++ left.describe ++ ", operation=" ++ operation.describe ++ ", right=" ++
      right.describe ++ ")"

end Reckon
