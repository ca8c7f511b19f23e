/-
This file reduces a tree one level at a time. A stage of the reduction writes
the tree with every node from some level on shown as its value; the levels go
up from the deepest, and the last stage is the value of the whole tree.
-/

import Reckon.Tree.Level
import Reckon.Tree.Render

namespace Reckon

/-- The expression of a tree whose nodes from a level on are shown as their values. An operand
that is shown as its value needs no brackets. -/
def Visitor.reduction (resolved : Int) : Visitor String where
  leaf _ value := Spelling.plain value
  node level left operation right leftText rightText :=
    if resolved ≤ level + 1 then operation.join leftText rightText
    else
      operation.join (operandText left operation leftText) (operandText right operation rightText)
  closed level tree :=
    if (level : Int) < resolved then none else some (Spelling.plain tree.evaluate)

namespace Tree

/-- A stage of the reduction: the tree with the nodes from a level on resolved. -/
def resolve (tree : Expression) (resolved : Int) : String :=
  (Visitor.reduction resolved).walk tree

/-- All stages, from the whole expression to its value. -/
def stages (tree : Expression) : List String :=
  (List.range (tree.depth + 1).toNat).reverse.map fun (level : Nat) => tree.resolve level

end Tree

end Reckon
