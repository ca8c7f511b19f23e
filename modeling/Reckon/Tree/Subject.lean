/-
This file answers queries about things that need not be trees. A query about a
tree is answered by the tree. Where something else stands, the depth counts it
as a leaf, and whatever has to look into it fails. Nothing at all is a subject
too: it has no levels and no stages.
-/

import Reckon.Tree.Exchange
import Reckon.Tree.Marked
import Reckon.Tree.Reduction

namespace Reckon

/-- What a query is about: a tree over leaves of some kind, or anything else. -/
inductive Subject (Leaf : Type)
  | known (tree : Tree Leaf)
  | foreign (data : Data)

/-- The subject is neither a leaf nor a node. -/
structure UnknownNode where
  found : Data

def UnknownNode.message (error : UnknownNode) : String :=
  "Unknown node type: " ++ error.found.kindName

namespace Subject

variable {Leaf : Type}

/-- No tree at all. -/
def nothing : Subject Leaf := .foreign .null

/-! ### The shape of a subject -/

/-- The level of the deepest leaf, for a root one level below a base. -/
def depthBelow (subject : Subject Leaf) (base : Int) : Int :=
  match subject with
  | .known tree => tree.depthBelow base
  | .foreign .null => base
  | .foreign _ => base + 1

/-- The parts at a level. Nothing has none. -/
def level (subject : Subject Leaf) (target : Int) : List (Tree Leaf) :=
  match subject with
  | .known tree => tree.level target
  | .foreign _ => []

def isCompound : Subject Leaf → Bool
  | .known tree => tree.isCompound
  | .foreign _ => false

/-- Trees are compared by their leaves. Nothing is the same as nothing. -/
def sameBy (sameLeaf : Leaf → Leaf → Bool) : Subject Leaf → Subject Leaf → Bool
  | .known first, .known second => first.sameBy sameLeaf second
  | .foreign .null, .foreign .null => true
  | _, _ => false

/-- The subject without the marks of its leaves. -/
def unmarked : Subject Marked → Subject Float
  | .known tree => .known tree.unmarked
  | .foreign data => .foreign data

/-! ### The expression of a subject -/

/-- An answer that only an expression has. -/
def ofExpression {Answer : Type} (answer : Expression → Answer) :
    Subject Float → Except UnknownNode Answer
  | .known tree => .ok (answer tree)
  | .foreign data => .error ⟨data⟩

def evaluate : Subject Float → Except UnknownNode Float := ofExpression Tree.evaluate

def render : Subject Float → Except UnknownNode String := ofExpression Tree.render

def toData : Subject Float → Except UnknownNode Data := ofExpression Tree.toData

def resolve (subject : Subject Float) (resolved : Int) : Except UnknownNode String :=
  ofExpression (·.resolve resolved) subject

/-- All stages of the reduction. Nothing has none. -/
def stages : Subject Float → Except UnknownNode (List String)
  | .foreign .null => .ok []
  | subject => ofExpression Tree.stages subject

def describe : Subject Float → Except Text.DigitError String
  | .known tree => .ok tree.describe
  | .foreign data => data.describe

end Subject

end Reckon
