/-
This file holds the grammar of expressions, and the tree that a phrase of the
grammar stands for.

    Line    ::= Operand (operator Operand | Group)*
    Operand ::= number | Group
    Group   ::= opener Operand (operator Operand)* closer

The phrases are the parse trees of this grammar: what a phrase spells is a list
of terminals, and a source is an expression when its tokens are spelled by a
line.

A phrase is read from the left. What has been read is a single value, and the
next operator takes it for its left operand. Only a sum or difference whose
right operand is a bare number gives that number away to a product or quotient
right behind it, and to that one only. A group has been read to its end before
it is an operand, so nothing takes a part of it.
-/

import Reckon.Token
import Reckon.Tree

namespace Reckon

/-! ### Terminals -/

/-- What the grammar sees of a token. -/
inductive Terminal
  | number (value : Float)
  | operator (operator : Operator)
  | opening (bracket : Bracket)
  | closing (bracket : Bracket)
  | foreign

/-- The terminal of a token. Tokens that stand in no expression are foreign. -/
def Token.terminal (token : Token) : Terminal :=
  match token.kind with
  | .number => .number token.value
  | .operator operator => .operator operator
  | .opening bracket => .opening bracket
  | .closing bracket => .closing bracket
  | .illegal | .finish | .comparison _ => .foreign

/-! ### Phrases -/

mutual

/-- A number, or a group with a chain in it: a first operand and the links behind it. -/
inductive Operand
  | number (value : Float)
  | group (bracket : Bracket) (first : Operand) (links : Links)

/-- Operators, each with its right operand. -/
inductive Links
  | done
  | link (operator : Operator) (operand : Operand) (rest : Links)

end

/-- What may follow a complete value at the top level. -/
inductive Part
  | link (operator : Operator) (operand : Operand)
  | group (bracket : Bracket) (first : Operand) (links : Links)

/-- A whole expression. -/
structure Line where
  first : Operand
  parts : List Part

/-! ### Spelling -/

mutual

def Operand.terminals : Operand → List Terminal
  | .number value => [.number value]
  | .group bracket first links =>
    .opening bracket :: (first.terminals ++ (links.terminals ++ [.closing bracket]))

def Links.terminals : Links → List Terminal
  | .done => []
  | .link operator operand rest => .operator operator :: (operand.terminals ++ rest.terminals)

end

def Part.terminals : Part → List Terminal
  | .link operator operand => .operator operator :: operand.terminals
  | .group bracket first links => (Operand.group bracket first links).terminals

/-- The terminals that a line spells. -/
def Line.terminals (line : Line) : List Terminal :=
  line.first.terminals ++ line.parts.flatMap Part.terminals

/-! ### Nesting -/

mutual

/-- How many groups lie inside one another, at the deepest place of an operand. -/
def Operand.nesting : Operand → Nat
  | .number _ => 0
  | .group _ first links => max first.nesting links.nesting + 1

def Links.nesting : Links → Nat
  | .done => 0
  | .link _ operand rest => max operand.nesting rest.nesting

end

def Part.nesting : Part → Nat
  | .link _ operand => operand.nesting
  | .group bracket first links => (Operand.group bracket first links).nesting

/-- The groups of a line nest no deeper than a limit. -/
def Line.Fits (line : Line) (limit : Nat) : Prop :=
  line.first.nesting ≤ limit ∧ ∀ part ∈ line.parts, part.nesting ≤ limit

/-! ### The reading of a chain -/

/-- The operators that let a tighter one take their operand. -/
def Operator.isAdditive : Operator → Bool
  | .sum | .difference => true
  | .product | .quotient => false

/-- The tree of an operand, and whether the operand is a bare number. -/
structure Atom where
  tree : Expression
  bare : Bool

/-- What follows a value: an operator with its right operand, or a value that takes its place. -/
inductive Move
  | apply (operator : Operator) (operand : Atom)
  | replace (value : Expression)

/-- The left-to-right reading of a chain, from a value on. -/
def readChain (value : Expression) : List Move → Expression
  | [] => value
  | .replace other :: moves => readChain other moves
  | .apply operator operand :: .apply tighter right :: moves =>
    if operator.isAdditive && operand.bare && !tighter.isAdditive then
      readChain
        (.node value operator.operation (.node operand.tree tighter.operation right.tree)) moves
    else
      readChain (.node value operator.operation operand.tree) (.apply tighter right :: moves)
  | .apply operator operand :: moves =>
    readChain (.node value operator.operation operand.tree) moves

section
variable {operator tighter : Operator} {operand : Atom}

/-- The tighter operator takes the number before it away. -/
theorem readChain_taken
    (taken : (operator.isAdditive && operand.bare && !tighter.isAdditive) = true)
    (value : Expression) (right : Atom) (moves : List Move) :
    readChain value (.apply operator operand :: .apply tighter right :: moves) =
      readChain (.node value operator.operation (.node operand.tree tighter.operation right.tree))
        moves := by
  rw [readChain, if_pos taken]

/-- The operand stays with the operator before it. -/
theorem readChain_kept
    (kept : ¬ (operator.isAdditive && operand.bare && !tighter.isAdditive) = true)
    (value : Expression) (right : Atom) (moves : List Move) :
    readChain value (.apply operator operand :: .apply tighter right :: moves) =
      readChain (.node value operator.operation operand.tree) (.apply tighter right :: moves) := by
  rw [readChain, if_neg kept]

end

mutual

/-- An operand as a chain sees it. -/
def Operand.atom : Operand → Atom
  | .number value => ⟨.leaf value, true⟩
  | .group _ first links => ⟨readChain first.atom.tree links.moves, false⟩

def Links.moves : Links → List Move
  | .done => []
  | .link operator operand rest => .apply operator operand.atom :: rest.moves

end

/-- The tree of an operand. -/
def Operand.tree (operand : Operand) : Expression :=
  operand.atom.tree

/-- At the top level a group behind a complete value takes its place. -/
def Part.move : Part → Move
  | .link operator operand => .apply operator operand.atom
  | .group bracket first links => .replace (Operand.group bracket first links).tree

/-- The tree that a line stands for. -/
def Line.tree (line : Line) : Expression :=
  readChain line.first.tree (line.parts.map Part.move)

end Reckon
