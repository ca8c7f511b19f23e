/-
This file holds trees over the four operators, and the phrase that such a tree
is written as.

The text of a tree is a chain: an operand that binds less tightly than its
operation is written as a group, and any other is written as it is, so that its
links run on into those around it. `Formula.written` is that chain, and the
tokens of the text are what the chain spells. What the text is read as is
therefore the reading of the chain.
-/

import Reckon.Proofs.Yield
import Reckon.Tree.Render

namespace Reckon

/-! ### Chains -/

/-- An operand and the links behind it. -/
structure Chain where
  first : Operand
  links : Links

/-- Links with an operator behind them and a chain behind that. -/
def Links.join : Links → Operator → Chain → Links
  | .done, operator, chain => .link operator chain.first chain.links
  | .link earlier operand rest, operator, chain =>
    .link earlier operand (rest.join operator chain)

/-- Links as parts of a line. -/
def Links.parts : Links → List Part
  | .done => []
  | .link operator operand rest => .link operator operand :: rest.parts

namespace Chain

/-- Two chains with an operator between them. -/
def join (left : Chain) (operator : Operator) (right : Chain) : Chain :=
  ⟨left.first, left.links.join operator right⟩

/-- A chain in brackets, if it needs them. -/
def within (needed : Bool) (chain : Chain) : Chain :=
  if needed then ⟨.group .round chain.first chain.links, .done⟩ else chain

/-- The terminals that a chain spells. -/
def terminals (chain : Chain) : List Terminal :=
  chain.first.terminals ++ chain.links.terminals

/-- How deep the groups of a chain nest. -/
def nesting (chain : Chain) : Nat :=
  max chain.first.nesting chain.links.nesting

/-- The tree that a chain stands for. -/
def tree (chain : Chain) : Expression :=
  readChain chain.first.tree chain.links.moves

/-- A chain as a whole line. -/
def line (chain : Chain) : Line :=
  ⟨chain.first, chain.links.parts⟩

end Chain

theorem Links.terminals_parts (links : Links) :
    links.parts.flatMap Part.terminals = links.terminals := by
  cases links with
  | done => rfl
  | link operator operand rest =>
    rw [Links.parts, List.flatMap_cons, rest.terminals_parts]
    rfl

theorem Links.moves_parts (links : Links) : links.parts.map Part.move = links.moves := by
  cases links with
  | done => rfl
  | link operator operand rest =>
    rw [Links.parts, List.map_cons, rest.moves_parts]
    rfl

theorem Links.nesting_parts (links : Links) :
    ∀ part ∈ links.parts, part.nesting ≤ links.nesting := by
  cases links with
  | done => simp [Links.parts]
  | link operator operand rest =>
    intro part member
    rw [Links.nesting]
    cases member with
    | head => exact Nat.le_max_left _ _
    | tail _ member => exact Nat.le_trans (rest.nesting_parts part member) (Nat.le_max_right _ _)

theorem Links.terminals_join (links : Links) (operator : Operator) (chain : Chain) :
    (links.join operator chain).terminals =
      links.terminals ++ .operator operator :: chain.terminals := by
  cases links with
  | done => rfl
  | link earlier operand rest =>
    rw [Links.join, Links.terminals, Links.terminals, rest.terminals_join, List.cons_append,
      List.append_assoc]

theorem Links.moves_join (links : Links) (operator : Operator) (chain : Chain) :
    (links.join operator chain).moves =
      links.moves ++ .apply operator chain.first.atom :: chain.links.moves := by
  cases links with
  | done => rfl
  | link earlier operand rest =>
    rw [Links.join, Links.moves, Links.moves, rest.moves_join, List.cons_append]

theorem Links.nesting_join (links : Links) (operator : Operator) (chain : Chain) :
    (links.join operator chain).nesting = max links.nesting chain.nesting := by
  cases links with
  | done =>
    rw [Links.nesting, Nat.zero_max]
    rfl
  | link earlier operand rest =>
    rw [Links.join, Links.nesting, Links.nesting, rest.nesting_join, Nat.max_assoc]

namespace Chain

theorem terminals_join (left : Chain) (operator : Operator) (right : Chain) :
    (left.join operator right).terminals =
      left.terminals ++ .operator operator :: right.terminals := by
  rw [terminals, join, Links.terminals_join, ← List.append_assoc]
  rfl

theorem nesting_join (left : Chain) (operator : Operator) (right : Chain) :
    (left.join operator right).nesting = max left.nesting right.nesting := by
  rw [nesting, join, Links.nesting_join, ← Nat.max_assoc]
  rfl

theorem nesting_within_le (needed : Bool) (chain : Chain) :
    (chain.within needed).nesting ≤ 1 + chain.nesting := by
  cases needed with
  | false => exact Nat.le_add_left _ _
  | true =>
    show max (chain.nesting + 1) 0 ≤ 1 + chain.nesting
    omega

/-- A group has the tree of the chain in it. -/
theorem tree_within (needed : Bool) (chain : Chain) : (chain.within needed).tree = chain.tree := by
  cases needed <;> rfl

theorem terminals_line (chain : Chain) : chain.line.terminals = chain.terminals := by
  rw [line, Line.terminals, Links.terminals_parts]
  rfl

theorem tree_line (chain : Chain) : chain.line.tree = chain.tree := by
  rw [line, Line.tree, Links.moves_parts]
  rfl

theorem line_fits {chain : Chain} {limit : Nat} (deep : chain.nesting ≤ limit) :
    chain.line.Fits limit := by
  constructor
  · exact Nat.le_trans (Nat.le_max_left _ _) deep
  · intro part member
    have inside : part.nesting ≤ chain.nesting :=
      Nat.le_trans (chain.links.nesting_parts part member) (Nat.le_max_right _ _)
    exact Nat.le_trans inside deep

end Chain

/-! ### Trees over the four operators -/

/-- A tree whose operations are the four operators. -/
inductive Formula
  | leaf (value : Float)
  | node (left : Formula) (operator : Operator) (right : Formula)

/-- The number that the text of a number is read as. -/
def reread (value : Float) : Float :=
  Numeral.value (Spelling.plain value).toList

namespace Formula

/-- The expression of a formula. -/
def tree : Formula → Expression
  | .leaf value => .leaf value
  | .node left operator right => .node left.tree operator.operation right.tree

/-- Whether a formula needs brackets as an operand of an operator. -/
def loose (operator : Operator) : Formula → Bool
  | .leaf _ => false
  | .node _ inner _ => inner.priority < operator.priority

/-- The chain that a formula is written as. -/
def written : Formula → Chain
  | .leaf value => ⟨.number (reread value), .done⟩
  | .node left operator right =>
    (left.written.within (left.loose operator)).join operator
      (right.written.within (right.loose operator))

/-- The chain that a formula is written as where it is an operand. -/
def side (operator : Operator) (formula : Formula) : Chain :=
  formula.written.within (formula.loose operator)

theorem written_node (left : Formula) (operator : Operator) (right : Formula) :
    (node left operator right).written = (left.side operator).join operator (right.side operator) :=
  rfl

/-- Groups nest no deeper than operations do. -/
theorem nesting_written (formula : Formula) : formula.written.nesting ≤ formula.tree.height := by
  induction formula with
  | leaf value => exact Nat.le_refl 0
  | node left operator right leftHypothesis rightHypothesis =>
    have onLeft : (left.side operator).nesting ≤ 1 + left.tree.height :=
      Nat.le_trans (Chain.nesting_within_le _ _) (Nat.add_le_add_left leftHypothesis 1)
    have onRight : (right.side operator).nesting ≤ 1 + right.tree.height :=
      Nat.le_trans (Chain.nesting_within_le _ _) (Nat.add_le_add_left rightHypothesis 1)
    rw [written_node, Chain.nesting_join, tree, Tree.height]
    omega

end Formula

/-! ### The text of a formula -/

/-- Some contents in round brackets, if they need them. -/
def enclosed (needed : Bool) (inner : List Content) : List Content :=
  if needed then ⟨.opening .round, ['(']⟩ :: (inner ++ [⟨.closing .round, [')']⟩]) else inner

namespace Formula

/-- The tokens that a formula is written with: its numbers and operators from left to right, and a
pair of round brackets around each operand that binds less tightly than its operation. -/
def lexemes : Formula → List Content
  | .leaf value => [⟨.number, (Spelling.plain value).toList⟩]
  | .node left operator right =>
    enclosed (left.loose operator) left.lexemes ++
      ⟨.operator operator, operator.symbol.toList⟩ ::
        enclosed (right.loose operator) right.lexemes

theorem operandText_tree (formula : Formula) (operator : Operator) (text : String) :
    Visitor.operandText formula.tree operator.operation text =
      if formula.loose operator then "(" ++ text ++ ")" else text := by
  cases formula with
  | leaf value => rfl
  | node left inner right =>
    have compound : (node left inner right).tree.isCompound = true := by cases inner <;> rfl
    rw [Visitor.operandText, compound, Bool.true_and]
    rfl

/-- A text is read as some tokens, whatever stands before and behind it. -/
def ReadAs (text : List Char) (lexemes : List Content) : Prop :=
  ∀ (before : Option Char) (rest : List Char), before.any Numeral.isNumeric = false →
    Behind rest → contents before (text ++ rest) = lexemes ++ contents none rest

theorem ReadAs.operandText {text : String} {inner : List Content}
    (read : ReadAs text.toList inner) (formula : Formula) (operator : Operator) :
    ReadAs (Visitor.operandText formula.tree operator.operation text).toList
      (enclosed (formula.loose operator) inner) := by
  intro before rest fresh behind
  rw [operandText_tree]
  cases formula.loose operator with
  | false => exact read before rest fresh behind
  | true =>
    have bracketed : ("(" ++ text ++ ")").toList ++ rest = '(' :: (text.toList ++ ')' :: rest) := by
      simp
    rw [if_pos rfl, bracketed, contents_opening, read _ _ (by decide) (behind_closing rest),
      contents_closing behind]
    simp [enclosed]

/-- The text of a formula is read as the tokens that the formula is written with. -/
theorem readAs_render (formula : Formula)
    (readable : ∀ value ∈ formula.tree.leaves,
      Numeral.accepts (Spelling.plain value).toList = true) :
    ReadAs formula.tree.render.toList formula.lexemes := by
  induction formula with
  | leaf value =>
    intro before rest fresh behind
    rw [tree, Tree.render_leaf, contents_numeral rest (readable value (by simp [tree, Tree.leaves]))
      fresh fun next isNext => (behind next isNext).1, behind.contents none]
    rfl
  | node left operator right leftHypothesis rightHypothesis =>
    intro before rest fresh behind
    have onLeft := (leftHypothesis fun value member =>
      readable value (List.mem_append_left _ member)).operandText left operator
    have onRight := (rightHypothesis fun value member =>
      readable value (List.mem_append_right _ member)).operandText right operator
    rw [tree, Tree.render_node, Operation.join, String.toList_append, String.toList_append,
      List.append_assoc, List.append_assoc]
    show contents before (_ ++ ((" " ++ operator.symbol ++ " ").toList ++ _)) = _
    rw [onLeft _ _ fresh (behind_operator operator _), contents_operator,
      onRight _ _ (by decide) behind, lexemes]
    simp

theorem contents_render (formula : Formula)
    (readable : ∀ value ∈ formula.tree.leaves,
      Numeral.accepts (Spelling.plain value).toList = true) :
    contents none formula.tree.render.toList = formula.lexemes ++ [⟨.finish, []⟩] := by
  have read := formula.readAs_render readable none [] rfl behind_nil
  rwa [List.append_nil, contents_nil] at read

theorem terminal_enclosed (needed : Bool) {inner : List Content} {chain : Chain}
    (same : inner.map Content.terminal = chain.terminals) :
    (enclosed needed inner).map Content.terminal = (chain.within needed).terminals := by
  cases needed with
  | false => exact same
  | true =>
    rw [enclosed, if_pos rfl, List.map_cons, List.map_append, same]
    simp [Chain.terminals, Chain.within, Operand.terminals, Links.terminals, Content.terminal,
      Token.terminal]

/-- The tokens that a formula is written with are what the chain spells that it is written as. -/
theorem terminal_lexemes (formula : Formula) :
    formula.lexemes.map Content.terminal = formula.written.terminals := by
  induction formula with
  | leaf value => rfl
  | node left operator right leftHypothesis rightHypothesis =>
    rw [lexemes, List.map_append, List.map_cons, terminal_enclosed _ leftHypothesis,
      terminal_enclosed _ rightHypothesis, written_node, Chain.terminals_join]
    rfl

/-- A text is spelled by a chain, whatever stands before and behind it. -/
def SpelledBy (text : List Char) (chain : Chain) : Prop :=
  ∀ (before : Option Char) (rest : List Char), before.any Numeral.isNumeric = false →
    Behind rest → terminals before (text ++ rest) = chain.terminals ++ terminals none rest

/-- The text of a formula is spelled by the chain that it is written as. -/
theorem spelledBy_written (formula : Formula)
    (readable : ∀ value ∈ formula.tree.leaves,
      Numeral.accepts (Spelling.plain value).toList = true) :
    SpelledBy formula.tree.render.toList formula.written := by
  intro before rest fresh behind
  rw [terminals, formula.readAs_render readable before rest fresh behind, List.map_append,
    formula.terminal_lexemes]
  rfl

/-- The tokens of the text of a formula are what the chain spells that it is written as. -/
theorem terminals_render (formula : Formula)
    (readable : ∀ value ∈ formula.tree.leaves,
      Numeral.accepts (Spelling.plain value).toList = true) :
    (words formula.tree.render).map Token.terminal = formula.written.terminals := by
  have spelled := formula.spelledBy_written readable none [] rfl behind_nil
  rw [List.append_nil, terminals_nil] at spelled
  rw [terminals_words, spelled, List.dropLast_concat]

/-- The text of a formula is read as the tree of the chain that it is written as. -/
theorem parse_render (formula : Formula) {limit : Int}
    (readable : ∀ value ∈ formula.tree.leaves, Numeral.accepts (Spelling.plain value).toList = true)
    (deep : (formula.tree.height : Int) ≤ limit) :
    parse formula.tree.render limit = .ok formula.written.tree := by
  have fits : formula.written.nesting ≤ limit.toNat :=
    Nat.le_trans formula.nesting_written (by omega)
  rw [← Chain.tree_line]
  refine parse_of_line ?_ (Chain.line_fits fits)
  rw [formula.terminals_render readable, Chain.terminals_line]

end Formula

end Reckon
