/-
This file says that the text of a tree loses nothing, whatever the shape of the
tree. The tokens of the text are the numbers and operators of the tree from left
to right, with a pair of brackets around each operand that binds less tightly
than its operation. A sign in the text is therefore the sign of a number or an
operator just where the tree has one.

What such a text is read as may be grouped in another way than the tree, since
operands of the same priority have no brackets. But the text is a chain without
a group behind a complete value, and the reading of such a chain keeps all
numbers and operators in their order.
-/

import Reckon.Proofs.Canonical

namespace Reckon

/-! ### The operators of a formula -/

theorem Operator.symbol_injective : Function.Injective Operator.symbol := by
  intro first second same
  have found := congrArg Operator.ofSymbol? same
  rw [ofSymbol?_symbol, ofSymbol?_symbol] at found
  exact Option.some.inj found

namespace Formula

/-- The operators from left to right, each between those of its operands. -/
def operators : Formula → List Operator
  | .leaf _ => []
  | .node left operator right => left.operators ++ operator :: right.operators

theorem symbols_tree (formula : Formula) :
    formula.tree.symbols = formula.operators.map Operator.symbol := by
  induction formula with
  | leaf value => rfl
  | node left operator right leftHypothesis rightHypothesis =>
    rw [operators, List.map_append, List.map_cons, ← leftHypothesis, ← rightHypothesis]
    exact List.map_append

theorem operators_eq_of_symbols {first second : Formula}
    (same : first.tree.symbols = second.tree.symbols) : first.operators = second.operators := by
  rw [symbols_tree, symbols_tree] at same
  exact Operator.symbol_injective.list_map same

end Formula

/-! ### What is read -/

/-- As many numbers, each equal as a number to the other in its place. -/
def EqualNumbers (first second : List Float) : Prop :=
  List.Forall₂ (fun value value' => (value == value') = true) first second

theorem equalNumbers_reread {values : List Float} (readable : ∀ value ∈ values, ReadsBack value) :
    EqualNumbers (values.map reread) values := by
  rw [EqualNumbers, List.forall₂_map_left_iff, List.forall₂_same]
  exact fun value member => (readsBack_iff.mp (readable value member)).2

namespace Formula

variable {formula : Formula}

theorem accepts_of_readsBack (readable : ∀ value ∈ formula.tree.leaves, ReadsBack value) :
    ∀ value ∈ formula.tree.leaves, Numeral.accepts (Spelling.plain value).toList = true :=
  fun value member => Spelling.accepts_plain (readable value member).finite

/-- The numbers of the text of a formula are those of what it is read as. -/
theorem numbers_render (readable : ∀ value ∈ formula.tree.leaves,
      Numeral.accepts (Spelling.plain value).toList = true) :
    numbers (words formula.tree.render) = formula.written.tree.leaves := by
  rw [numbers_eq_items, formula.terminals_render readable, ← Chain.items_tree,
    ← Tree.leaves_eq_items]

/-- What a formula is read as is a formula with the same operators. -/
theorem exists_formula_written (formula : Formula) :
    ∃ result : Formula, result.tree = formula.written.tree ∧
      result.operators = formula.operators := by
  obtain ⟨result, same, _⟩ := formula.written.exists_formula
  refine ⟨result, same, operators_eq_of_symbols ?_⟩
  rw [same, symbols_written]

end Formula

/-- The tokens of the text of a tree over the four operators are its numbers and operators from left
to right, with a pair of brackets around each operand that binds less tightly than its operation.
The text is read under any limit that the tree stays within, as a tree with the same numbers and
operators in the same order. -/
theorem parse_render_keeps (formula : Formula)
    (readable : ∀ value ∈ formula.tree.leaves, ReadsBack value) :
    (tokens formula.tree.render).map Token.content = formula.lexemes ++ [⟨.finish, []⟩] ∧
      EqualNumbers (numbers (words formula.tree.render)) formula.tree.leaves ∧
      ∀ limit : Int, formula.tree.height ≤ limit →
        ∃ result : Formula, parse formula.tree.render limit = .ok result.tree ∧
          EqualNumbers result.tree.leaves formula.tree.leaves ∧
          result.operators = formula.operators := by
  have accepted := Formula.accepts_of_readsBack readable
  have equal : EqualNumbers formula.written.tree.leaves formula.tree.leaves := by
    rw [formula.leaves_written]
    exact equalNumbers_reread readable
  refine ⟨formula.contents_render accepted, ?_, fun limit deep => ?_⟩
  · rw [Formula.numbers_render accepted]
    exact equal
  · obtain ⟨result, same, operators⟩ := formula.exists_formula_written
    refine ⟨result, ?_, ?_, operators⟩
    · rw [same]
      exact formula.parse_render accepted deep
    · rw [same]
      exact equal

/-- The text `(1 - -2 - 3) * -4` of a difference from a difference. -/
theorem parse_render_keeps_differences :
    ∃ result : Formula,
      parse (Formula.node (.node (.leaf 1) .difference (.node (.leaf (-2)) .difference (.leaf 3)))
          .product (.leaf (-4))).tree.render 3 = .ok result.tree ∧
        EqualNumbers result.tree.leaves [1, -2, 3, -4] ∧
        result.operators = [.difference, .difference, .product] := by
  have readable : ∀ value ∈ [(1 : Float), -2, 3, -4], ReadsBack value := by
    intro value member
    simp only [List.mem_cons, List.not_mem_nil, or_false] at member
    rcases member with rfl | rfl | rfl | rfl <;> exact readsBack_iff.mpr (by decide +kernel)
  exact (parse_render_keeps (.node (.node (.leaf 1) .difference
    (.node (.leaf (-2)) .difference (.leaf 3))) .product (.leaf (-4))) readable).2.2 3 (by decide)

end Reckon
