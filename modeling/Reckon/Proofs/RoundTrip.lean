/-
This file says what a tree is worth after it has been written and read again.
The text of a finite double denotes that double, minus zero apart, whose text
has no sign. So a tree that comes back in its shape comes back with its numbers
too, and with them its value. Every text is read, but one of another shape may
have another value, also where no right operand is a node of the same priority.
-/

import Reckon.Proofs.Doubles
import Reckon.Proofs.Shortest
import Reckon.Proofs.Survival

namespace Reckon

/-- The text of a finite double that is not minus zero denotes this double. -/
theorem reread_eq {value : Float} (finite : value.isFinite = true) (signed : value ≠ -0.0) :
    reread value = value := by
  have sign : (Binary64.isNegative value && Binary64.word value != 0) =
      Binary64.isNegative value := by
    by_cases negative : Binary64.isNegative value = true
    · have nonzero : Binary64.word value ≠ 0 := fun zero =>
        signed (Binary64.eq_negative_zero negative zero)
      rw [negative, bne_iff_ne.mpr nonzero]
      rfl
    · rw [Bool.not_eq_true] at negative
      rw [negative, Bool.false_and]
  rw [reread_eq_ofWord ((Binary64.word_lt_infinity_iff value).mpr finite), sign,
    Binary64.ofWord_word]

namespace Tree

variable {Leaf : Type}

/-- A change that leaves every leaf as it is leaves the tree as it is. -/
theorem map_eq_self {change : Leaf → Leaf} {tree : Tree Leaf}
    (same : ∀ value ∈ tree.leaves, change value = value) : tree.map change = tree := by
  induction tree with
  | leaf value => rw [map, same value (List.mem_singleton_self value)]
  | node left operation right leftHypothesis rightHypothesis =>
    rw [map, leftHypothesis fun value member => same value (List.mem_append_left _ member),
      rightHypothesis fun value member => same value (List.mem_append_right _ member)]

end Tree

theorem Spelling.accepts_plain_of_isFinite {value : Float} (finite : value.isFinite = true) :
    Numeral.accepts (plain value).toList = true :=
  accepts_plain ((Binary64.word_lt_infinity_iff value).mpr finite)

theorem Formula.parse_render_finite (formula : Formula)
    (finite : ∀ value ∈ formula.tree.leaves, value.isFinite = true) {limit : Int}
    (deep : (formula.tree.height : Int) ≤ limit) :
    parse formula.tree.render limit = .ok formula.written.tree :=
  formula.parse_render (fun value member =>
    Spelling.accepts_plain_of_isFinite (finite value member)) deep

/-- The text of a formula is read, and what is read has the value of the formula. -/
def Formula.KeepsValue (formula : Formula) (limit : Int) : Prop :=
  ∃ result, parse formula.tree.render limit = .ok result ∧
    result.evaluate = formula.tree.evaluate

/-- The text of a tree of finite numbers is read, whatever the shape of the tree. If no right
operand is a node of the same priority, any right operand of a higher priority has a leaf for its
own left operand, and no number is minus zero, then what is read has the value of the tree. -/
theorem parse_render_evaluate (formula : Formula)
    (finite : ∀ value ∈ formula.tree.leaves, value.isFinite = true) (limit : Int)
    (deep : (formula.tree.height : Int) ≤ limit) :
    (∃ result, parse formula.tree.render limit = .ok result) ∧
      (formula.Everywhere Formula.GroupsLeft → formula.Everywhere Formula.WithinReach →
        (∀ value ∈ formula.tree.leaves, value ≠ -0.0) → formula.KeepsValue limit) := by
  have read := formula.parse_render_finite finite deep
  refine ⟨⟨_, read⟩, ?_⟩
  intro groups reach signed
  refine ⟨_, read, ?_⟩
  rw [Formula.tree_written groups reach,
    Tree.map_eq_self fun value member => reread_eq (finite value member) (signed value member)]

/-- The value of `1 / 3 - 2` comes back. -/
theorem keepsValue_third_minus_two :
    (Formula.node (.node (.leaf 1) .quotient (.leaf 3)) .difference (.leaf 2)).KeepsValue 2 := by
  have finite : ∀ value ∈ [(1 : Float), 3, 2], value.isFinite = true := by decide +kernel
  have signed : ∀ value ∈ [(1 : Float), 3, 2], value ≠ -0.0 := by decide +kernel
  refine (parse_render_evaluate (.node (.node (.leaf 1) .quotient (.leaf 3)) .difference (.leaf 2))
    finite 2 (by decide)).2 ?_ ?_ signed
  · exact ⟨⟨trivial, trivial, trivial⟩, trivial, trivial⟩
  · exact ⟨⟨trivial, trivial, trivial⟩, trivial, trivial⟩

/-- Grouping to the left is not enough. The sum `1 + 2 * 3 * 4`, with its product grouped to the
left, is read as `(1 + 2 * 3) * 4`; and a minus zero, within reach as it is, loses its sign. -/
theorem not_keepsValue_of_groupsLeft :
    ¬ (∀ (formula : Formula) (limit : Int), (∀ value ∈ formula.tree.leaves, value.isFinite = true) →
        (formula.tree.height : Int) ≤ limit → formula.Everywhere Formula.GroupsLeft →
        formula.KeepsValue limit) ∧
    ¬ (∀ (formula : Formula) (limit : Int), (∀ value ∈ formula.tree.leaves, value.isFinite = true) →
        (formula.tree.height : Int) ≤ limit → formula.Everywhere Formula.GroupsLeft →
        formula.Everywhere Formula.WithinReach → formula.KeepsValue limit) := by
  constructor
  · intro all
    have finite : ∀ value ∈ [(1 : Float), 2, 3, 4], value.isFinite = true := by decide +kernel
    obtain ⟨result, read, same⟩ := all (.node (.leaf 1) .sum
      (.node (.node (.leaf 2) .product (.leaf 3)) .product (.leaf 4))) 3 finite (by decide)
      ⟨trivial, ⟨⟨trivial, trivial, trivial⟩, trivial, trivial⟩,
        fun same => absurd same (by decide)⟩
    rw [Formula.parse_render_finite (.node (.leaf 1) .sum
      (.node (.node (.leaf 2) .product (.leaf 3)) .product (.leaf 4))) finite (by decide)] at read
    have regrouped : result = .node (.node (.leaf (reread 1)) Operator.sum.operation
        (.node (.leaf (reread 2)) Operator.product.operation (.leaf (reread 3))))
          Operator.product.operation (.leaf (reread 4)) := (Except.ok.inj read).symm
    simp only [regrouped, Formula.tree, Tree.evaluate_node, Tree.evaluate_leaf] at same
    have different : (reread 1 + reread 2 * reread 3) * reread 4 ≠ (1 : Float) + 2 * 3 * 4 := by
      decide +kernel
    exact different same
  · intro all
    obtain ⟨result, read, same⟩ :=
      all (.leaf (-0.0)) 0 (by decide +kernel) (by decide) trivial trivial
    rw [Formula.parse_render_finite (.leaf (-0.0)) (by decide +kernel) (by decide)] at read
    have unsigned : result = .leaf (reread (-0.0)) := (Except.ok.inj read).symm
    simp only [unsigned, Formula.tree, Tree.evaluate_leaf] at same
    have different : reread (-0.0) ≠ -0.0 := by decide +kernel
    exact different same

end Reckon
