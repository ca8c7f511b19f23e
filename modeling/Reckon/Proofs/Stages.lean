/-
This file says what the stages of a reduction are worth when they are read
again. A stage writes the values of some parts of the tree in their place, so
what is at stake is whether the text of an intermediate value denotes it. For a
finite double that is so, minus zero apart: its text is that of zero. Everything
else comes back, because a cut leaves the conditions under which a tree comes
back in its shape as they are.

Only the sign of a zero can be lost, and then not only a sign of the result: the
last stage of `1 / -0` before its value is `1 / 0`, which is the other infinity.
-/

import Reckon.Proofs.RoundTrip
import Reckon.Proofs.Truncation

namespace Reckon

/-! ### The parts of a tree -/

namespace Tree

/-- The parts of a tree below its root. -/
def properParts : Expression → List Expression
  | .leaf _ => []
  | .node left _ right => (left :: left.properParts) ++ (right :: right.properParts)

/-- The leaves of a cut hold the values of parts of the tree. -/
theorem leaves_cut (tree : Expression) (resolved : Int) :
    ∀ value ∈ (tree.cut resolved).leaves,
      ∃ part ∈ tree :: tree.properParts, value = part.evaluate := by
  induction tree generalizing resolved with
  | leaf number =>
    intro value member
    refine ⟨.leaf number, List.mem_cons_self, ?_⟩
    rw [evaluate_leaf]
    exact List.mem_singleton.mp member
  | node left operation right leftHypothesis rightHypothesis =>
    intro value member
    by_cases none : resolved ≤ 0
    · rw [cut_of_nonpos none] at member
      exact ⟨_, List.mem_cons_self, List.mem_singleton.mp member⟩
    · rw [cut_node (by omega), leaves, List.mem_append] at member
      rcases member with member | member
      · obtain ⟨part, inside, same⟩ := leftHypothesis _ value member
        exact ⟨part, List.mem_cons_of_mem _ (List.mem_append_left _ inside), same⟩
      · obtain ⟨part, inside, same⟩ := rightHypothesis _ value member
        exact ⟨part, List.mem_cons_of_mem _ (List.mem_append_right _ inside), same⟩

/-- Above the root nothing is cut off, so that the leaves hold values of proper parts. -/
theorem leaves_cut_of_pos {tree : Expression} {resolved : Int} (positive : 0 < resolved)
    (compound : 0 < tree.height) :
    ∀ value ∈ (tree.cut resolved).leaves, ∃ part ∈ tree.properParts, value = part.evaluate := by
  cases tree with
  | leaf number => exact absurd compound (Nat.lt_irrefl 0)
  | node left operation right =>
    intro value member
    rw [cut_node positive, leaves, List.mem_append] at member
    rcases member with member | member
    · obtain ⟨part, inside, same⟩ := leaves_cut left _ value member
      exact ⟨part, List.mem_append_left _ inside, same⟩
    · obtain ⟨part, inside, same⟩ := leaves_cut right _ value member
      exact ⟨part, List.mem_append_right _ inside, same⟩

theorem height_cut_le (tree : Expression) (resolved : Int) :
    (tree.cut resolved).height ≤ tree.height := by
  induction tree generalizing resolved with
  | leaf value => exact Nat.le_refl _
  | node left operation right leftHypothesis rightHypothesis =>
    by_cases none : resolved ≤ 0
    · rw [cut_of_nonpos none]
      exact Nat.zero_le _
    · have onLeft := leftHypothesis (resolved - 1)
      have onRight := rightHypothesis (resolved - 1)
      rw [cut_node (by omega), height, height]
      omega

end Tree

/-! ### Cutting a formula off -/

namespace Formula

/-- The formula with its nodes from a level on replaced by their values. -/
def cut : Formula → Int → Formula
  | .leaf value, _ => .leaf value
  | .node left operator right, resolved =>
    if resolved ≤ 0 then .leaf (node left operator right).tree.evaluate
    else .node (left.cut (resolved - 1)) operator (right.cut (resolved - 1))

theorem tree_cut (formula : Formula) (resolved : Int) :
    (formula.cut resolved).tree = formula.tree.cut resolved := by
  induction formula generalizing resolved with
  | leaf value => rfl
  | node left operator right leftHypothesis rightHypothesis =>
    rw [cut, tree, Tree.cut]
    split
    · rfl
    · rw [tree, leftHypothesis, rightHypothesis]

/-- A condition that a right operand keeps when it is cut off holds everywhere in a cut. -/
theorem everywhere_cut {condition : Operator → Formula → Prop}
    (kept : ∀ operator right resolved, condition operator right →
      condition operator (right.cut resolved))
    {formula : Formula} (holds : formula.Everywhere condition) (resolved : Int) :
    (formula.cut resolved).Everywhere condition := by
  induction formula generalizing resolved with
  | leaf value => trivial
  | node left operator right leftHypothesis rightHypothesis =>
    obtain ⟨onLeft, onRight, here⟩ := holds
    rw [cut]
    split
    · trivial
    · exact ⟨leftHypothesis onLeft _, rightHypothesis onRight _, kept _ _ _ here⟩

theorem groupsLeft_cut (operator : Operator) (right : Formula) (resolved : Int)
    (groups : GroupsLeft operator right) : GroupsLeft operator (right.cut resolved) := by
  cases right with
  | leaf value => trivial
  | node left inner right =>
    rw [cut]
    split
    · trivial
    · exact groups

theorem withinReach_cut (operator : Operator) (right : Formula) (resolved : Int)
    (reach : WithinReach operator right) : WithinReach operator (right.cut resolved) := by
  cases right with
  | leaf value => trivial
  | node left inner right =>
    rw [cut]
    split
    · trivial
    · intro higher
      cases left with
      | leaf value => trivial
      | node _ _ _ => exact absurd (reach higher) id

end Formula

/-! ### Reading a stage -/

/-- The number that the text of a finite number is read as: minus zero loses its sign. -/
def withoutZeroSign (value : Float) : Float :=
  if value = -0.0 then 0 else value

theorem reread_of_finite {value : Float} (finite : value.isFinite = true) :
    reread value = withoutZeroSign value := by
  rw [withoutZeroSign]
  split
  · next zero =>
    have unsigned : reread (-0.0) = 0 := by decide +kernel
    rw [zero, unsigned]
  · next signed => exact reread_eq finite signed

theorem Tree.map_congr {Leaf Image : Type} {first second : Leaf → Image} {tree : Tree Leaf}
    (same : ∀ value ∈ tree.leaves, first value = second value) :
    tree.map first = tree.map second := by
  induction tree with
  | leaf value => rw [map, map, same value (List.mem_singleton_self value)]
  | node left operation right leftHypothesis rightHypothesis =>
    rw [map, map, leftHypothesis fun value member => same value (List.mem_append_left _ member),
      rightHypothesis fun value member => same value (List.mem_append_right _ member)]

/-- What a stage of a reduction is read as: the tree cut off there, with its minus zeros without
their signs. -/
def ReadsStage (formula : Formula) (resolved limit : Int) : Prop :=
  ∃ result, parse (formula.tree.resolve resolved) limit = .ok result ∧
    result = (formula.tree.cut resolved).map withoutZeroSign ∧
    ((∀ value ∈ (formula.tree.cut resolved).leaves, value ≠ -0.0) →
      result.evaluate = formula.tree.evaluate)

/-- The stages of a reduction between the whole expression and its value are read again, if the
tree is of a shape that comes back and the values of all its proper parts are finite. What is read
has the value of the tree, unless the stage shows a minus zero. -/
theorem parse_resolve (formula : Formula) (groups : formula.Everywhere Formula.GroupsLeft)
    (reach : formula.Everywhere Formula.WithinReach)
    (finite : ∀ part ∈ formula.tree.properParts, part.evaluate.isFinite = true)
    (resolved : Int) (opened : 1 ≤ resolved) (shown : resolved ≤ formula.tree.depth) (limit : Int)
    (deep : (formula.tree.height : Int) ≤ limit) :
    ReadsStage formula resolved limit := by
  have compound : 0 < formula.tree.height := by
    rw [Tree.depth_eq_height] at shown
    omega
  have numbers : ∀ value ∈ (formula.cut resolved).tree.leaves, value.isFinite = true := by
    rw [Formula.tree_cut]
    intro value member
    obtain ⟨part, inside, rfl⟩ := Tree.leaves_cut_of_pos (by omega) compound value member
    exact finite part inside
  have shallow : ((formula.cut resolved).tree.height : Int) ≤ limit := by
    rw [Formula.tree_cut]
    have lower := formula.tree.height_cut_le resolved
    omega
  have read := (formula.cut resolved).parse_render_finite numbers shallow
  rw [Formula.tree_written (Formula.everywhere_cut Formula.groupsLeft_cut groups resolved)
      (Formula.everywhere_cut Formula.withinReach_cut reach resolved),
    Tree.map_congr fun value member => reread_of_finite (numbers value member),
    Formula.tree_cut, ← Tree.resolve_eq_render_cut] at read
  refine ⟨_, read, rfl, fun signed => ?_⟩
  have same : (formula.tree.cut resolved).map withoutZeroSign = formula.tree.cut resolved :=
    Tree.map_eq_self fun value member => if_neg (signed value member)
  show ((formula.tree.cut resolved).map withoutZeroSign).evaluate = _
  rw [same, Tree.evaluate_cut]

/-- The stage `-2 / 4` of `(1 - 3) / 4` has its value. The stage of `1 / -0` reads `1 / 0`, which
is the other infinity. -/
theorem readsStage_of_two_quotients :
    (∃ result, parse ((Formula.node (.node (.leaf 1) .difference (.leaf 3)) .quotient
        (.leaf 4)).tree.resolve 1) 2 = .ok result ∧
      result.evaluate = (Formula.node (.node (.leaf 1) .difference (.leaf 3)) .quotient
        (.leaf 4)).tree.evaluate) ∧
    ∃ result, parse ((Formula.node (.leaf 1) .quotient (.leaf (-0.0))).tree.resolve 1) 1 =
        .ok result ∧
      result.evaluate ≠ (Formula.node (.leaf 1) .quotient (.leaf (-0.0))).tree.evaluate := by
  constructor
  · have finite : ∀ part ∈ (Formula.node (.node (.leaf 1) .difference (.leaf 3)) .quotient
        (.leaf 4)).tree.properParts, part.evaluate.isFinite = true := by
      simp only [Formula.tree, Tree.properParts, List.cons_append, List.nil_append,
        List.forall_mem_cons, Tree.evaluate_node, Tree.evaluate_leaf]
      decide +kernel
    have signed : ∀ value ∈ ((Formula.node (.node (.leaf 1) .difference (.leaf 3)) .quotient
        (.leaf 4)).tree.cut 1).leaves, value ≠ -0.0 := by
      show ∀ value ∈ [(Tree.node (.leaf 1) Operator.difference.operation (.leaf 3)).evaluate,
        (4 : Float)], value ≠ -0.0
      rw [Tree.evaluate_node, Tree.evaluate_leaf, Tree.evaluate_leaf]
      decide +kernel
    obtain ⟨result, read, _, kept⟩ := parse_resolve
      (.node (.node (.leaf 1) .difference (.leaf 3)) .quotient (.leaf 4))
      ⟨⟨trivial, trivial, trivial⟩, trivial, trivial⟩
      ⟨⟨trivial, trivial, trivial⟩, trivial, trivial⟩ finite 1 (Int.le_refl 1)
      (by rw [Tree.depth_eq_height]; decide) 2 (by decide)
    exact ⟨result, read, kept signed⟩
  · have finite : ∀ part ∈ (Formula.node (.leaf 1) .quotient (.leaf (-0.0))).tree.properParts,
        part.evaluate.isFinite = true := by
      simp only [Formula.tree, Tree.properParts, List.cons_append, List.nil_append,
        List.forall_mem_cons, Tree.evaluate_leaf]
      decide +kernel
    obtain ⟨result, read, unsigned, _⟩ := parse_resolve (.node (.leaf 1) .quotient (.leaf (-0.0)))
      ⟨trivial, trivial, trivial⟩ ⟨trivial, trivial, trivial⟩ finite 1 (Int.le_refl 1)
      (by rw [Tree.depth_eq_height]; decide) 1 (by decide)
    have whole : (Formula.node (.leaf 1) .quotient (.leaf (-0.0))).tree.cut 1 =
        (Formula.node (.leaf 1) .quotient (.leaf (-0.0))).tree := rfl
    refine ⟨result, read, ?_⟩
    rw [unsigned, whole, Formula.tree, Tree.map, Tree.evaluate_node, Tree.evaluate_node]
    simp only [Formula.tree, Tree.map, Tree.evaluate_leaf]
    decide +kernel

end Reckon
