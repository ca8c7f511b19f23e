/-
This file says which trees come back when they are written and read again.

The text of a node is the text of its left operand, the operator, and the chain
of its right operand. The reading has made the left operand before it comes to
the operator, and so the node comes back if and only if the operator takes the
whole chain behind it for its right operand. Where it does not, something from
the right ends up on the left: the root that the reading makes has more leaves
under its left operand than the tree had, and it is another tree whatever the
rest of it looks like.
-/

import Reckon.Proofs.PlainText

namespace Reckon

/-! ### What the reading takes for a right operand -/

/-- The operator of the move is a product or quotient. -/
def Move.Tight : Move → Prop
  | .apply operator _ => operator.isAdditive = false
  | .replace _ => True

/-- The reading of a chain is cut before an operator that takes nothing from the operators
before it. -/
theorem readChain_append (value : Expression) (before : List Move) (operator : Operator)
    (operand : Atom) (after : List Move)
    (settled : operator.isAdditive = true ∨ ∀ move ∈ before, move.Tight) :
    readChain value (before ++ .apply operator operand :: after) =
      readChain (readChain value before) (.apply operator operand :: after) := by
  fun_induction readChain value before with
  | case1 value => rfl
  | case2 value other moves inductionHypothesis =>
    rw [List.cons_append, readChain, inductionHypothesis]
    exact settled.imp_right fun tight move member => tight move (List.mem_cons_of_mem _ member)
  | case3 value earlier left tighter right moves ahead inductionHypothesis =>
    rw [List.cons_append, List.cons_append, readChain_taken ahead, inductionHypothesis]
    exact settled.imp_right fun tight move member =>
      tight move (List.mem_cons_of_mem _ (List.mem_cons_of_mem _ member))
  | case4 value earlier left tighter right moves kept inductionHypothesis =>
    rw [List.cons_append, List.cons_append, readChain_kept kept, ← List.cons_append,
      inductionHypothesis]
    exact settled.imp_right fun tight move member => tight move (List.mem_cons_of_mem _ member)
  | case5 value earlier left moves alone inductionHypothesis =>
    have others : operator.isAdditive = true ∨ ∀ move ∈ moves, move.Tight :=
      settled.imp_right fun tight move member => tight move (List.mem_cons_of_mem _ member)
    cases moves with
    | nil =>
      -- The two operators stand side by side, and the second takes nothing from the first.
      have apart : ¬ (earlier.isAdditive && left.bare && !operator.isAdditive) = true := by
        intro taken
        simp only [Bool.and_eq_true, Bool.not_eq_true'] at taken
        rcases settled with additive | tight
        · exact absurd additive (by rw [taken.2]; exact Bool.false_ne_true)
        · exact absurd taken.1.1 (by rw [tight _ List.mem_cons_self]; exact Bool.false_ne_true)
      rw [List.cons_append, List.nil_append, readChain_kept apart]
      rfl
    | cons move moves =>
      cases move with
      | apply tighter right => exact absurd rfl (alone tighter right moves)
      | replace other =>
        exact inductionHypothesis others

/-- A chain that an operator takes whole for its right operand: a lone operand, or a number that a
single tighter operator takes away. -/
inductive Whole (operator : Operator) : Chain → Prop
  | alone (operand : Operand) : Whole operator ⟨operand, .done⟩
  | pair (value : Float) (tighter : Operator) (operand : Operand)
      (additive : operator.isAdditive = true) (tight : tighter.isAdditive = false) :
      Whole operator ⟨.number value, .link tighter operand .done⟩

theorem Whole.readChain_eq {operator : Operator} {chain : Chain} (whole : Whole operator chain)
    (value : Expression) :
    readChain value (.apply operator chain.first.atom :: chain.links.moves) =
      .node value operator.operation chain.tree := by
  cases whole with
  | alone operand => rfl
  | pair number tighter operand additive tight =>
    have taken : (operator.isAdditive && true && !tighter.isAdditive) = true := by
      rw [additive, tight]
      rfl
    show readChain value [.apply operator ⟨.leaf number, true⟩, .apply tighter operand.atom] = _
    rw [readChain_taken taken]
    rfl

/-- Some move makes a root, and its left operand has at least the leaves that were there before. -/
theorem exists_root (value : Expression) (moves : List Move) (more : moves ≠ [])
    (keeps : ∀ move ∈ moves, move.Keeps) :
    ∃ left operation right, readChain value moves = .node left operation right ∧
      value.leaves.length ≤ left.leaves.length := by
  fun_induction readChain value moves with
  | case1 value => exact absurd rfl more
  | case2 value other moves inductionHypothesis =>
    exact absurd (keeps (.replace other) List.mem_cons_self) id
  | case3 value operator operand tighter right moves ahead inductionHypothesis =>
    cases moves with
    | nil => exact ⟨value, _, _, rfl, Nat.le_refl _⟩
    | cons move moves =>
      obtain ⟨left, operation, right, same, bound⟩ := inductionHypothesis (List.cons_ne_nil _ _)
        fun other member => keeps other (List.mem_cons_of_mem _ (List.mem_cons_of_mem _ member))
      refine ⟨left, operation, right, same, Nat.le_trans ?_ bound⟩
      rw [Tree.leaves, List.length_append]
      exact Nat.le_add_right _ _
  | case4 value operator operand tighter right moves kept inductionHypothesis =>
    obtain ⟨left, operation, right, same, bound⟩ := inductionHypothesis (List.cons_ne_nil _ _)
      fun other member => keeps other (List.mem_cons_of_mem _ member)
    refine ⟨left, operation, right, same, Nat.le_trans ?_ bound⟩
    rw [Tree.leaves, List.length_append]
    exact Nat.le_add_right _ _
  | case5 value operator operand moves alone inductionHypothesis =>
    cases moves with
    | nil => exact ⟨value, _, _, rfl, Nat.le_refl _⟩
    | cons move moves =>
      cases move with
      | apply tighter right => exact absurd rfl (alone tighter right moves)
      | replace other =>
        exact absurd (keeps (.replace other) (List.mem_cons_of_mem _ List.mem_cons_self)) id

theorem Operand.eq_number_of_bare {operand : Operand} (bare : operand.atom.bare = true) :
    ∃ value, operand = .number value := by
  cases operand with
  | number value => exact ⟨value, rfl⟩
  | group bracket first links => exact absurd bare Bool.false_ne_true

/-- Of any other chain the operator takes a part only, and that goes to the left of the root. -/
theorem exists_root_of_not_whole {operator : Operator} {chain : Chain}
    (broken : ¬ Whole operator chain) (value : Expression) :
    ∃ left operation right,
      readChain value (.apply operator chain.first.atom :: chain.links.moves) =
        .node left operation right ∧ value.leaves.length < left.leaves.length := by
  have grown : ∀ (right : Expression) (moves : List Move), moves ≠ [] →
      (∀ move ∈ moves, move.Keeps) → ∃ left operation right',
        readChain (.node value operator.operation right) moves = .node left operation right' ∧
          value.leaves.length < left.leaves.length := by
    intro right moves more keeps
    obtain ⟨left, operation, right', same, bound⟩ := exists_root _ moves more keeps
    refine ⟨left, operation, right', same, Nat.lt_of_lt_of_le ?_ bound⟩
    rw [Tree.leaves, List.length_append]
    exact Nat.lt_add_of_pos_right (List.length_pos_iff.mpr right.leaves_ne_nil)
  obtain ⟨first, links⟩ := chain
  cases links with
  | done => exact absurd (.alone first) broken
  | link tighter operand rest =>
    show ∃ left operation right, readChain value
      (.apply operator first.atom :: .apply tighter operand.atom :: rest.moves) = _ ∧ _
    have keeps := (Links.link tighter operand rest).moves_keep
    by_cases taken : (operator.isAdditive && first.atom.bare && !tighter.isAdditive) = true
    · rw [readChain_taken taken]
      simp only [Bool.and_eq_true, Bool.not_eq_true'] at taken
      obtain ⟨⟨additive, bare⟩, tight⟩ := taken
      obtain ⟨number, rfl⟩ := Operand.eq_number_of_bare bare
      refine grown _ _ ?_ rest.moves_keep
      cases rest with
      | done => exact absurd (.pair number tighter operand additive tight) broken
      | link _ _ _ => exact List.cons_ne_nil _ _
    · rw [readChain_kept taken]
      exact grown _ _ (List.cons_ne_nil _ _) keeps

/-! ### The chain of a formula -/

namespace Operator

theorem priority_lt_iff {operator tighter : Operator} :
    operator.priority < tighter.priority ↔
      operator.isAdditive = true ∧ tighter.isAdditive = false := by
  cases operator <;> cases tighter <;> decide

theorem priority_eq_iff {operator other : Operator} :
    operator.priority = other.priority ↔ operator.isAdditive = other.isAdditive := by
  cases operator <;> cases other <;> decide

end Operator

namespace Chain

theorem items_tree (chain : Chain) :
    chain.tree.items = chain.terminals.filterMap Terminal.item? :=
  items_operand_links chain.first chain.links

theorem items_join (left : Chain) (operator : Operator) (right : Chain) :
    (left.join operator right).tree.items =
      left.tree.items ++ .operation operator.symbol :: right.tree.items := by
  simp only [items_tree, terminals_join, List.filterMap_append]
  rfl

end Chain

namespace Formula

/-- The numbers and operators of a formula are written in their order, each number as it is
read. -/
theorem items_written (formula : Formula) :
    formula.written.tree.items = (formula.tree.map reread).items := by
  induction formula with
  | leaf value => rfl
  | node left operator right leftHypothesis rightHypothesis =>
    rw [written_node, Chain.items_join, side, side, Chain.tree_within, Chain.tree_within,
      leftHypothesis, rightHypothesis]
    rfl

theorem leaves_written (formula : Formula) :
    formula.written.tree.leaves = formula.tree.leaves.map reread := by
  rw [Tree.leaves_eq_items, items_written, ← Tree.leaves_eq_items, Tree.leaves_map]

theorem symbols_written (formula : Formula) :
    formula.written.tree.symbols = formula.tree.symbols := by
  rw [Tree.symbols_eq_items, items_written, ← Tree.symbols_eq_items, Tree.symbols,
    Tree.operations_map]
  rfl

/-- Beside a product or quotient an operand is written with products and quotients only, outside
its groups. -/
theorem tight_side {operator : Operator} (tight : operator.isAdditive = false) (formula : Formula) :
    ∀ move ∈ (formula.side operator).links.moves, move.Tight := by
  induction formula generalizing operator with
  | leaf value =>
    intro move member
    exact absurd member List.not_mem_nil
  | node left inner right leftHypothesis rightHypothesis =>
    intro move member
    cases loose : (node left inner right).loose operator with
    | true =>
      rw [side, loose] at member
      exact absurd member List.not_mem_nil
    | false =>
      have tightInner : inner.isAdditive = false := by
        refine Bool.eq_false_iff.mpr fun additive => ?_
        have looser := Operator.priority_lt_iff.mpr ⟨additive, tight⟩
        exact absurd (decide_eq_true looser) (Bool.eq_false_iff.mp loose)
      rw [side, loose, Chain.within, if_neg Bool.false_ne_true, written_node, Chain.join,
        Links.moves_join, List.mem_append, List.mem_cons] at member
      rcases member with member | rfl | member
      · exact leftHypothesis tightInner move member
      · exact tightInner
      · exact rightHypothesis tightInner move member

/-- The reading of a node is that of its left operand, gone on with from the operator. -/
theorem tree_written_node (left : Formula) (operator : Operator) (right : Formula) :
    (node left operator right).written.tree =
      readChain left.written.tree (.apply operator (right.side operator).first.atom ::
        (right.side operator).links.moves) := by
  have settled : operator.isAdditive = true ∨
      ∀ move ∈ (left.side operator).links.moves, move.Tight := by
    cases additive : operator.isAdditive with
    | true => exact .inl rfl
    | false => exact .inr (tight_side additive left)
  rw [written_node, Chain.tree, Chain.join, Links.moves_join, readChain_append _ _ _ _ _ settled,
    ← Chain.tree_within (left.loose operator) left.written]
  rfl

/-! ### The trees that come back -/

/-- Every node meets a condition on its operator and its right operand. -/
def Everywhere (condition : Operator → Formula → Prop) : Formula → Prop
  | .leaf _ => True
  | .node left operator right =>
    left.Everywhere condition ∧ right.Everywhere condition ∧ condition operator right

/-- The formula is a single number. -/
def IsLeaf : Formula → Prop
  | .leaf _ => True
  | .node _ _ _ => False

/-- The right operand of an operator is no node of the same priority. -/
def GroupsLeft (operator : Operator) : Formula → Prop
  | .leaf _ => True
  | .node _ inner _ => inner.priority ≠ operator.priority

/-- The right operand of an operator, if it is a node of a higher priority, has a leaf for its own
left operand. -/
def WithinReach (operator : Operator) : Formula → Prop
  | .leaf _ => True
  | .node left inner _ => operator.priority < inner.priority → left.IsLeaf

theorem links_written_node_ne_done (left : Formula) (operator : Operator) (right : Formula) :
    (node left operator right).written.links ≠ .done := by
  rw [written_node, Chain.join]
  cases (left.side operator).links <;> exact Links.noConfusion

theorem loose_iff {left right : Formula} {operator inner : Operator} :
    (node left inner right).loose operator = true ↔ inner.priority < operator.priority :=
  decide_eq_true_iff

/-- A right operand that no links follow is the whole chain behind its operator. -/
theorem links_side_of_groupsLeft {operator : Operator} {formula : Formula}
    (tight : operator.isAdditive = false) (groups : GroupsLeft operator formula) :
    (formula.side operator).links = .done := by
  cases formula with
  | leaf value => rfl
  | node left inner right =>
    have additive : inner.isAdditive = true := by
      rw [← Bool.not_eq_false]
      intro tightInner
      exact groups (Operator.priority_eq_iff.mpr (tightInner.trans tight.symm))
    have loose : (node left inner right).loose operator = true :=
      loose_iff.mpr (Operator.priority_lt_iff.mpr ⟨additive, tight⟩)
    rw [side, loose]
    rfl

theorem whole_side {operator : Operator} {formula : Formula}
    (groups : GroupsLeft operator formula) (reach : WithinReach operator formula)
    (inside : formula.Everywhere GroupsLeft) : Whole operator (formula.side operator) := by
  cases formula with
  | leaf value => exact .alone _
  | node left inner right =>
    cases loose : (node left inner right).loose operator with
    | true =>
      rw [side, loose]
      exact .alone _
    | false =>
      have notLower : ¬ inner.priority < operator.priority :=
        fun lower => Bool.eq_false_iff.mp loose (loose_iff.mpr lower)
      have higher : operator.priority < inner.priority :=
        Int.lt_iff_le_and_ne.mpr ⟨Int.not_lt.mp notLower, Ne.symm groups⟩
      obtain ⟨additive, tight⟩ := Operator.priority_lt_iff.mp higher
      cases left with
      | node _ _ _ => exact absurd (reach higher) id
      | leaf value =>
        have last : (right.side inner).links = .done :=
          links_side_of_groupsLeft tight inside.2.2
        have same : (node (leaf value) inner right).side operator =
            ⟨.number (reread value), .link inner (right.side inner).first .done⟩ := by
          rw [side, loose, ← last]
          rfl
        rw [same]
        exact .pair _ _ _ additive tight

/-- A single link is left only by joining to no links at all. -/
theorem links_eq_done_of_join {links : Links} {operator tighter : Operator} {chain : Chain}
    {operand : Operand} (single : links.join operator chain = .link tighter operand .done) :
    links = .done ∧ operator = tighter := by
  cases links with
  | done =>
    injection single with same
    exact ⟨rfl, same⟩
  | link earlier other rest =>
    injection single with _ _ others
    cases rest <;> exact Links.noConfusion others

/-- Only a leaf is written as a bare number. -/
theorem isLeaf_of_side {operator : Operator} {formula : Formula} {value : Float}
    (alone : formula.side operator = ⟨.number value, .done⟩) : formula.IsLeaf := by
  cases formula with
  | leaf number => trivial
  | node left inner right =>
    cases loose : (node left inner right).loose operator with
    | true =>
      rw [side, loose] at alone
      exact Operand.noConfusion (congrArg Chain.first alone)
    | false =>
      rw [side, loose] at alone
      exact absurd (congrArg Chain.links alone) (links_written_node_ne_done left inner right)

theorem of_whole_side {operator : Operator} {formula : Formula}
    (whole : Whole operator (formula.side operator)) :
    GroupsLeft operator formula ∧ WithinReach operator formula := by
  cases formula with
  | leaf value => exact ⟨trivial, trivial⟩
  | node left inner right =>
    cases loose : (node left inner right).loose operator with
    | true =>
      have lower := loose_iff.mp loose
      exact ⟨Int.ne_of_lt lower, fun higher => absurd higher (Int.lt_asymm lower)⟩
    | false =>
      have written : (node left inner right).side operator =
          (left.side inner).join inner (right.side inner) := by
        rw [side, loose]
        rfl
      rw [written] at whole
      generalize split : (left.side inner).join inner (right.side inner) = chain at whole
      cases whole with
      | alone operand =>
        exact absurd (congrArg Chain.links split) (links_written_node_ne_done left inner right)
      | pair value tighter operand additive tight =>
        obtain ⟨first, links⟩ := Chain.mk.inj split
        obtain ⟨last, rfl⟩ := links_eq_done_of_join links
        have higher := Operator.priority_lt_iff.mpr ⟨additive, tight⟩
        have single : left.side inner = ⟨.number value, .done⟩ := by
          rw [← first, ← last]
        exact ⟨Int.ne_of_gt higher, fun _ => isLeaf_of_side single⟩

/-- A formula whose right operands are all taken whole is read as it was. -/
theorem tree_written {formula : Formula} (groups : formula.Everywhere GroupsLeft)
    (reach : formula.Everywhere WithinReach) : formula.written.tree = formula.tree.map reread := by
  induction formula with
  | leaf value => rfl
  | node left operator right leftHypothesis rightHypothesis =>
    obtain ⟨leftGroups, rightGroups, groups⟩ := groups
    obtain ⟨leftReach, rightReach, reach⟩ := reach
    have whole := whole_side groups reach rightGroups
    rw [tree_written_node, whole.readChain_eq, side, Chain.tree_within,
      leftHypothesis leftGroups leftReach, rightHypothesis rightGroups rightReach]
    rfl

end Formula

theorem Tree.sameBy_map {Leaf : Type} {sameLeaf : Leaf → Leaf → Bool} {change : Leaf → Leaf}
    {tree : Tree Leaf} (same : ∀ value ∈ tree.leaves, sameLeaf (change value) value = true) :
    (tree.map change).sameBy sameLeaf tree = true := by
  induction tree with
  | leaf value => exact same value (List.mem_singleton_self value)
  | node left operation right leftHypothesis rightHypothesis =>
    rw [map, sameBy, leftHypothesis fun value member => same value (List.mem_append_left _ member),
      rightHypothesis fun value member => same value (List.mem_append_right _ member),
      Operation.beq_self]
    rfl

/-- Trees that are the same have as many leaves. -/
theorem Tree.length_leaves_of_sameBy {Leaf : Type} {sameLeaf : Leaf → Leaf → Bool}
    {first second : Tree Leaf} (same : first.sameBy sameLeaf second = true) :
    first.leaves.length = second.leaves.length := by
  induction first generalizing second with
  | leaf value =>
    cases second with
    | leaf other => rfl
    | node left operation right => exact absurd same Bool.false_ne_true
  | node left operation right leftHypothesis rightHypothesis =>
    cases second with
    | leaf other => exact absurd same Bool.false_ne_true
    | node left' operation' right' =>
      simp only [sameBy, Bool.and_eq_true] at same
      rw [leaves, leaves, List.length_append, List.length_append, leftHypothesis same.1.1,
        rightHypothesis same.2]

namespace Formula

/-- What is read is the same as the formula if and only if every right operand is taken whole. -/
theorem sameBy_written_iff {formula : Formula}
    (faithful : ∀ value ∈ formula.tree.leaves, (reread value == value) = true) :
    formula.written.tree.sameBy (· == ·) formula.tree = true ↔
      formula.Everywhere GroupsLeft ∧ formula.Everywhere WithinReach := by
  constructor
  · induction formula with
    | leaf value => exact fun _ => ⟨trivial, trivial⟩
    | node left operator right leftHypothesis rightHypothesis =>
      intro same
      rw [tree_written_node] at same
      by_cases whole : Whole operator (right.side operator)
      · rw [whole.readChain_eq, side, Chain.tree_within, tree, Tree.sameBy, Bool.and_eq_true,
          Bool.and_eq_true] at same
        obtain ⟨leftGroups, leftReach⟩ := leftHypothesis
          (fun value member => faithful value (List.mem_append_left _ member)) same.1.1
        obtain ⟨rightGroups, rightReach⟩ := rightHypothesis
          (fun value member => faithful value (List.mem_append_right _ member)) same.2
        obtain ⟨groups, reach⟩ := of_whole_side whole
        exact ⟨⟨leftGroups, rightGroups, groups⟩, leftReach, rightReach, reach⟩
      · -- The left operand that is read has more leaves than the one that was written.
        obtain ⟨root, operation, _, read, more⟩ :=
          exists_root_of_not_whole whole left.written.tree
        rw [read, tree, Tree.sameBy, Bool.and_eq_true, Bool.and_eq_true] at same
        have asMany := Tree.length_leaves_of_sameBy same.1.1
        rw [leaves_written, List.length_map] at more
        omega
  · rintro ⟨groups, reach⟩
    rw [tree_written groups reach]
    exact Tree.sameBy_map faithful

end Formula

/-- Of the trees whose numbers all read back, written and read again under a limit that they stay
within, exactly those come back in which no right operand is a node of the same priority, and any
right operand of a higher priority has a leaf for its own left operand. -/
theorem parse_render_eq_iff (formula : Formula)
    (readable : ∀ value ∈ formula.tree.leaves, ReadsBack value) (limit : Int)
    (deep : (formula.tree.height : Int) ≤ limit) :
    (∃ result, parse formula.tree.render limit = .ok result ∧ (result == formula.tree) = true) ↔
      formula.Everywhere Formula.GroupsLeft ∧ formula.Everywhere Formula.WithinReach := by
  have read : parse formula.tree.render limit = .ok formula.written.tree :=
    formula.parse_render
      (fun value member => Spelling.accepts_plain (readable value member).finite) deep
  have faithful : ∀ value ∈ formula.tree.leaves, (reread value == value) = true :=
    fun value member => (readsBack_iff.mp (readable value member)).2
  rw [← Formula.sameBy_written_iff faithful]
  constructor
  · rintro ⟨result, outcome, same⟩
    rw [read] at outcome
    rw [Except.ok.inj outcome]
    exact same
  · exact fun same => ⟨formula.written.tree, read, same⟩

/-- A sum with a product on its right comes back. -/
theorem parse_render_one_plus_two_times_three :
    ∃ result,
      parse (Formula.node (.leaf 1) .sum (.node (.leaf 2) .product (.leaf 3))).tree.render 2 =
          .ok result ∧
        (result == (Formula.node (.leaf 1) .sum (.node (.leaf 2) .product (.leaf 3))).tree) =
          true := by
  have readable : ∀ value ∈ [(1 : Float), 2, 3], ReadsBack value := by
    intro value member
    simp only [List.mem_cons, List.not_mem_nil, or_false] at member
    rcases member with rfl | rfl | rfl <;> exact readsBack_iff.mpr (by decide +kernel)
  refine (parse_render_eq_iff (.node (.leaf 1) .sum (.node (.leaf 2) .product (.leaf 3)))
    readable 2 (by decide)).mpr ⟨?_, ?_⟩
  · exact ⟨trivial, ⟨trivial, trivial, trivial⟩, fun same => absurd same (by decide)⟩
  · exact ⟨trivial, ⟨trivial, trivial, trivial⟩, fun _ => trivial⟩

end Reckon
