/-
This file compares the tree that an expression is read as with the one that
convention gives it.

The reading differs where a tight operator finds a sum in front of it that it
takes no part of: behind a group, and behind another tight operator. That the
trees then differ is seen on their left edge. The reading has closed the sum,
and so some subtree on the edge ends with it. On the edge of the conventional
tree the smallest subtree that holds more than the left operand of the sum goes
on to the next operand at least.
-/

import Reckon.Proofs.Convention

namespace Reckon

open Conventional

/-! ### Both readings, link by link -/

/-- An operator with its right operand. -/
structure Link where
  operator : Operator
  operand : Operand

def Link.move (link : Link) : Move :=
  .apply link.operator link.operand.atom

def Links.toList : Links → List Link
  | .done => []
  | .link operator operand rest => ⟨operator, operand⟩ :: rest.toList

theorem Links.moves_toList (links : Links) : links.moves = links.toList.map Link.move := by
  cases links with
  | done => rfl
  | link operator operand rest => rw [moves, rest.moves_toList, toList, List.map_cons, Link.move]

/-- No tight operator goes on with the links before these. -/
def Loose (links : List Link) : Prop :=
  ∀ next, links.head? = some next → next.operator.isAdditive = true

theorem exists_tight_of_not_loose {links : List Link} (notLoose : ¬ Loose links) :
    ∃ link rest, links = link :: rest ∧ link.operator.isAdditive = false := by
  cases links with
  | nil => exact absurd (by simp [Loose]) notLoose
  | cons link rest =>
    refine ⟨link, rest, rfl, Bool.eq_false_iff.mpr fun additive => notLoose ?_⟩
    intro other isOther
    obtain rfl := Option.some.inj isOther
    exact additive

/-- A value with one more link, as convention has it: a tight operator takes the end of the value,
and any other takes all of it. -/
def Pending.extend (pending : Pending) (link : Link) : Pending :=
  if link.operator.isAdditive then ⟨[(pending.tree, link.operator)], link.operand.factor.tree⟩
  else ⟨pending.waiting, .node pending.value link.operator.operation link.operand.factor.tree⟩

namespace Conventional

/-- A sum as a value whose end may still be taken. -/
def Phrase.pending : Phrase → Pending
  | .single last => ⟨[], last.tree⟩
  | .add left operator _ last => ⟨[(left.tree, operator)], last.tree⟩

theorem Phrase.tree_pending (sum : Phrase) : sum.pending.tree = sum.tree := by
  cases sum <;> rfl

theorem Phrase.pending_append (sum : Phrase) (operator : Operator) (operand : Operand) :
    (sum.append operator operand.factor).pending = sum.pending.extend ⟨operator, operand⟩ := by
  cases additive : operator.isAdditive with
  | true =>
    rw [append_additive _ sum additive, Pending.extend, if_pos additive, tree_pending]
    rfl
  | false =>
    rw [Pending.extend, if_neg (Bool.eq_false_iff.mp additive)]
    cases sum with
    | single last =>
      rw [append_single _ last additive]
      rfl
    | add left earlier loose last =>
      rw [append_add _ left loose last additive]
      rfl

end Conventional

theorem Links.pending_behind (sum : Phrase) (links : Links) :
    (links.behind sum).pending = links.toList.foldl Pending.extend sum.pending := by
  cases links with
  | done => rfl
  | link operator operand rest =>
    rw [behind, rest.pending_behind, Phrase.pending_append, toList, List.foldl_cons]

theorem Chain.tree_conventional (chain : Chain) :
    chain.conventional.tree =
      (chain.links.toList.foldl Pending.extend (.settled chain.first.factor.tree)).tree := by
  rw [conventional, ← Phrase.tree_pending, Links.pending_behind]
  rfl

namespace Pending

section
variable {pending : Pending} {link : Link}

theorem extend_additive (additive : link.operator.isAdditive = true) :
    pending.extend link = ⟨[(pending.tree, link.operator)], link.operand.factor.tree⟩ :=
  if_pos additive

theorem extend_tight (tight : link.operator.isAdditive = false) :
    pending.extend link =
      ⟨pending.waiting, .node pending.value link.operator.operation link.operand.factor.tree⟩ :=
  if_neg (Bool.eq_false_iff.mp tight)

end

/-- The value of a single link behind a value. -/
theorem tree_extend_settled (value : Expression) (link : Link) :
    ((settled value).extend link).tree =
      .node value link.operator.operation link.operand.factor.tree := by
  unfold extend
  split <;> rfl

/-- Only a tight operator can tell whether the value before it is settled. -/
theorem tree_foldl_extend (pending : Pending) (links : List Link) (loose : Loose links) :
    (links.foldl extend pending).tree = (links.foldl extend (settled pending.tree)).tree := by
  cases links with
  | nil => rfl
  | cons link links =>
    have additive := loose link rfl
    rw [List.foldl_cons, List.foldl_cons, extend_additive additive, extend_additive additive,
      tree_settled]

end Pending

/-! ### Where the readings part -/

/-- The operand is a group. -/
def Operand.IsGroup : Operand → Prop
  | .number _ => False
  | .group _ _ _ => True

theorem Operand.isGroup_iff (operand : Operand) : operand.IsGroup ↔ operand.atom.bare = false := by
  cases operand <;> simp [IsGroup, atom]

/-- Behind a sum or difference stands a product or quotient that convention gives its operand to,
and that operand is a group, or another product or quotient stands behind. -/
def Misgrouped (links : List Link) : Prop :=
  ∃ (index : Nat) (link next : Link),
    links[index]? = some link ∧ links[index + 1]? = some next ∧
    link.operator.isAdditive = true ∧ next.operator.isAdditive = false ∧
    (link.operand.IsGroup ∨
      ∃ last, links[index + 2]? = some last ∧ last.operator.isAdditive = false)

theorem not_misgrouped_nil : ¬ Misgrouped [] := by
  rintro ⟨index, link, next, here, _⟩
  simp at here

/-- The readings part at the first operator of a list or further on. -/
theorem misgrouped_cons_iff (link : Link) (links : List Link) :
    Misgrouped (link :: links) ↔
      (∃ next, links.head? = some next ∧ link.operator.isAdditive = true ∧
        next.operator.isAdditive = false ∧ (link.operand.IsGroup ∨
          ∃ last, links[1]? = some last ∧ last.operator.isAdditive = false)) ∨
      Misgrouped links := by
  constructor
  · rintro ⟨index, found, next, here, behind, others⟩
    cases index with
    | zero =>
      obtain rfl := Option.some.inj here
      rw [Nat.zero_add, List.getElem?_cons_succ, ← List.head?_eq_getElem?] at behind
      exact .inl ⟨next, behind, others⟩
    | succ index => exact .inr ⟨index, found, next, here, behind, others⟩
  · rintro (⟨next, behind, others⟩ | ⟨index, found, next, here, behind, others⟩)
    · refine ⟨0, link, next, rfl, ?_, others⟩
      rw [Nat.zero_add, List.getElem?_cons_succ, ← List.head?_eq_getElem?]
      exact behind
    · exact ⟨index + 1, found, next, here, behind, others⟩

/-! ### The left edge of a tree -/

namespace Tree

variable {Leaf : Type}

/-- The operations of a tree and how they lie in one another. -/
def shape (tree : Tree Leaf) : Tree Unit :=
  tree.map fun _ => ()

/-- How many leaves has the smallest subtree on the left edge with more than so many. -/
def edge (count : Nat) : Tree Leaf → Nat
  | .leaf _ => 1
  | .node left _ right =>
    if count < left.leaves.length then left.edge count
    else left.leaves.length + right.leaves.length

theorem edge_shape (count : Nat) (tree : Tree Leaf) : tree.shape.edge count = tree.edge count := by
  induction tree with
  | leaf value => rfl
  | node left operation right leftHypothesis rightHypothesis =>
    rw [shape] at leftHypothesis ⊢
    rw [map, edge, edge, leftHypothesis, leaves_map, leaves_map, List.length_map, List.length_map]

/-- A subtree on the edge keeps the edge of its own left operand. -/
theorem edge_node_of_lt {count : Nat} {left : Tree Leaf} (deep : count < left.leaves.length)
    (operation : Operation) (right : Tree Leaf) :
    (node left operation right).edge count = left.edge count :=
  if_pos deep

theorem edge_node_self (left : Tree Leaf) (operation : Operation) (right : Tree Leaf) :
    (node left operation right).edge left.leaves.length =
      left.leaves.length + right.leaves.length :=
  if_neg (Nat.lt_irrefl _)

theorem length_leaves_node (left : Tree Leaf) (operation : Operation) (right : Tree Leaf) :
    (node left operation right).leaves.length = left.leaves.length + right.leaves.length :=
  List.length_append

theorem length_leaves_pos (tree : Tree Leaf) : 0 < tree.leaves.length :=
  List.length_pos_iff.mpr tree.leaves_ne_nil

end Tree

/-- What has been read stays on the edge. -/
theorem edge_readChain {count : Nat} (value : Expression) (moves : List Move)
    (keeps : ∀ move ∈ moves, move.Keeps) (deep : count < value.leaves.length) :
    (readChain value moves).edge count = value.edge count := by
  have grown (left right : Expression) (operation : Operation) (deep : count < left.leaves.length) :
      count < (Tree.node left operation right).leaves.length := by
    rw [Tree.length_leaves_node]
    exact Nat.lt_add_right _ deep
  fun_induction readChain value moves with
  | case1 value => rfl
  | case2 value other moves inductionHypothesis =>
    exact absurd (keeps (.replace other) List.mem_cons_self) id
  | case3 value operator operand tighter right moves ahead inductionHypothesis =>
    rw [inductionHypothesis
      (fun move member => keeps move (List.mem_cons_of_mem _ (List.mem_cons_of_mem _ member)))
      (grown _ _ _ deep), Tree.edge_node_of_lt deep]
  | case4 value operator operand tighter right moves kept inductionHypothesis =>
    rw [inductionHypothesis (fun move member => keeps move (List.mem_cons_of_mem _ member))
      (grown _ _ _ deep), Tree.edge_node_of_lt deep]
  | case5 value operator operand moves alone inductionHypothesis =>
    rw [inductionHypothesis (fun move member => keeps move (List.mem_cons_of_mem _ member))
      (grown _ _ _ deep), Tree.edge_node_of_lt deep]

namespace Pending

/-- The left operand of a waiting sum stays on the edge. -/
theorem edge_foldl_extend {count : Nat} (left last : Expression) (operator : Operator)
    (links : List Link) (deep : count < left.leaves.length) :
    (links.foldl extend ⟨[(left, operator)], last⟩).tree.edge count = left.edge count := by
  induction links generalizing left last operator with
  | nil => exact Tree.edge_node_of_lt deep _ _
  | cons link links inductionHypothesis =>
    rw [List.foldl_cons]
    cases additive : link.operator.isAdditive with
    | true =>
      have deeper : count < (tree ⟨[(left, operator)], last⟩).leaves.length :=
        Nat.lt_of_lt_of_eq (Nat.lt_add_right _ deep) (Tree.length_leaves_node _ _ _).symm
      rw [extend_additive additive, inductionHypothesis _ _ _ deeper]
      exact Tree.edge_node_of_lt deep _ _
    | false =>
      rw [extend_tight additive]
      exact inductionHypothesis left _ operator deep

/-- Behind the left operand of a waiting sum the edge goes on to the end of the sum at least. -/
theorem le_edge_foldl_extend (left last : Expression) (operator : Operator) (links : List Link) :
    left.leaves.length + last.leaves.length ≤
      (links.foldl extend ⟨[(left, operator)], last⟩).tree.edge left.leaves.length := by
  induction links generalizing last with
  | nil => exact Nat.le_of_eq (Tree.edge_node_self _ _ _).symm
  | cons link links inductionHypothesis =>
    rw [List.foldl_cons]
    cases additive : link.operator.isAdditive with
    | true =>
      have deeper : left.leaves.length < (tree ⟨[(left, operator)], last⟩).leaves.length :=
        Nat.lt_of_lt_of_eq (Nat.lt_add_of_pos_right last.length_leaves_pos)
          (Tree.length_leaves_node _ _ _).symm
      rw [extend_additive additive, edge_foldl_extend _ _ _ links deeper]
      exact Nat.le_of_eq (Tree.edge_node_self _ _ _).symm
    | false =>
      rw [extend_tight additive]
      refine Nat.le_trans ?_ (inductionHypothesis _)
      rw [Tree.length_leaves_node]
      exact Nat.add_le_add_left (Nat.le_add_right _ _) _

/-- The trees differ where the reading closes a sum that a tight operator goes on with. -/
theorem shape_ne_of_tight {value meant right right' : Expression} (operator : Operator)
    {moves : List Move} (keeps : ∀ move ∈ moves, move.Keeps) {link : Link} (links : List Link)
    (tight : link.operator.isAdditive = false)
    (sameLeft : value.leaves.length = meant.leaves.length)
    (sameRight : right.leaves.length = right'.leaves.length) :
    (readChain (.node value operator.operation right) moves).shape ≠
      ((link :: links).foldl extend ⟨[(meant, operator)], right'⟩).tree.shape := by
  intro same
  have edges := congrArg (Tree.edge meant.leaves.length) same
  have deep : meant.leaves.length <
      (Tree.node value operator.operation right).leaves.length := by
    rw [Tree.length_leaves_node, sameLeft]
    exact Nat.lt_add_of_pos_right right.length_leaves_pos
  have bound := le_edge_foldl_extend meant
    (.node right' link.operator.operation link.operand.factor.tree) operator links
  rw [Tree.edge_shape, Tree.edge_shape, edge_readChain _ _ keeps deep, ← sameLeft,
    Tree.edge_node_self, sameLeft, List.foldl_cons, extend_tight tight] at edges
  rw [← edges, Tree.length_leaves_node, sameRight] at bound
  have positive := link.operand.factor.tree.length_leaves_pos
  omega

end Pending

/-! ### One chain -/

/-- Whether the next operator takes the operand of a link away. -/
def Link.GivesTo (link next : Link) : Prop :=
  (link.operator.isAdditive && link.operand.atom.bare && !next.operator.isAdditive) = true

section
variable {link next : Link} {links : List Link}

theorem Link.givesTo_iff : link.GivesTo next ↔
    link.operator.isAdditive = true ∧ link.operand.atom.bare = true ∧
      next.operator.isAdditive = false := by
  rw [GivesTo, Bool.and_eq_true, Bool.and_eq_true, Bool.not_eq_true', and_assoc]

/-- The link keeps its operand, whatever is behind it. -/
def Link.Keeps (link : Link) (links : List Link) : Prop :=
  ∀ next, links.head? = some next → ¬ link.GivesTo next

/-- A list of links, taken as the reading takes it: two links where the first gives its operand to
the second, and one link otherwise. -/
theorem links_induction {motive : List Link → Prop} (nil : motive [])
    (given : ∀ link next links, link.GivesTo next → motive links → motive (link :: next :: links))
    (kept : ∀ link links, link.Keeps links → motive links → motive (link :: links)) :
    ∀ links, motive links
  | [] => nil
  | [link] => kept link [] (by simp [Link.Keeps]) nil
  | link :: next :: links => by
    by_cases gives : link.GivesTo next
    · exact given link next links gives (links_induction nil given kept links)
    · refine kept link (next :: links) ?_ (links_induction nil given kept (next :: links))
      rintro other isOther
      obtain rfl := Option.some.inj isOther
      exact gives

theorem readChain_given (given : link.GivesTo next) (value : Expression) :
    readChain value ((link :: next :: links).map Link.move) =
      readChain (.node value link.operator.operation
        (.node link.operand.tree next.operator.operation next.operand.tree))
        (links.map Link.move) :=
  readChain_taken given value next.operand.atom (links.map Link.move)

theorem readChain_keeps (kept : link.Keeps links) (value : Expression) :
    readChain value ((link :: links).map Link.move) =
      readChain (.node value link.operator.operation link.operand.tree)
        (links.map Link.move) := by
  cases links with
  | nil => rfl
  | cons next links =>
    exact readChain_kept (kept next rfl) value next.operand.atom (links.map Link.move)

namespace Pending

/-- Convention too groups an operand that is given away with the next one. -/
theorem foldl_given (given : link.GivesTo next) (value : Expression) :
    (link :: next :: links).foldl extend (settled value) =
      links.foldl extend ⟨[(value, link.operator)],
        .node link.operand.factor.tree next.operator.operation next.operand.factor.tree⟩ := by
  obtain ⟨additive, _, tight⟩ := Link.givesTo_iff.mp given
  rw [List.foldl_cons, List.foldl_cons, extend_additive additive, extend_tight tight]
  rfl

/-- Convention closes a link that no tight operator goes on with. -/
theorem tree_foldl_closed (closed : link.operator.isAdditive = false ∨ Loose links)
    (value : Expression) :
    ((link :: links).foldl extend (settled value)).tree =
      (links.foldl extend
        (settled (.node value link.operator.operation link.operand.factor.tree))).tree := by
  rw [List.foldl_cons]
  rcases closed with tight | loose
  · rw [extend_tight tight]
    rfl
  · rw [tree_foldl_extend _ links loose, tree_extend_settled]

end Pending

/-- The readings part at a link that gives its operand away if the operator behind is tight. -/
theorem misgrouped_given_iff (given : link.GivesTo next) :
    Misgrouped (link :: next :: links) ↔ ¬ Loose links ∨ Misgrouped links := by
  obtain ⟨additive, bare, tight⟩ := Link.givesTo_iff.mp given
  have noGroup : ¬ link.operand.IsGroup := by
    rw [Operand.isGroup_iff, bare]
    exact Bool.noConfusion
  rw [misgrouped_cons_iff, misgrouped_cons_iff]
  constructor
  · rintro (⟨_, _, _, _, group | ⟨last, isLast, tightLast⟩⟩ | ⟨_, _, additiveNext, _⟩ | parts)
    · exact absurd group noGroup
    · refine .inl fun loose => ?_
      rw [List.getElem?_cons_succ, ← List.head?_eq_getElem?] at isLast
      rw [loose last isLast] at tightLast
      exact Bool.noConfusion tightLast
    · rw [tight] at additiveNext
      exact Bool.noConfusion additiveNext
    · exact .inr parts
  · rintro (notLoose | parts)
    · simp only [Loose, not_forall] at notLoose
      obtain ⟨last, isLast, notAdditive⟩ := notLoose
      rw [List.head?_eq_getElem?] at isLast
      exact .inl ⟨next, rfl, additive, tight, .inr ⟨last, isLast, Bool.eq_false_iff.mpr notAdditive⟩⟩
    · exact .inr (.inr parts)

/-- The readings part at a link that keeps its operand if it is a sum and the next operator is
tight. -/
theorem misgrouped_keeps_iff (kept : link.Keeps links) :
    Misgrouped (link :: links) ↔
      (link.operator.isAdditive = true ∧ ¬ Loose links) ∨ Misgrouped links := by
  rw [misgrouped_cons_iff]
  refine or_congr_left ⟨?_, ?_⟩
  · rintro ⟨next, isNext, additive, tight, _⟩
    refine ⟨additive, fun loose => ?_⟩
    rw [loose next isNext] at tight
    exact Bool.noConfusion tight
  · rintro ⟨additive, notLoose⟩
    simp only [Loose, not_forall] at notLoose
    obtain ⟨next, isNext, notAdditive⟩ := notLoose
    have tight := Bool.eq_false_iff.mpr notAdditive
    refine ⟨next, isNext, additive, tight, .inl ((Operand.isGroup_iff _).mpr ?_)⟩
    refine Bool.eq_false_iff.mpr fun bare => ?_
    exact kept next isNext (Link.givesTo_iff.mpr ⟨additive, bare, tight⟩)

theorem Link.keeps_moves (links : List Link) : ∀ move ∈ links.map Link.move, move.Keeps := by
  intro move member
  obtain ⟨link, _, rfl⟩ := List.mem_map.mp member
  trivial

end

/-- Where the readings part nowhere, they make the same tree. -/
theorem readChain_eq_of_not_misgrouped (links : List Link) (value : Expression)
    (agree : ¬ Misgrouped links)
    (same : ∀ link ∈ links, link.operand.tree = link.operand.factor.tree) :
    readChain value (links.map Link.move) = (links.foldl Pending.extend (.settled value)).tree := by
  induction links using links_induction generalizing value with
  | nil => rfl
  | given link next links given inductionHypothesis =>
    obtain ⟨loose, agree⟩ := not_or.mp (mt (misgrouped_given_iff given).mpr agree)
    rw [readChain_given given, Pending.foldl_given given,
      Pending.tree_foldl_extend _ links (not_not.mp loose), same link (by simp),
      same next (by simp)]
    exact inductionHypothesis _ agree fun other member => same other (by simp [member])
  | kept link links kept inductionHypothesis =>
    obtain ⟨closed, agree⟩ := not_or.mp (mt (misgrouped_keeps_iff kept).mpr agree)
    have closed : link.operator.isAdditive = false ∨ Loose links :=
      (Classical.not_and_iff_not_or_not.mp closed).imp Bool.eq_false_iff.mpr not_not.mp
    rw [readChain_keeps kept, Pending.tree_foldl_closed closed, same link (by simp)]
    exact inductionHypothesis _ agree fun other member => same other (by simp [member])

/-! ### Leaves in both readings -/

namespace Conventional

mutual

theorem Phrase.items_tree (sum : Phrase) :
    sum.tree.items = sum.terminals.filterMap Terminal.item? := by
  cases sum with
  | single product => exact product.items_tree
  | add left operator additive right =>
    rw [Phrase.tree, Tree.items, left.items_tree, right.items_tree, Phrase.terminals,
      List.filterMap_append]
    rfl

theorem Term.items_tree (product : Term) :
    product.tree.items = product.terminals.filterMap Terminal.item? := by
  cases product with
  | single factor => exact factor.items_tree
  | multiply left operator tight right =>
    rw [Term.tree, Tree.items, left.items_tree, right.items_tree, Term.terminals,
      List.filterMap_append]
    rfl

theorem Factor.items_tree (factor : Factor) :
    factor.tree.items = factor.terminals.filterMap Terminal.item? := by
  cases factor with
  | number value => rfl
  | group bracket content =>
    rw [Factor.tree, content.items_tree, Factor.terminals, List.filterMap_cons_none rfl,
      List.filterMap_append, List.filterMap_cons_none rfl, List.filterMap_nil, List.append_nil]

end

end Conventional

/-- An operand has the same leaves in both readings. -/
theorem Operand.leaves_factor (operand : Operand) :
    operand.factor.tree.leaves = operand.tree.leaves := by
  rw [Tree.leaves_eq_items, Tree.leaves_eq_items, Factor.items_tree, operand.terminals_factor,
    operand.items_tree]

/-- Trees of the same shape come from values and operands of the same shapes, and the readings part
nowhere. -/
theorem not_misgrouped_of_shape_eq (links : List Link) (value meant : Expression)
    (sameLeaves : value.leaves.length = meant.leaves.length)
    (same : (readChain value (links.map Link.move)).shape =
      (links.foldl Pending.extend (.settled meant)).tree.shape) :
    ¬ Misgrouped links ∧ value.shape = meant.shape ∧
      ∀ link ∈ links, link.operand.tree.shape = link.operand.factor.tree.shape := by
  induction links using links_induction generalizing value meant with
  | nil => exact ⟨not_misgrouped_nil, same, by simp⟩
  | given link next links given inductionHypothesis =>
    have level : (Tree.node link.operand.tree next.operator.operation
        next.operand.tree).leaves.length = (Tree.node link.operand.factor.tree
        next.operator.operation next.operand.factor.tree).leaves.length := by
      rw [Tree.leaves, Tree.leaves, Operand.leaves_factor, Operand.leaves_factor]
    rw [readChain_given given, Pending.foldl_given given] at same
    have loose : Loose links := by
      by_contra notLoose
      obtain ⟨last, rest, rfl, tight⟩ := exists_tight_of_not_loose notLoose
      exact Pending.shape_ne_of_tight link.operator (Link.keeps_moves _) rest tight sameLeaves
        level same
    rw [Pending.tree_foldl_extend _ links loose] at same
    obtain ⟨agree, sameNode, sameOthers⟩ := inductionHypothesis _ _
      (by rw [Tree.length_leaves_node, sameLeaves, level]; exact List.length_append.symm) same
    obtain ⟨sameValue, _, sameOperands⟩ := Tree.node.inj sameNode
    obtain ⟨sameLink, _, sameNext⟩ := Tree.node.inj sameOperands
    refine ⟨mt (misgrouped_given_iff given).mp (not_or.mpr ⟨not_not.mpr loose, agree⟩), sameValue,
      ?_⟩
    simp only [List.forall_mem_cons]
    exact ⟨sameLink, sameNext, sameOthers⟩
  | kept link links kept inductionHypothesis =>
    rw [readChain_keeps kept] at same
    have closed : link.operator.isAdditive = false ∨ Loose links := by
      cases additive : link.operator.isAdditive with
      | false => exact .inl rfl
      | true =>
        refine .inr ?_
        by_contra notLoose
        obtain ⟨last, rest, rfl, tight⟩ := exists_tight_of_not_loose notLoose
        rw [List.foldl_cons, Pending.extend_additive additive] at same
        exact Pending.shape_ne_of_tight link.operator (Link.keeps_moves _) rest tight sameLeaves
          (congrArg List.length link.operand.leaves_factor.symm) same
    rw [Pending.tree_foldl_closed closed] at same
    obtain ⟨agree, sameNode, sameOthers⟩ := inductionHypothesis _ _
      (by rw [Tree.length_leaves_node, Tree.length_leaves_node, sameLeaves,
        Operand.leaves_factor]) same
    obtain ⟨sameValue, _, sameLink⟩ := Tree.node.inj sameNode
    refine ⟨mt (misgrouped_keeps_iff kept).mp (not_or.mpr ⟨?_, agree⟩), sameValue, ?_⟩
    · rintro ⟨additive, notLoose⟩
      rcases closed with tight | loose
      · exact Bool.noConfusion (additive.symm.trans tight)
      · exact notLoose loose
    · simp only [List.forall_mem_cons]
      exact ⟨sameLink, sameOthers⟩

/-! ### Chains in groups -/

mutual

/-- The chains in the groups of an operand. -/
def Operand.chains : Operand → List Chain
  | .number _ => []
  | .group _ first links => ⟨first, links⟩ :: (first.chains ++ links.chains)

/-- The chains in the groups of the operands of links. -/
def Links.chains : Links → List Chain
  | .done => []
  | .link _ operand rest => operand.chains ++ rest.chains

end

namespace Chain

/-- A chain and those in its groups, at any depth. -/
def all (chain : Chain) : List Chain :=
  chain :: (chain.first.chains ++ chain.links.chains)

/-- Convention and reading part nowhere in a chain. -/
def Agrees (chain : Chain) : Prop :=
  ¬ Misgrouped chain.links.toList

end Chain

namespace Chain

/-- Both readings make the same tree of a chain in which they part nowhere, from operands that have
the same tree in both. -/
theorem tree_eq_of_agrees {chain : Chain} (agrees : chain.Agrees)
    (sameFirst : chain.first.tree = chain.first.factor.tree)
    (sameLinks : ∀ link ∈ chain.links.toList, link.operand.tree = link.operand.factor.tree) :
    chain.tree = chain.conventional.tree := by
  rw [tree, tree_conventional, Links.moves_toList, ← sameFirst]
  exact readChain_eq_of_not_misgrouped chain.links.toList _ agrees sameLinks

theorem agrees_of_shape_eq (chain : Chain)
    (same : chain.tree.shape = chain.conventional.tree.shape) :
    chain.Agrees ∧ chain.first.tree.shape = chain.first.factor.tree.shape ∧
      ∀ link ∈ chain.links.toList, link.operand.tree.shape = link.operand.factor.tree.shape := by
  rw [tree, tree_conventional, Links.moves_toList] at same
  exact not_misgrouped_of_shape_eq chain.links.toList _ _
    (congrArg List.length chain.first.leaves_factor.symm) same

end Chain

mutual

theorem Operand.tree_eq_factor (operand : Operand)
    (agree : ∀ chain ∈ operand.chains, chain.Agrees) : operand.tree = operand.factor.tree := by
  cases operand with
  | number value => rfl
  | group bracket first links =>
    simp only [Operand.chains, List.forall_mem_cons, List.forall_mem_append] at agree
    obtain ⟨here, inFirst, inLinks⟩ := agree
    exact Chain.tree_eq_of_agrees here (first.tree_eq_factor inFirst) (links.tree_eq_factor inLinks)

theorem Links.tree_eq_factor (links : Links) (agree : ∀ chain ∈ links.chains, chain.Agrees) :
    ∀ link ∈ links.toList, link.operand.tree = link.operand.factor.tree := by
  cases links with
  | done => simp [Links.toList]
  | link operator operand rest =>
    simp only [Links.chains, List.forall_mem_append] at agree
    simp only [Links.toList, List.forall_mem_cons]
    exact ⟨operand.tree_eq_factor agree.1, rest.tree_eq_factor agree.2⟩

end

mutual

theorem Operand.agree_of_shape_eq (operand : Operand)
    (same : operand.tree.shape = operand.factor.tree.shape) :
    ∀ chain ∈ operand.chains, chain.Agrees := by
  cases operand with
  | number value => simp [Operand.chains]
  | group bracket first links =>
    obtain ⟨here, sameFirst, sameLinks⟩ := Chain.agrees_of_shape_eq ⟨first, links⟩ same
    simp only [Operand.chains, List.forall_mem_cons, List.forall_mem_append]
    exact ⟨here, first.agree_of_shape_eq sameFirst, links.agree_of_shape_eq sameLinks⟩

theorem Links.agree_of_shape_eq (links : Links)
    (same : ∀ link ∈ links.toList, link.operand.tree.shape = link.operand.factor.tree.shape) :
    ∀ chain ∈ links.chains, chain.Agrees := by
  cases links with
  | done => simp [Links.chains]
  | link operator operand rest =>
    simp only [Links.toList, List.forall_mem_cons] at same
    simp only [Links.chains, List.forall_mem_append]
    exact ⟨operand.agree_of_shape_eq same.1, rest.agree_of_shape_eq same.2⟩

end

namespace Chain

/-- Both readings make the same tree of a chain if they part in no chain in it. -/
theorem tree_eq_conventional {chain : Chain} (agree : ∀ part ∈ chain.all, part.Agrees) :
    chain.tree = chain.conventional.tree := by
  simp only [all, List.forall_mem_cons, List.forall_mem_append] at agree
  obtain ⟨here, inFirst, inLinks⟩ := agree
  exact tree_eq_of_agrees here (chain.first.tree_eq_factor inFirst)
    (chain.links.tree_eq_factor inLinks)

/-- If they part in some chain in it, even the shapes of the trees differ. -/
theorem agree_of_shape_eq {chain : Chain}
    (same : chain.tree.shape = chain.conventional.tree.shape) :
    ∀ part ∈ chain.all, part.Agrees := by
  obtain ⟨here, sameFirst, sameLinks⟩ := chain.agrees_of_shape_eq same
  simp only [all, List.forall_mem_cons, List.forall_mem_append]
  exact ⟨here, chain.first.agree_of_shape_eq sameFirst, chain.links.agree_of_shape_eq sameLinks⟩

end Chain

/-! ### Sources -/

/-- A source in which no group stands right behind a value is one chain. -/
theorem chain_of_parse {source : String} {limit : Int} {tree : Expression}
    (accepted : parse source limit = .ok tree)
    (unbroken : Unbroken ((words source).map Token.terminal)) :
    ∃ chain : Chain, chain.terminals = (words source).map Token.terminal ∧ chain.tree = tree := by
  obtain ⟨line, spelled, _, rfl⟩ := line_of_parse accepted
  obtain ⟨given, operand, links, parts, read, rfl | ⟨givenUp, opener, isFirst, group⟩⟩ := line.split
  · exact ⟨⟨operand, links⟩, (spelled.trans parts).symm, read.symm⟩
  · rw [spelled, parts] at unbroken
    refine absurd unbroken (not_unbroken_append givenUp.complete ⟨opener, ?_, group⟩)
    rw [List.head?_append, isFirst]
    rfl

/-- The tokens of an accepted source in which no group stands right behind a value are one chain and
one conventional phrase. The tree of the source is the conventional one if and only if in no chain,
outside of groups or in one, a product or quotient behind a sum or difference has a group before it
or another product or quotient behind it. Otherwise the trees do not even have the same shape. -/
theorem parse_eq_conventional_iff {source : String} {limit : Int} {tree : Expression}
    (accepted : parse source limit = .ok tree)
    (unbroken : Unbroken ((words source).map Token.terminal)) :
    ∃ (chain : Chain) (meant : Phrase),
      (∀ other : Chain,
        other.terminals = (words source).map Token.terminal ↔ other = chain) ∧
      (∀ other : Phrase, other.terminals = (words source).map Token.terminal ↔ other = meant) ∧
      (tree = meant.tree ↔ ∀ part ∈ chain.all, ¬ Misgrouped part.links.toList) ∧
      (tree.shape = meant.tree.shape ↔ ∀ part ∈ chain.all, ¬ Misgrouped part.links.toList) := by
  obtain ⟨chain, spelled, rfl⟩ := chain_of_parse accepted unbroken
  rw [← spelled]
  refine ⟨chain, chain.conventional, ?_, ?_, ?_, ?_⟩
  · intro other
    exact ⟨Chain.eq_of_terminals, congrArg Chain.terminals⟩
  · intro other
    refine ⟨Phrase.eq_conventional, ?_⟩
    rintro rfl
    exact chain.terminals_conventional
  · exact ⟨fun same => Chain.agree_of_shape_eq (congrArg Tree.shape same),
      Chain.tree_eq_conventional⟩
  · exact ⟨Chain.agree_of_shape_eq,
      fun agree => congrArg Tree.shape (Chain.tree_eq_conventional agree)⟩

/-- In `1 + 2 * 3 * 4` the second product finds the sum closed. -/
theorem parse_product_behind_product :
    ∃ (tree : Expression) (meant : Phrase), parse "1 + 2 * 3 * 4" 0 = .ok tree ∧
      meant.terminals = (words "1 + 2 * 3 * 4").map Token.terminal ∧
      tree.shape ≠ meant.tree.shape := by
  let chain : Chain := ⟨.number (Numeral.value ['1']), .link .sum (.number (Numeral.value ['2']))
    (.link .product (.number (Numeral.value ['3']))
      (.link .product (.number (Numeral.value ['4'])) .done))⟩
  have spelled : (words "1 + 2 * 3 * 4").map Token.terminal = chain.terminals := by
    have all : terminals none ("1 + 2 * 3 * 4").toList = chain.terminals ++ [.foreign] := by
      show terminals none (['1'] ++ ((" " ++ Operator.sum.symbol ++ " ").toList ++ (['2'] ++
        ((" " ++ Operator.product.symbol ++ " ").toList ++ (['3'] ++
          ((" " ++ Operator.product.symbol ++ " ").toList ++ (['4'] ++ []))))))) = _
      rw [terminals_numeral (by decide) rfl (behind_operator _ _), terminals_operator,
        terminals_numeral (by decide) (by decide) (behind_operator _ _), terminals_operator,
        terminals_numeral (by decide) (by decide) (behind_operator _ _), terminals_operator,
        terminals_numeral (by decide) (by decide) behind_nil, terminals_nil]
      rfl
    rw [terminals_words, all, List.dropLast_concat]
  have accepted : parse "1 + 2 * 3 * 4" 0 = .ok chain.line.tree := by
    refine parse_of_line (spelled.trans chain.terminals_line.symm) (Chain.line_fits ?_)
    decide
  have unbroken : Unbroken ((words "1 + 2 * 3 * 4").map Token.terminal) := by
    rw [spelled]
    exact (chain.links.unbroken_append _ chain.first.unbroken).1
  obtain ⟨found, meant, isFound, isMeant, _, parts⟩ := parse_eq_conventional_iff accepted unbroken
  obtain rfl := (isFound chain).mp spelled.symm
  refine ⟨chain.line.tree, meant, accepted, (isMeant meant).mpr rfl, fun same => ?_⟩
  exact parts.mp same chain List.mem_cons_self ⟨0, _, _, rfl, rfl, rfl, rfl, .inr ⟨_, rfl, rfl⟩⟩

end Reckon
