/-
This file says under which limit the expression of a tree that was read is read
again. The limit counts brackets, and a tree is written with the fewest that
priorities ask for, so most brackets of a source are not written again. But
there are brackets that the source did not have: where the reading closes a sum
that a tight operator goes on with, the sum becomes an operand of that operator.

Along a chain each such place may put one more pair of brackets around all that
was read before it. So the brackets of the tree nest no deeper than those of the
source, and one for each such place besides, counted along the chains that lie
in one another. The bound of the source alone is not enough:
`1 + 2 * 3 * 4 + 5 * 6 * 7` has no brackets and is written with two pairs of
them, one in the other.
-/

import Reckon.Proofs.Nesting
import Reckon.Proofs.Precedence
import Reckon.Proofs.RoundTrip

namespace Reckon

/-! ### The brackets of a tree -/

namespace Tree

/-- How many pairs of brackets a tree needs for itself as an operand. -/
def bracketed (operation : Operation) (operand : Expression) : Nat :=
  if operand.isCompound && operand.priority < operation.priority then 1 else 0

/-- How many brackets lie in one another, at the deepest place of the expression of a tree. -/
def brackets : Expression → Nat
  | .leaf _ => 0
  | .node left operation right =>
    max (left.brackets + left.bracketed operation) (right.brackets + right.bracketed operation)

end Tree

namespace Chain

theorem nesting_within (needed : Bool) (chain : Chain) :
    (chain.within needed).nesting = chain.nesting + if needed then 1 else 0 := by
  cases needed with
  | false => rfl
  | true => exact Nat.max_zero _

end Chain

namespace Formula

section
variable (formula : Formula) {operator : Operator}

/-- The chain of a formula nests as deeply as the brackets of its expression. -/
theorem nesting_eq_brackets : formula.written.nesting = formula.tree.brackets := by
  have bracketed (operand : Formula) (operator : Operator) :
      (if operand.loose operator then 1 else 0) =
        operand.tree.bracketed operator.operation := by
    cases operand with
    | leaf value => rfl
    | node left inner right => cases inner <;> rfl
  induction formula with
  | leaf value => rfl
  | node left operator right leftHypothesis rightHypothesis =>
    rw [written_node, Chain.nesting_join, side, side, Chain.nesting_within, Chain.nesting_within,
      leftHypothesis, rightHypothesis, bracketed, bracketed, tree, Tree.brackets]

theorem nesting_node (left right : Formula) :
    (node left operator right).written.nesting =
      max (left.side operator).nesting (right.side operator).nesting := by
  rw [written_node, Chain.nesting_join]

/-- Beside a sum or difference nothing needs brackets. -/
theorem side_additive (additive : operator.isAdditive = true) :
    formula.side operator = formula.written := by
  have closed : formula.loose operator = false := by
    cases formula with
    | leaf value => rfl
    | node left inner right =>
      refine Bool.eq_false_iff.mpr fun loose => ?_
      have tight := (Operator.priority_lt_iff.mp (loose_iff.mp loose)).2
      exact Bool.noConfusion (additive.symm.trans tight)
  rw [side, closed]
  rfl

/-- A product or quotient needs brackets nowhere. -/
theorem side_of_tight {left right : Formula} {inner : Operator}
    (tight : inner.isAdditive = false) :
    (node left inner right).side operator = (node left inner right).written := by
  have closed : (node left inner right).loose operator = false := by
    refine Bool.eq_false_iff.mpr fun loose => ?_
    have additive := (Operator.priority_lt_iff.mp (loose_iff.mp loose)).1
    exact Bool.noConfusion (additive.symm.trans tight)
  rw [side, closed]
  rfl

/-- Beside a product a formula has the brackets it has beside any tight operator. -/
theorem side_tight (tight : operator.isAdditive = false) :
    formula.side operator = formula.side .product := by
  cases operator with
  | sum => exact Bool.noConfusion tight
  | difference => exact Bool.noConfusion tight
  | product => rfl
  | quotient => cases formula <;> rfl

theorem nesting_le_side : formula.written.nesting ≤ (formula.side operator).nesting := by
  rw [side, Chain.nesting_within]
  exact Nat.le_add_right _ _

theorem nesting_side_le : (formula.side operator).nesting ≤ formula.written.nesting + 1 := by
  rw [Nat.add_comm]
  exact Chain.nesting_within_le _ _

end

end Formula

/-! ### Where the reading closes a sum -/

/-- A tight operator goes on with the links before these. -/
def tightAhead (links : List Link) : Bool :=
  links.head?.any fun next => !next.operator.isAdditive

theorem tightAhead_iff {links : List Link} : tightAhead links = false ↔ Loose links := by
  cases links with
  | nil => simp [tightAhead, Loose]
  | cons link links => simp [tightAhead, Loose]

/-- The reading closes a sum with this link, or with the next one that it gives its operand to, and
a tight operator goes on with the sum. -/
def Link.closes (link : Link) : List Link → Bool
  | [] => false
  | next :: links =>
    link.operator.isAdditive && !next.operator.isAdditive &&
      (!link.operand.atom.bare || tightAhead links)

/-- How many sums of a chain the reading closes that a tight operator goes on with. -/
def regroupings : List Link → Nat
  | [] => 0
  | link :: links => (link.closes links).toNat + regroupings links

section
variable {link next : Link} {links : List Link}

theorem regroupings_given (given : link.GivesTo next) :
    regroupings (link :: next :: links) = (tightAhead links).toNat + regroupings links := by
  obtain ⟨additive, bare, tight⟩ := Link.givesTo_iff.mp given
  have first : link.closes (next :: links) = tightAhead links := by
    rw [Link.closes, additive, bare, tight]
    rfl
  have second : next.closes links = false := by
    cases links with
    | nil => rfl
    | cons other links => rw [Link.closes, tight, Bool.false_and, Bool.false_and]
  rw [regroupings, regroupings, first, second, Bool.toNat_false, Nat.zero_add]

theorem regroupings_keeps (kept : link.Keeps links) :
    regroupings (link :: links) =
      (link.operator.isAdditive && tightAhead links).toNat + regroupings links := by
  rw [regroupings]
  refine congrArg (fun closes : Bool => closes.toNat + regroupings links) ?_
  cases links with
  | nil => exact (Bool.and_false _).symm
  | cons next links =>
    have stays := mt Link.givesTo_iff.mpr (kept next rfl)
    show (link.operator.isAdditive && !next.operator.isAdditive && _) =
      (link.operator.isAdditive && !next.operator.isAdditive)
    cases additive : link.operator.isAdditive <;> cases tight : next.operator.isAdditive <;>
      cases bare : link.operand.atom.bare <;> simp_all

/-- The reading closes no such sum where it does not part from convention. -/
theorem regroupings_eq_zero {links : List Link} (agree : ¬ Misgrouped links) :
    regroupings links = 0 := by
  induction links using links_induction with
  | nil => rfl
  | given link next links given inductionHypothesis =>
    obtain ⟨loose, agree⟩ := not_or.mp (mt (misgrouped_given_iff given).mpr agree)
    rw [regroupings_given given, inductionHypothesis agree,
      tightAhead_iff.mpr (not_not.mp loose)]
    rfl
  | kept link links kept inductionHypothesis =>
    obtain ⟨closed, agree⟩ := not_or.mp (mt (misgrouped_keeps_iff kept).mpr agree)
    have none : (link.operator.isAdditive && tightAhead links) = false := by
      rw [Bool.and_eq_false_iff, tightAhead_iff]
      exact (Classical.not_and_iff_not_or_not.mp closed).imp Bool.eq_false_iff.mpr not_not.mp
    rw [regroupings_keeps kept, inductionHypothesis agree, none]
    rfl

end

/-! ### One chain -/

/-- A tree that is that of a formula, whose expression, beside a tight operator, nests brackets no
deeper than a bound. -/
def FitsTight (tree : Expression) (bound : Nat) : Prop :=
  ∃ formula : Formula, formula.tree = tree ∧ (formula.side .product).nesting ≤ bound

theorem FitsTight.mono {tree : Expression} {bound higher : Nat} (fits : FitsTight tree bound)
    (le : bound ≤ higher) : FitsTight tree higher := by
  obtain ⟨formula, same, nested⟩ := fits
  exact ⟨formula, same, Nat.le_trans nested le⟩

/-- The brackets of the chain of a value and these links nest no deeper than those of the value and
of the operands, and one for each sum that is closed before a tight operator. A value that a tight
operator goes on with is to fit beside it. -/
def Bounded (links : List Link) : Prop :=
  ∀ (bound : Nat) (value : Formula), (∀ link ∈ links, FitsTight link.operand.tree bound) →
    value.written.nesting ≤ bound →
    (tightAhead links = true → (value.side .product).nesting ≤ bound) →
    ∃ formula : Formula, formula.tree = readChain value.tree (links.map Link.move) ∧
      formula.written.nesting ≤ bound + regroupings links

/-- Behind a sum a tight operator may cost one more pair of brackets. -/
theorem Bounded.behind_sum {links : List Link} (bounded : Bounded links) {bound : Nat}
    {sum : Formula} (operands : ∀ link ∈ links, FitsTight link.operand.tree bound)
    (nested : sum.written.nesting ≤ bound) :
    ∃ formula : Formula, formula.tree = readChain sum.tree (links.map Link.move) ∧
      formula.written.nesting ≤ bound + ((tightAhead links).toNat + regroupings links) := by
  rw [← Nat.add_assoc]
  refine bounded _ sum (fun link member => (operands link member).mono (Nat.le_add_right _ _))
    (Nat.le_trans nested (Nat.le_add_right _ _)) fun ahead => ?_
  rw [ahead]
  exact Nat.le_trans sum.nesting_side_le (Nat.succ_le_succ nested)

/-- The cases are those of the reading: a number that is given away, and an operand that stays with
a loose or with a tight operator. -/
theorem bounded_links (links : List Link) : Bounded links := by
  induction links using links_induction with
  | nil => exact fun bound value _ fits _ => ⟨value, rfl, fits⟩
  | given link next links given inductionHypothesis =>
    intro bound value operands fits _
    obtain ⟨additive, _, tight⟩ := Link.givesTo_iff.mp given
    simp only [List.forall_mem_cons] at operands
    obtain ⟨⟨first, isFirst, firstFits⟩, ⟨second, isSecond, secondFits⟩, others⟩ := operands
    -- The new value is a sum with a product on its right, which needs no brackets there.
    have nested : (Formula.node value link.operator
        (.node first next.operator second)).written.nesting ≤ bound := by
      rw [Formula.nesting_node, Formula.side_additive _ additive, Formula.side_additive _ additive,
        Formula.nesting_node, Formula.side_tight _ tight, Formula.side_tight _ tight]
      exact Nat.max_le.mpr ⟨fits, Nat.max_le.mpr ⟨firstFits, secondFits⟩⟩
    rw [readChain_given given, regroupings_given given, ← isFirst, ← isSecond]
    exact inductionHypothesis.behind_sum others nested
  | kept link links kept inductionHypothesis =>
    intro bound value operands fits fitsTight
    simp only [List.forall_mem_cons] at operands
    obtain ⟨⟨operand, isOperand, operandFits⟩, others⟩ := operands
    rw [readChain_keeps kept, regroupings_keeps kept, ← isOperand]
    cases additive : link.operator.isAdditive with
    | true =>
      have nested : (Formula.node value link.operator operand).written.nesting ≤ bound := by
        rw [Formula.nesting_node, Formula.side_additive _ additive,
          Formula.side_additive _ additive]
        exact Nat.max_le.mpr ⟨fits, Nat.le_trans operand.nesting_le_side operandFits⟩
      exact inductionHypothesis.behind_sum others nested
    | false =>
      have ahead : tightAhead (link :: links) = true := by
        show (!link.operator.isAdditive) = true
        rw [additive]
        rfl
      have nested : (Formula.node value link.operator operand).written.nesting ≤ bound := by
        rw [Formula.nesting_node, Formula.side_tight _ additive, Formula.side_tight _ additive]
        exact Nat.max_le.mpr ⟨fitsTight ahead, operandFits⟩
      rw [Bool.false_and, Bool.toNat_false, Nat.zero_add]
      refine inductionHypothesis bound (.node value link.operator operand) others nested
        fun _ => ?_
      rw [Formula.side_of_tight additive]
      exact nested

/-! ### Chains in groups -/

mutual

/-- How many sums are closed before a tight operator in the chains that lie in one another in an
operand, where that makes the most. -/
def Operand.strain : Operand → Nat
  | .number _ => 0
  | .group _ first links => max first.strain links.strain + regroupings links.toList

def Links.strain : Links → Nat
  | .done => 0
  | .link _ operand rest => max operand.strain rest.strain

end

namespace Chain

/-- How many sums are closed before a tight operator in a chain and in those that lie in one
another in it, where that makes the most. -/
def strain (chain : Chain) : Nat :=
  max chain.first.strain chain.links.strain + regroupings chain.links.toList

/-- The tree of a chain is that of a formula, whose brackets nest no deeper than the groups of the
chain, and one for each sum that is closed before a tight operator. -/
theorem exists_formula_of_parts (chain : Chain)
    (first : FitsTight chain.first.tree (chain.first.nesting + chain.first.strain))
    (links : ∀ link ∈ chain.links.toList,
      FitsTight link.operand.tree (chain.links.nesting + chain.links.strain)) :
    ∃ formula : Formula, formula.tree = chain.tree ∧
      formula.written.nesting ≤ chain.nesting + chain.strain := by
  obtain ⟨value, isValue, fits⟩ := first
  rw [tree, Links.moves_toList, ← isValue, strain, nesting, ← Nat.add_assoc]
  have fits' : (value.side .product).nesting ≤ max chain.first.nesting chain.links.nesting +
      max chain.first.strain chain.links.strain :=
    Nat.le_trans fits (Nat.add_le_add (Nat.le_max_left _ _) (Nat.le_max_left _ _))
  exact bounded_links _ _ value
    (fun link member => (links link member).mono
      (Nat.add_le_add (Nat.le_max_right _ _) (Nat.le_max_right _ _)))
    (Nat.le_trans value.nesting_le_side fits') fun _ => fits'

end Chain

mutual

theorem Operand.fitsTight (operand : Operand) :
    FitsTight operand.tree (operand.nesting + operand.strain) := by
  cases operand with
  | number value => exact ⟨.leaf value, rfl, Nat.zero_le _⟩
  | group bracket first links =>
    obtain ⟨formula, same, nested⟩ :=
      Chain.exists_formula_of_parts ⟨first, links⟩ first.fitsTight links.fitsTight
    refine ⟨formula, same, Nat.le_trans formula.nesting_side_le ?_⟩
    show _ ≤ max first.nesting links.nesting + 1 + (Chain.mk first links).strain
    rw [Nat.add_right_comm]
    exact Nat.succ_le_succ nested

theorem Links.fitsTight (links : Links) :
    ∀ link ∈ links.toList, FitsTight link.operand.tree (links.nesting + links.strain) := by
  cases links with
  | done => exact fun link member => absurd member List.not_mem_nil
  | link operator operand rest =>
    simp only [Links.toList, List.forall_mem_cons]
    exact ⟨operand.fitsTight.mono (Nat.add_le_add (Nat.le_max_left _ _) (Nat.le_max_left _ _)),
      fun link member => (rest.fitsTight link member).mono
        (Nat.add_le_add (Nat.le_max_right _ _) (Nat.le_max_right _ _))⟩

end

theorem Chain.exists_formula (chain : Chain) :
    ∃ formula : Formula, formula.tree = chain.tree ∧
      formula.written.nesting ≤ chain.nesting + chain.strain :=
  chain.exists_formula_of_parts chain.first.fitsTight chain.links.fitsTight

mutual

theorem Operand.strain_eq_zero (operand : Operand)
    (agree : ∀ chain ∈ operand.chains, chain.Agrees) : operand.strain = 0 := by
  cases operand with
  | number value => rfl
  | group bracket first links =>
    simp only [Operand.chains, List.forall_mem_cons, List.forall_mem_append] at agree
    obtain ⟨here, inFirst, inLinks⟩ := agree
    rw [Operand.strain, first.strain_eq_zero inFirst, links.strain_eq_zero inLinks,
      regroupings_eq_zero here]
    rfl

theorem Links.strain_eq_zero (links : Links) (agree : ∀ chain ∈ links.chains, chain.Agrees) :
    links.strain = 0 := by
  cases links with
  | done => rfl
  | link operator operand rest =>
    simp only [Links.chains, List.forall_mem_append] at agree
    rw [Links.strain, operand.strain_eq_zero agree.1, rest.strain_eq_zero agree.2]
    rfl

end

/-- Where reading and convention part nowhere, no bracket is added. -/
theorem Chain.strain_eq_zero {chain : Chain} (agree : ∀ part ∈ chain.all, part.Agrees) :
    chain.strain = 0 := by
  simp only [all, List.forall_mem_cons, List.forall_mem_append] at agree
  obtain ⟨here, inFirst, inLinks⟩ := agree
  rw [strain, chain.first.strain_eq_zero inFirst, chain.links.strain_eq_zero inLinks,
    regroupings_eq_zero here]
  rfl

/-! ### Sources -/

/-- The groups of the one chain that spells a source nest no deeper than the limit. -/
theorem nesting_le_of_parse {source : String} {limit : Int} {tree : Expression} {chain : Chain}
    (spelled : (words source).map Token.terminal = chain.terminals)
    (accepted : parse source limit = .ok tree) : chain.nesting ≤ limit.toNat := by
  obtain ⟨line, isLine, fits, _⟩ := line_of_parse accepted
  obtain ⟨given, operand, links, parts, _, origin, nested⟩ := line.split_within
  have same : chain.terminals = given ++ (operand.terminals ++ links.terminals) :=
    spelled.symm.trans (isLine.trans parts)
  rcases origin with rfl | ⟨givenUp, opener, isFirst, group⟩
  · obtain rfl : chain = ⟨operand, links⟩ := Chain.eq_of_terminals same
    exact nested _ fits
  · have unbroken := (chain.links.unbroken_append _ chain.first.unbroken).1
    rw [← Chain.terminals, same] at unbroken
    refine absurd unbroken (not_unbroken_append givenUp.complete ⟨opener, ?_, group⟩)
    rw [List.head?_append, isFirst]
    rfl

/-- The last stretch of an accepted source is one chain, which fits the limit. -/
theorem exists_stretch {source : String} {limit : Int} {tree : Expression}
    (accepted : parse source limit = .ok tree) :
    ∃ (kept : List Token) (chain : Chain), LastStretch kept (words source) ∧
      chain.terminals = kept.map Token.terminal ∧ chain.tree = tree ∧
      chain.nesting ≤ limit.toNat ∧ tree.leaves = numbers kept := by
  obtain ⟨line, spelled, fits, rfl⟩ := line_of_parse accepted
  obtain ⟨given, operand, links, parts, read, origin, nested⟩ := line.split_within
  rw [parts] at spelled
  obtain ⟨givenTokens, kept, split, givenSpelled, keptSpelled⟩ := List.map_eq_append_iff.mp spelled
  refine ⟨kept, ⟨operand, links⟩, ⟨?_, givenTokens, split, ?_⟩, keptSpelled.symm, read.symm,
    nested _ fits, ?_⟩
  · rw [keptSpelled]
    exact (links.unbroken_append operand.terminals operand.unbroken).1
  · rcases origin with rfl | ⟨givenUp, opener, isFirst, group⟩
    · exact .inl (List.map_eq_nil_iff.mp givenSpelled)
    · rw [givenSpelled, keptSpelled]
      refine .inr ⟨givenUp.complete, opener, ?_, group⟩
      rw [List.head?_append, isFirst]
      rfl
  · rw [read, Tree.leaves_eq_items, items_operand_links, numbers_eq_items, keptSpelled]

namespace Formula

section
variable (formula : Formula) (finite : ∀ value ∈ formula.tree.leaves, value.isFinite = true)
include finite

theorem terminals_render_finite :
    (words formula.tree.render).map Token.terminal = formula.written.terminals :=
  formula.terminals_render fun value member =>
    Spelling.accepts_plain_of_isFinite (finite value member)

/-- The expression of a tree is read under a limit if and only if its brackets nest no deeper. -/
theorem parse_render_iff (limit : Nat) :
    (∃ result, parse formula.tree.render limit = .ok result) ↔ formula.tree.brackets ≤ limit := by
  rw [← nesting_eq_brackets]
  constructor
  · rintro ⟨result, read⟩
    exact nesting_le_of_parse (formula.terminals_render_finite finite) read
  · intro fits
    refine ⟨formula.written.line.tree, parse_of_line ?_ (Chain.line_fits fits)⟩
    rw [formula.terminals_render_finite finite, Chain.terminals_line]

/-- Nothing but the limit can refuse the expression of a tree. -/
theorem nestedTooDeeply_of_parse_render {limit : Nat} {error : ParseError}
    (refused : parse formula.tree.render limit = .error error) :
    ∃ token, error = ⟨.nestedTooDeeply limit, token⟩ := by
  let higher : Nat := max formula.tree.brackets (limit + 1)
  obtain ⟨result, read⟩ := (formula.parse_render_iff finite higher).mpr (Nat.le_max_left _ _)
  have below : (limit : Int) < higher := by omega
  rcases parse_lockstep formula.tree.render below with ⟨_, same, _⟩ | ⟨first, _, cut⟩
  · rw [refused, read] at same
    exact absurd same (by simp)
  · rw [refused] at cut
    exact ⟨first.opener, Except.error.inj cut⟩

end

end Formula

/-- The expression of a tree that was read is read again under a limit if and only if its brackets
nest no deeper than that, and if it is not, the limit is what refuses it. They nest no deeper than
the limit of the source and one for each sum that is closed before a tight operator in chains that
lie in one another. So it is read again under the limit of the source if in none of these chains the
reading parts from convention. -/
theorem parse_render_brackets {source : String} {limit : Nat} {tree : Expression}
    (accepted : parse source limit = .ok tree)
    (inRange : ∀ value ∈ numbers (words source), value.isFinite = true) :
    (∀ other : Nat, (∃ result, parse tree.render other = .ok result) ↔ tree.brackets ≤ other) ∧
    (∀ (other : Nat) error, parse tree.render other = .error error →
      ∃ token, error = ⟨.nestedTooDeeply other, token⟩) ∧
    ∃ (kept : List Token) (chain : Chain), LastStretch kept (words source) ∧
      chain.terminals = kept.map Token.terminal ∧ chain.tree = tree ∧
      tree.brackets ≤ limit + chain.strain ∧
      ((∀ part ∈ chain.all, part.Agrees) → ∃ result, parse tree.render limit = .ok result) := by
  obtain ⟨kept, chain, stretch, spelled, rfl, nested, leaves⟩ := exists_stretch accepted
  obtain ⟨formula, same, bounded⟩ := chain.exists_formula
  have finite : ∀ value ∈ formula.tree.leaves, value.isFinite = true := by
    intro value member
    obtain ⟨given, parts, _⟩ := stretch.broken
    rw [same, leaves] at member
    refine inRange value ?_
    rw [parts, numbers, List.filterMap_append]
    exact List.mem_append_right _ member
  rw [Formula.nesting_eq_brackets] at bounded
  rw [← same]
  have bound : formula.tree.brackets ≤ limit + chain.strain :=
    Nat.le_trans bounded (Nat.add_le_add_right nested _)
  refine ⟨formula.parse_render_iff finite,
    fun other error refused => formula.nestedTooDeeply_of_parse_render finite refused,
    kept, chain, stretch, spelled, same.symm, bound, fun agree => ?_⟩
  rw [Chain.strain_eq_zero agree] at bound
  exact (formula.parse_render_iff finite limit).mpr bound

/-- The chain of `1 + 2 * 3 * 4 + 5 * 6 * 7`, where two sums are closed before a product. -/
def twiceClosed : Chain :=
  ⟨.number (Numeral.value ['1']), .link .sum (.number (Numeral.value ['2']))
    (.link .product (.number (Numeral.value ['3'])) (.link .product (.number (Numeral.value ['4']))
      (.link .sum (.number (Numeral.value ['5'])) (.link .product (.number (Numeral.value ['6']))
        (.link .product (.number (Numeral.value ['7'])) .done)))))⟩

theorem terminals_twiceClosed :
    (words "1 + 2 * 3 * 4 + 5 * 6 * 7").map Token.terminal = twiceClosed.terminals := by
  have all : terminals none ("1 + 2 * 3 * 4 + 5 * 6 * 7").toList =
      twiceClosed.terminals ++ [.foreign] := by
    show terminals none (['1'] ++ ((" " ++ Operator.sum.symbol ++ " ").toList ++ (['2'] ++
      ((" " ++ Operator.product.symbol ++ " ").toList ++ (['3'] ++
        ((" " ++ Operator.product.symbol ++ " ").toList ++ (['4'] ++
          ((" " ++ Operator.sum.symbol ++ " ").toList ++ (['5'] ++
            ((" " ++ Operator.product.symbol ++ " ").toList ++ (['6'] ++
              ((" " ++ Operator.product.symbol ++ " ").toList ++ (['7'] ++ []))))))))))))) = _
    rw [terminals_numeral_operator (by decide) rfl, terminals_numeral_operator (by decide) rfl,
      terminals_numeral_operator (by decide) rfl, terminals_numeral_operator (by decide) rfl,
      terminals_numeral_operator (by decide) rfl, terminals_numeral_operator (by decide) rfl,
      terminals_numeral (by decide) rfl behind_nil, terminals_nil]
    rfl
  rw [terminals_words, all, List.dropLast_concat]

theorem parse_twiceClosed : parse "1 + 2 * 3 * 4 + 5 * 6 * 7" 1 = .ok twiceClosed.tree := by
  rw [← Chain.tree_line]
  refine parse_of_line (terminals_twiceClosed.trans twiceClosed.terminals_line.symm)
    (Chain.line_fits ?_)
  decide

theorem finite_twiceClosed :
    ∀ value ∈ numbers (words "1 + 2 * 3 * 4 + 5 * 6 * 7"), value.isFinite = true := by
  rw [numbers_eq_items, terminals_twiceClosed]
  decide +kernel

/-- The tree of `1 + 2 * 3 * 4 + 5 * 6 * 7` is written as `((1 + 2 * 3) * 4 + 5 * 6) * 7`, which a
limit of one refuses. -/
theorem not_parse_render_under_limit :
    ¬ ∀ (source : String) (limit : Nat) (tree : Expression), 1 ≤ limit →
        (∀ value ∈ numbers (words source), value.isFinite = true) →
        parse source limit = .ok tree → ∃ result, parse tree.render limit = .ok result := by
  intro all
  let formula : Formula := .node (.node (.node (.node (.leaf (Numeral.value ['1'])) .sum
    (.node (.leaf (Numeral.value ['2'])) .product (.leaf (Numeral.value ['3'])))) .product
      (.leaf (Numeral.value ['4']))) .sum (.node (.leaf (Numeral.value ['5'])) .product
        (.leaf (Numeral.value ['6'])))) .product (.leaf (Numeral.value ['7']))
  have same : formula.tree = twiceClosed.tree := rfl
  have finite : ∀ value ∈ formula.tree.leaves, value.isFinite = true := by decide +kernel
  have read := all _ 1 _ (Nat.le_refl 1) finite_twiceClosed parse_twiceClosed
  rw [← same] at read
  exact absurd ((formula.parse_render_iff finite 1).mp read) (by decide)

/-- Under a limit of two it is read again. -/
theorem parse_render_twiceClosed :
    parse "1 + 2 * 3 * 4 + 5 * 6 * 7" 1 = .ok twiceClosed.tree ∧
      (∃ result, parse twiceClosed.tree.render 2 = .ok result) ∧
      ∃ token, parse twiceClosed.tree.render 1 = .error ⟨.nestedTooDeeply 1, token⟩ := by
  obtain ⟨readIff, refused, _⟩ := parse_render_brackets parse_twiceClosed finite_twiceClosed
  refine ⟨parse_twiceClosed, (readIff 2).mpr (by decide), ?_⟩
  cases outcome : parse twiceClosed.tree.render 1 with
  | ok result => exact absurd ((readIff 1).mp ⟨result, outcome⟩) (by decide)
  | error error =>
    obtain ⟨token, rfl⟩ := refused 1 error outcome
    exact ⟨token, rfl⟩

end Reckon
