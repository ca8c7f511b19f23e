/-
This file holds the conventional reading of expressions, where products and
quotients bind tighter than sums and differences and everything else groups to
the left. It is the grammar of sums of products, and what convention makes of
some tokens is the tree of a parse tree that spells them.

A chain has one conventional phrase. It is built link by link: a product or
quotient joins the term at the end of what has been built, and a sum or
difference takes all of it. Both grammars are unambiguous, and so a list of
terminals that a chain spells is spelled by no other chain and by no other
phrase.
-/

import Reckon.Proofs.Formula

namespace Reckon

/-! ### The grammar of convention -/

namespace Conventional

mutual

/-- Products with sums and differences between them. -/
inductive Phrase
  | single (product : Term)
  | add (left : Phrase) (operator : Operator) (additive : operator.isAdditive = true)
    (right : Term)

/-- Factors with products and quotients between them. -/
inductive Term
  | single (factor : Factor)
  | multiply (left : Term) (operator : Operator) (tight : operator.isAdditive = false)
    (right : Factor)

/-- A number, or a group with a sum in it. -/
inductive Factor
  | number (value : Float)
  | group (bracket : Bracket) (content : Phrase)

end

mutual

def Phrase.terminals : Phrase → List Terminal
  | .single product => product.terminals
  | .add left operator _ right => left.terminals ++ .operator operator :: right.terminals

def Term.terminals : Term → List Terminal
  | .single factor => factor.terminals
  | .multiply left operator _ right => left.terminals ++ .operator operator :: right.terminals

def Factor.terminals : Factor → List Terminal
  | .number value => [.number value]
  | .group bracket content => .opening bracket :: (content.terminals ++ [.closing bracket])

end

mutual

def Phrase.tree : Phrase → Expression
  | .single product => product.tree
  | .add left operator _ right => .node left.tree operator.operation right.tree

def Term.tree : Term → Expression
  | .single factor => factor.tree
  | .multiply left operator _ right => .node left.tree operator.operation right.tree

def Factor.tree : Factor → Expression
  | .number value => .leaf value
  | .group _ content => content.tree

end

/-- A sum with one more operator and its right operand. -/
def Phrase.append (sum : Phrase) (operator : Operator) (factor : Factor) : Phrase :=
  if additive : operator.isAdditive = true then .add sum operator additive (.single factor)
  else
    match sum with
    | .single last => .single (.multiply last operator (Bool.eq_false_iff.mpr additive) factor)
    | .add left earlier loose last =>
      .add left earlier loose (.multiply last operator (Bool.eq_false_iff.mpr additive) factor)

section
variable {operator : Operator} (factor : Factor)

theorem Phrase.append_additive (sum : Phrase) (additive : operator.isAdditive = true) :
    sum.append operator factor = .add sum operator additive (.single factor) := by
  rw [append, dif_pos additive]

theorem Phrase.append_single (last : Term) (tight : operator.isAdditive = false) :
    (Phrase.single last).append operator factor =
      .single (.multiply last operator tight factor) := by
  rw [append, dif_neg (Bool.eq_false_iff.mp tight)]

theorem Phrase.append_add (left : Phrase) {earlier : Operator} (loose : earlier.isAdditive = true)
    (last : Term) (tight : operator.isAdditive = false) :
    (Phrase.add left earlier loose last).append operator factor =
      .add left earlier loose (.multiply last operator tight factor) := by
  rw [append, dif_neg (Bool.eq_false_iff.mp tight)]

end

theorem Phrase.terminals_append (sum : Phrase) (operator : Operator) (factor : Factor) :
    (sum.append operator factor).terminals =
      sum.terminals ++ .operator operator :: factor.terminals := by
  cases additive : operator.isAdditive with
  | true => rw [append_additive factor sum additive, terminals, Term.terminals]
  | false =>
    cases sum with
    | single last => rw [append_single factor last additive, terminals, terminals,
        Term.terminals]
    | add left earlier loose last =>
      rw [append_add factor left loose last additive, terminals, terminals, Term.terminals,
        List.append_assoc, List.cons_append]

end Conventional

open Conventional

/-! ### The conventional phrase of a chain -/

mutual

/-- An operand whose groups are read by convention. -/
def Operand.factor : Operand → Factor
  | .number value => .number value
  | .group bracket first links => .group bracket (links.behind (.single (.single first.factor)))

/-- A sum with links behind it. -/
def Links.behind (sum : Phrase) : Links → Phrase
  | .done => sum
  | .link operator operand rest => rest.behind (sum.append operator operand.factor)

end

namespace Chain

/-- The phrase that convention makes of a chain. -/
def conventional (chain : Chain) : Phrase :=
  chain.links.behind (.single (.single chain.first.factor))

end Chain

mutual

theorem Operand.terminals_factor (operand : Operand) :
    operand.factor.terminals = operand.terminals := by
  cases operand with
  | number value => rfl
  | group bracket first links =>
    rw [Operand.factor, Factor.terminals, links.terminals_behind, Phrase.terminals, Term.terminals,
      first.terminals_factor, Operand.terminals, List.append_assoc]

theorem Links.terminals_behind (sum : Phrase) (links : Links) :
    (links.behind sum).terminals = sum.terminals ++ links.terminals := by
  cases links with
  | done => rw [Links.behind, Links.terminals, List.append_nil]
  | link operator operand rest =>
    rw [Links.behind, rest.terminals_behind, Phrase.terminals_append, operand.terminals_factor,
      Links.terminals, List.append_assoc, List.cons_append]

end

theorem Chain.terminals_conventional (chain : Chain) :
    chain.conventional.terminals = chain.terminals := by
  rw [conventional, Links.terminals_behind, Phrase.terminals, Term.terminals,
    Operand.terminals_factor, terminals]

/-! ### Terminals have one phrase -/

/-- No link begins here. -/
def Ends (rest : List Terminal) : Prop :=
  ∀ operator, rest.head? ≠ some (.operator operator)

theorem ends_nil : Ends [] := by
  intro operator begins
  exact absurd begins (by simp)

theorem ends_closing (bracket : Bracket) (rest : List Terminal) :
    Ends (.closing bracket :: rest) := by
  intro operator begins
  exact absurd (Option.some.inj begins) (by simp)

mutual

theorem Operand.eq_of_terminals {first second : Operand} {rest rest' : List Terminal}
    (same : first.terminals ++ rest = second.terminals ++ rest') :
    first = second ∧ rest = rest' := by
  cases first with
  | number value =>
    cases second with
    | number value' =>
      obtain ⟨sameValue, rfl⟩ := List.cons.inj same
      exact ⟨congrArg Operand.number (Terminal.number.inj sameValue), rfl⟩
    | group bracket' first' links' => exact absurd (List.cons.inj same).1 (by simp)
  | group bracket inner links =>
    cases second with
    | number value' => exact absurd (List.cons.inj same).1 (by simp)
    | group bracket' inner' links' =>
      simp only [Operand.terminals, List.cons_append, List.append_assoc] at same
      obtain ⟨sameBracket, inside⟩ := List.cons.inj same
      obtain ⟨sameInner, linked⟩ := Operand.eq_of_terminals inside
      obtain ⟨sameLinks, closed⟩ := Links.eq_of_terminals (ends_closing _ _) (ends_closing _ _)
        linked
      rw [Terminal.opening.inj sameBracket, sameInner, sameLinks]
      exact ⟨rfl, (List.cons.inj closed).2⟩

theorem Links.eq_of_terminals {first second : Links} {rest rest' : List Terminal}
    (ends : Ends rest) (ends' : Ends rest')
    (same : first.terminals ++ rest = second.terminals ++ rest') :
    first = second ∧ rest = rest' := by
  cases first with
  | done =>
    cases second with
    | done => exact ⟨rfl, same⟩
    | link operator operand further => exact absurd (congrArg List.head? same) (ends operator)
  | link operator operand further =>
    cases second with
    | done => exact absurd (congrArg List.head? same).symm (ends' operator)
    | link operator' operand' further' =>
      simp only [Links.terminals, List.cons_append, List.append_assoc] at same
      obtain ⟨sameOperator, linked⟩ := List.cons.inj same
      obtain ⟨sameOperand, onward⟩ := Operand.eq_of_terminals linked
      obtain ⟨sameLinks, behind⟩ := Links.eq_of_terminals ends ends' onward
      rw [Terminal.operator.inj sameOperator, sameOperand, sameLinks]
      exact ⟨rfl, behind⟩

end

/-- A list of terminals is spelled by one chain at most. -/
theorem Chain.eq_of_terminals {first second : Chain} (same : first.terminals = second.terminals) :
    first = second := by
  obtain ⟨firstOperand, firstLinks⟩ := first
  obtain ⟨secondOperand, secondLinks⟩ := second
  obtain ⟨rfl, same⟩ := Operand.eq_of_terminals same
  obtain ⟨rfl, _⟩ := Links.eq_of_terminals ends_nil ends_nil (congrArg (· ++ []) same)
  rfl

/-! ### Every phrase is that of a chain -/

namespace Conventional

mutual

/-- The operand that a factor is. -/
def Factor.operand : Factor → Operand
  | .number value => .number value
  | .group bracket content => .group bracket content.chain.first content.chain.links

/-- The chain of the factors of a product. -/
def Term.chain : Term → Chain
  | .single factor => ⟨factor.operand, .done⟩
  | .multiply left operator _ right => left.chain.join operator ⟨right.operand, .done⟩

/-- The chain of the factors of a sum. -/
def Phrase.chain : Phrase → Chain
  | .single product => product.chain
  | .add left operator _ right => left.chain.join operator right.chain

end

end Conventional

theorem Links.behind_join (links : Links) (operator : Operator) (chain : Chain) (sum : Phrase) :
    (links.join operator chain).behind sum =
      chain.links.behind ((links.behind sum).append operator chain.first.factor) := by
  cases links with
  | done => rfl
  | link earlier operand rest => rw [join, behind, rest.behind_join, behind]

theorem Chain.conventional_join (left : Chain) (operator : Operator) (right : Chain) :
    (left.join operator right).conventional =
      right.links.behind (left.conventional.append operator right.first.factor) :=
  left.links.behind_join operator right _

namespace Conventional

mutual

theorem Factor.factor_operand (factor : Factor) : factor.operand.factor = factor := by
  cases factor with
  | number value => rfl
  | group bracket content =>
    rw [Factor.operand, Operand.factor]
    exact congrArg (Factor.group bracket) content.conventional_chain

/-- A product is rebuilt wherever a product may be at the end. -/
theorem Term.behind_chain (product : Term) (place : Term → Phrase)
    (ends : ∀ last operator factor (tight : operator.isAdditive = false),
      (place last).append operator factor = place (.multiply last operator tight factor)) :
    product.chain.links.behind (place (.single product.chain.first.factor)) = place product := by
  cases product with
  | single factor =>
    show place (.single factor.operand.factor) = _
    rw [factor.factor_operand]
  | multiply left operator tight right =>
    show (left.chain.links.join operator ⟨right.operand, .done⟩).behind
      (place (.single left.chain.first.factor)) = _
    rw [Links.behind_join, left.behind_chain place ends, Links.behind, right.factor_operand,
      ends left operator right tight]

theorem Phrase.conventional_chain (sum : Phrase) : sum.chain.conventional = sum := by
  cases sum with
  | single product =>
    exact product.behind_chain .single fun last _ factor tight =>
      Phrase.append_single factor last tight
  | add left operator additive right =>
    rw [Phrase.chain, Chain.conventional_join, left.conventional_chain,
      Phrase.append_additive _ left additive]
    exact right.behind_chain (.add left operator additive) fun last _ factor tight =>
      Phrase.append_add factor left additive last tight

end

end Conventional

/-- A sum that spells what a chain spells is the conventional phrase of the chain. -/
theorem Conventional.Phrase.eq_conventional {sum : Phrase} {chain : Chain}
    (same : sum.terminals = chain.terminals) : sum = chain.conventional := by
  have spelled := sum.chain.terminals_conventional
  rw [sum.conventional_chain, same] at spelled
  rw [Chain.eq_of_terminals spelled, sum.conventional_chain]

end Reckon
