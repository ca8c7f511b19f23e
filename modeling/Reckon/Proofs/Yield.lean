/-
This file follows the numbers and operators of a source into its tree. Read
from left to right, the tree of a line has exactly the numbers and operators
that the line spells from its last group behind a complete value on, or from
its start if there is no such group. What stands before that group is read and
then given up, which no other place of an expression allows.
-/

import Mathlib.Data.List.Chain
import Reckon.Proofs.Acceptance
import Reckon.Proofs.Contents

namespace Reckon

/-! ### What is written in a tree -/

/-- A number or an operation, as something one comes across from left to right. -/
inductive Item
  | number (value : Float)
  | operation (symbol : String)

namespace Item

def number? : Item → Option Float
  | .number value => some value
  | .operation _ => none

def symbol? : Item → Option String
  | .number _ => none
  | .operation symbol => some symbol

end Item

namespace Tree

variable {Leaf : Type}

/-- The leaves from left to right. -/
def leaves : Tree Leaf → List Leaf
  | .leaf value => [value]
  | .node left _ right => left.leaves ++ right.leaves

/-- The operations from left to right, each between those of its operands. -/
def operations : Tree Leaf → List Operation
  | .leaf _ => []
  | .node left operation right => left.operations ++ operation :: right.operations

/-- The symbols of the operations. -/
def symbols (tree : Tree Leaf) : List String :=
  tree.operations.map Operation.symbol

theorem leaves_map {Image : Type} (function : Leaf → Image) (tree : Tree Leaf) :
    (tree.map function).leaves = tree.leaves.map function := by
  induction tree with
  | leaf value => rfl
  | node left operation right leftHypothesis rightHypothesis =>
    rw [map, leaves, leaves, leftHypothesis, rightHypothesis, List.map_append]

theorem operations_map {Image : Type} (function : Leaf → Image) (tree : Tree Leaf) :
    (tree.map function).operations = tree.operations := by
  induction tree with
  | leaf value => rfl
  | node left operation right leftHypothesis rightHypothesis =>
    rw [map, operations, operations, leftHypothesis, rightHypothesis]

/-- Leaves and operations together. -/
def items : Expression → List Item
  | .leaf value => [.number value]
  | .node left operation right => left.items ++ .operation operation.symbol :: right.items

theorem leaves_eq_items (tree : Expression) : tree.leaves = tree.items.filterMap Item.number? := by
  induction tree with
  | leaf value => rfl
  | node left operation right leftHypothesis rightHypothesis =>
    rw [leaves, items, List.filterMap_append, leftHypothesis, rightHypothesis]
    rfl

theorem symbols_eq_items (tree : Expression) :
    tree.symbols = tree.items.filterMap Item.symbol? := by
  induction tree with
  | leaf value => rfl
  | node left operation right leftHypothesis rightHypothesis =>
    rw [symbols] at leftHypothesis rightHypothesis ⊢
    rw [operations, items, List.filterMap_append, List.map_append, List.map_cons,
      leftHypothesis, rightHypothesis]
    rfl

end Tree

/-! ### What is written in a source -/

/-- The item of a terminal. Brackets have none. -/
def Terminal.item? : Terminal → Option Item
  | .number value => some (.number value)
  | .operator sign => some (.operation sign.symbol)
  | _ => none

/-- The numbers among some tokens. -/
def numbers (tokens : List Token) : List Float :=
  tokens.filterMap fun token =>
    match token.kind with
    | .number => some token.value
    | _ => none

/-- The symbols of the operators among some tokens. -/
def symbols (tokens : List Token) : List String :=
  tokens.filterMap fun token =>
    match token.kind with
    | .operator operator => some operator.symbol
    | _ => none

theorem numbers_eq_items (tokens : List Token) :
    numbers tokens =
      ((tokens.map Token.terminal).filterMap Terminal.item?).filterMap Item.number? := by
  rw [numbers, List.filterMap_map, List.filterMap_filterMap]
  refine congrArg (List.filterMap · tokens) (funext fun token => ?_)
  simp only [Function.comp, Token.terminal]
  cases token.kind <;> rfl

theorem symbols_eq_items (tokens : List Token) :
    symbols tokens =
      ((tokens.map Token.terminal).filterMap Terminal.item?).filterMap Item.symbol? := by
  rw [symbols, List.filterMap_map, List.filterMap_filterMap]
  refine congrArg (List.filterMap · tokens) (funext fun token => ?_)
  simp only [Function.comp, Token.terminal]
  cases token.kind <;> rfl

/-! ### The items of a chain -/

/-- What a move adds to a value, or puts in its place. -/
def Move.items : Move → List Item
  | .apply operator operand => .operation operator.symbol :: operand.tree.items
  | .replace value => value.items

/-- The move keeps the value before it. -/
def Move.Keeps : Move → Prop
  | .apply _ _ => True
  | .replace _ => False

/-- A chain of operators keeps all items in their order, however it is grouped. -/
theorem items_readChain (value : Expression) (moves : List Move)
    (keeps : ∀ move ∈ moves, move.Keeps) :
    (readChain value moves).items = value.items ++ moves.flatMap Move.items := by
  fun_induction readChain value moves with
  | case1 value => simp
  | case2 value other moves inductionHypothesis =>
    exact absurd (keeps (.replace other) List.mem_cons_self) id
  | case3 value operator operand tighter right moves ahead inductionHypothesis =>
    rw [inductionHypothesis fun move member => keeps move
      (List.mem_cons_of_mem _ (List.mem_cons_of_mem _ member))]
    simp [Tree.items, Move.items, Operator.operation]
  | case4 value operator operand tighter right moves kept inductionHypothesis =>
    rw [inductionHypothesis fun move member => keeps move (List.mem_cons_of_mem _ member)]
    simp [Tree.items, Move.items, Operator.operation]
  | case5 value operator operand moves alone inductionHypothesis =>
    rw [inductionHypothesis fun move member => keeps move (List.mem_cons_of_mem _ member)]
    simp [Tree.items, Move.items, Operator.operation]

/-- Nothing that comes before a value that takes its place has a part in the tree. -/
theorem readChain_replace (value other : Expression) (before after : List Move) :
    readChain value (before ++ .replace other :: after) = readChain other after := by
  generalize moves : before ++ Move.replace other :: after = all
  fun_induction readChain value all generalizing before with
  | case1 value => simp at moves
  | case2 value first all inductionHypothesis =>
    cases before with
    | nil =>
      obtain ⟨same, rfl⟩ := List.cons.inj moves
      rw [Move.replace.inj same]
    | cons move before => exact inductionHypothesis before (List.cons.inj moves).2
  | case3 value operator operand tighter right all ahead inductionHypothesis =>
    cases before with
    | nil => exact absurd (List.cons.inj moves).1 (by simp)
    | cons move before =>
      cases before with
      | nil => exact absurd (List.cons.inj (List.cons.inj moves).2).1 (by simp)
      | cons next before =>
        exact inductionHypothesis before (List.cons.inj (List.cons.inj moves).2).2
  | case4 value operator operand tighter right all kept inductionHypothesis =>
    cases before with
    | nil => exact absurd (List.cons.inj moves).1 (by simp)
    | cons move before => exact inductionHypothesis before (List.cons.inj moves).2
  | case5 value operator operand all alone inductionHypothesis =>
    cases before with
    | nil => exact absurd (List.cons.inj moves).1 (by simp)
    | cons move before => exact inductionHypothesis before (List.cons.inj moves).2

mutual

theorem Operand.items_tree (operand : Operand) :
    operand.tree.items = operand.terminals.filterMap Terminal.item? := by
  cases operand with
  | number value => rfl
  | group bracket first links =>
    rw [Operand.tree, Operand.atom, items_readChain _ _ links.moves_keep, ← Operand.tree,
      first.items_tree, links.items_moves, Operand.terminals, List.filterMap_cons_none rfl,
      List.filterMap_append, List.filterMap_append, List.filterMap_cons_none rfl,
      List.filterMap_nil, List.append_nil]

theorem Links.items_moves (links : Links) :
    links.moves.flatMap Move.items = links.terminals.filterMap Terminal.item? := by
  cases links with
  | done => rfl
  | link operator operand rest =>
    rw [Links.moves, List.flatMap_cons, Move.items, ← Operand.tree, operand.items_tree,
      rest.items_moves, List.cons_append, ← List.filterMap_append]
    rfl

theorem Links.moves_keep (links : Links) : ∀ move ∈ links.moves, move.Keeps := by
  cases links with
  | done => simp [Links.moves]
  | link operator operand rest =>
    intro move member
    cases member with
    | head => trivial
    | tail _ member => exact rest.moves_keep move member

end

/-! ### Where a value is given up -/

namespace Terminal

/-- A complete value ends here. -/
def EndsValue : Terminal → Prop
  | .number _ | .closing _ => True
  | _ => False

/-- A group begins here. -/
def Opens : Terminal → Prop
  | .opening _ => True
  | _ => False

/-- The next terminal does not begin a group right behind a value. -/
def Joins (terminal next : Terminal) : Prop :=
  ¬ (terminal.EndsValue ∧ next.Opens)

end Terminal

/-- No group stands right behind a complete value. -/
def Unbroken (terminals : List Terminal) : Prop :=
  terminals.IsChain Terminal.Joins

/-- The terminals end with a complete value. -/
def EndWithValue (terminals : List Terminal) : Prop :=
  ∃ last ∈ terminals.getLast?, last.EndsValue

theorem joins_of_not_ends {terminal : Terminal} (next : Terminal)
    (unfinished : ¬ terminal.EndsValue) : terminal.Joins next :=
  fun broken => unfinished broken.1

theorem joins_of_not_opens {next : Terminal} (terminal : Terminal) (joined : ¬ next.Opens) :
    terminal.Joins next :=
  fun broken => joined broken.2

theorem Unbroken.cons {after : List Terminal} {terminal : Terminal} (unbroken : Unbroken after)
    (unfinished : ¬ terminal.EndsValue) : Unbroken (terminal :: after) :=
  List.isChain_cons.mpr ⟨fun next _ => joins_of_not_ends next unfinished, unbroken⟩

/-- What goes on with a terminal that opens no group is joined. -/
theorem Unbroken.append_cons {before after : List Terminal} {terminal : Terminal}
    (first : Unbroken before) (second : Unbroken (terminal :: after)) (joined : ¬ terminal.Opens) :
    Unbroken (before ++ terminal :: after) := by
  refine List.isChain_append.mpr ⟨first, second, ?_⟩
  intro last _ next isNext
  obtain rfl := Option.some.inj isNext
  exact joins_of_not_opens last joined

theorem EndWithValue.append {after : List Terminal} (before : List Terminal)
    (ends : EndWithValue after) : EndWithValue (before ++ after) := by
  obtain ⟨last, isLast, value⟩ := ends
  refine ⟨last, ?_, value⟩
  rw [List.getLast?_append, isLast]
  rfl

/-- A complete value goes on with an operator and another one. -/
theorem unbroken_append_operator {before after : List Terminal} (operator : Operator)
    (complete : Unbroken before ∧ EndWithValue before)
    (operand : Unbroken after ∧ EndWithValue after) :
    Unbroken (before ++ .operator operator :: after) ∧
      EndWithValue (before ++ .operator operator :: after) :=
  ⟨complete.1.append_cons (operand.1.cons id) id,
    (operand.2.append [.operator operator]).append before⟩

mutual

theorem Operand.unbroken (operand : Operand) :
    Unbroken operand.terminals ∧ EndWithValue operand.terminals := by
  cases operand with
  | number value => exact ⟨.singleton _, _, rfl, trivial⟩
  | group bracket first links =>
    have inside := links.unbroken_append first.terminals first.unbroken
    have closed : EndWithValue [Terminal.closing bracket] := ⟨_, rfl, trivial⟩
    rw [Operand.terminals, ← List.append_assoc]
    refine ⟨Unbroken.cons (inside.1.append_cons (.singleton _) id) id, ?_⟩
    exact (closed.append (first.terminals ++ links.terminals)).append [.opening bracket]

/-- Links go on with a value that has been complete. -/
theorem Links.unbroken_append (links : Links) (before : List Terminal)
    (complete : Unbroken before ∧ EndWithValue before) :
    Unbroken (before ++ links.terminals) ∧ EndWithValue (before ++ links.terminals) := by
  cases links with
  | done => rwa [Links.terminals, List.append_nil]
  | link operator operand rest =>
    have further := unbroken_append_operator operator complete operand.unbroken
    have all := rest.unbroken_append _ further
    rwa [List.append_assoc, List.cons_append] at all

end

/-! ### The last stretch of a line -/

/-- The part goes on with the value before it. -/
def Part.Continues : Part → Prop
  | .link _ _ => True
  | .group _ _ _ => False

/-- Parts that all go on are links. -/
theorem exists_links (parts : List Part) (continues : ∀ part ∈ parts, part.Continues) :
    ∃ links : Links, parts.flatMap Part.terminals = links.terminals ∧
      parts.map Part.move = links.moves ∧
      ∀ limit, (∀ part ∈ parts, part.nesting ≤ limit) → links.nesting ≤ limit := by
  induction parts with
  | nil => exact ⟨.done, rfl, rfl, fun limit _ => Nat.zero_le limit⟩
  | cons part parts inductionHypothesis =>
    obtain ⟨links, spelled, moved, nested⟩ := inductionHypothesis fun other member =>
      continues other (List.mem_cons_of_mem _ member)
    cases part with
    | group bracket first links => exact absurd (continues _ List.mem_cons_self) id
    | link operator operand =>
      refine ⟨.link operator operand links, ?_, ?_, fun limit fits => ?_⟩
      · rw [List.flatMap_cons, spelled]
        rfl
      · rw [List.map_cons, moved]
        rfl
      · obtain ⟨here, others⟩ := List.forall_mem_cons.mp fits
        exact Nat.max_le.mpr ⟨here, nested limit others⟩

/-- Some part is the last that does not go on, unless all do. -/
theorem last_group (parts : List Part) :
    (∀ part ∈ parts, part.Continues) ∨
      ∃ before bracket first links after, parts = before ++ .group bracket first links :: after ∧
        ∀ part ∈ after, part.Continues := by
  induction parts with
  | nil => exact .inl (by simp)
  | cons part parts inductionHypothesis =>
    rcases inductionHypothesis with
      continues | ⟨before, bracket, first, links, after, rfl, continues⟩
    · cases part with
      | group bracket first links => exact .inr ⟨[], bracket, first, links, parts, rfl, continues⟩
      | link operator operand =>
        refine .inl fun other member => ?_
        cases member with
        | head => trivial
        | tail _ member => exact continues other member
    · exact .inr ⟨part :: before, bracket, first, links, after, rfl, continues⟩

theorem Part.endWithValue (part : Part) : EndWithValue part.terminals := by
  cases part with
  | group bracket first links => exact (Operand.group bracket first links).unbroken.2
  | link operator operand => exact operand.unbroken.2.append [.operator operator]

theorem endWithValue_parts (parts : List Part) (before : List Terminal)
    (complete : EndWithValue before) : EndWithValue (before ++ parts.flatMap Part.terminals) := by
  induction parts generalizing before with
  | nil => rwa [List.flatMap_nil, List.append_nil]
  | cons part parts inductionHypothesis =>
    rw [List.flatMap_cons, ← List.append_assoc]
    exact inductionHypothesis _ (part.endWithValue.append before)

/-- A tree holds a number at least. -/
theorem Tree.leaves_ne_nil {Leaf : Type} (tree : Tree Leaf) : tree.leaves ≠ [] := by
  induction tree with
  | leaf value => simp [leaves]
  | node left operation right leftHypothesis rightHypothesis => simp [leaves, leftHypothesis]

/-- What is given up: terminals up to the end of a value, with a number among them. -/
structure GivenUp (given : List Terminal) : Prop where
  complete : EndWithValue given
  number : (given.filterMap Terminal.item?).filterMap Item.number? ≠ []

/-- A line is read as its last operand that is not joined to a value before it, and the links behind
that operand. All before is given up. The groups of what is kept nest no deeper than those of the
line. -/
theorem Line.split_within (line : Line) :
    ∃ (given : List Terminal) (operand : Operand) (links : Links),
      line.terminals = given ++ (operand.terminals ++ links.terminals) ∧
      line.tree = readChain operand.tree links.moves ∧
      (given = [] ∨ GivenUp given ∧ ∃ opener ∈ operand.terminals.head?, opener.Opens) ∧
      ∀ limit, line.Fits limit → max operand.nesting links.nesting ≤ limit := by
  obtain ⟨first, parts⟩ := line
  rcases last_group parts with continues | ⟨before, bracket, inner, within, after, rfl, continues⟩
  · obtain ⟨links, spelled, moved, nested⟩ := exists_links parts continues
    refine ⟨[], first, links, ?_, ?_, .inl rfl, fun limit fits => ?_⟩
    · rw [Line.terminals, spelled]
      rfl
    · rw [Line.tree, moved]
    · exact Nat.max_le.mpr ⟨fits.1, nested limit fits.2⟩
  · obtain ⟨links, spelled, moved, nested⟩ := exists_links after continues
    refine ⟨first.terminals ++ before.flatMap Part.terminals, .group bracket inner within, links,
      ?_, ?_, .inr ⟨⟨?_, ?_⟩, _, rfl, trivial⟩, fun limit fits => ?_⟩
    · rw [Line.terminals, List.flatMap_append, List.flatMap_cons, spelled, List.append_assoc]
      rfl
    · rw [Line.tree, List.map_append, List.map_cons, moved]
      exact readChain_replace _ _ _ _
    · exact endWithValue_parts before _ first.unbroken.2
    · rw [List.filterMap_append, List.filterMap_append, ← Operand.items_tree,
        ← Tree.leaves_eq_items]
      exact List.append_ne_nil_of_left_ne_nil (Tree.leaves_ne_nil _) _
    · obtain ⟨group, others⟩ := List.forall_mem_cons.mp (List.forall_mem_append.mp fits.2).2
      exact Nat.max_le.mpr ⟨group, nested limit others⟩

theorem Line.split (line : Line) :
    ∃ (given : List Terminal) (operand : Operand) (links : Links),
      line.terminals = given ++ (operand.terminals ++ links.terminals) ∧
      line.tree = readChain operand.tree links.moves ∧
      (given = [] ∨ GivenUp given ∧ ∃ opener ∈ operand.terminals.head?, opener.Opens) := by
  obtain ⟨given, operand, links, spelled, read, origin, _⟩ := line.split_within
  exact ⟨given, operand, links, spelled, read, origin⟩

/-- An operand and the links behind it keep their items in their order. -/
theorem items_operand_links (operand : Operand) (links : Links) :
    (readChain operand.tree links.moves).items =
      (operand.terminals ++ links.terminals).filterMap Terminal.item? := by
  rw [items_readChain _ _ links.moves_keep, operand.items_tree, links.items_moves,
    List.filterMap_append]

/-- Right behind a complete value a group breaks the list. -/
theorem not_unbroken_append {before after : List Terminal} (complete : EndWithValue before)
    (opens : ∃ opener ∈ after.head?, opener.Opens) : ¬ Unbroken (before ++ after) := by
  obtain ⟨last, isLast, value⟩ := complete
  obtain ⟨opener, isFirst, group⟩ := opens
  intro unbroken
  exact (List.isChain_append.mp unbroken).2.2 last isLast opener isFirst ⟨value, group⟩

/-! ### Sources -/

/-- Some tokens are the last stretch of others: no group in them stands right behind a complete
value, and they begin with a group that does, or are all the tokens there are. -/
structure LastStretch (kept all : List Token) : Prop where
  unbroken : Unbroken (kept.map Token.terminal)
  broken : ∃ given, all = given ++ kept ∧
    (given = [] ∨ EndWithValue (given.map Token.terminal) ∧
      ∃ opener ∈ (kept.map Token.terminal).head?, opener.Opens)

/-- The numbers and operators in the tree of a source are those of the last stretch of its tokens,
each once and in their order. So all numbers and operators of the source are in the tree if and
only if no group stands right behind a complete value. -/
theorem parse_keeps {source : String} {limit : Int} {tree : Expression}
    (accepted : parse source limit = .ok tree) :
    (∃ kept, LastStretch kept (words source) ∧
      tree.leaves = numbers kept ∧ tree.symbols = symbols kept) ∧
    ((tree.leaves = numbers (words source) ∧ tree.symbols = symbols (words source)) ↔
      Unbroken ((words source).map Token.terminal)) := by
  obtain ⟨line, spelled, _, rfl⟩ := line_of_parse accepted
  obtain ⟨given, operand, links, parts, read, origin⟩ := line.split
  rw [parts] at spelled
  obtain ⟨givenTokens, kept, split, givenSpelled, keptSpelled⟩ := List.map_eq_append_iff.mp spelled
  have unbroken := (links.unbroken_append operand.terminals operand.unbroken).1
  have leaves : line.tree.leaves = numbers kept := by
    rw [read, Tree.leaves_eq_items, items_operand_links, numbers_eq_items, keptSpelled]
  have symbols : line.tree.symbols = symbols kept := by
    rw [read, Tree.symbols_eq_items, items_operand_links, symbols_eq_items, keptSpelled]
  rcases origin with rfl | ⟨givenUp, opener, isFirst, group⟩
  · obtain rfl := List.map_eq_nil_iff.mp givenSpelled
    rw [List.nil_append] at split
    subst split
    rw [keptSpelled]
    exact ⟨⟨words source, ⟨keptSpelled ▸ unbroken, [], rfl, .inl rfl⟩, leaves, symbols⟩,
      fun _ => unbroken, fun _ => ⟨leaves, symbols⟩⟩
  · have opens : ∃ opener ∈ (operand.terminals ++ links.terminals).head?, opener.Opens :=
      ⟨opener, by rw [List.head?_append, isFirst]; rfl, group⟩
    refine ⟨⟨kept, ⟨keptSpelled ▸ unbroken, givenTokens, split, .inr ⟨?_, ?_⟩⟩, leaves, symbols⟩,
      ?_, ?_⟩
    · rw [givenSpelled]
      exact givenUp.complete
    · rw [keptSpelled]
      exact opens
    · rintro ⟨all, _⟩
      have none : numbers givenTokens = [] := by
        rw [leaves, split, numbers, numbers, List.filterMap_append] at all
        exact List.append_left_eq_self.mp all.symm
      rw [numbers_eq_items, givenSpelled] at none
      exact absurd none givenUp.number
    · rw [spelled]
      exact fun joined => absurd joined (not_unbroken_append givenUp.complete opens)

/-- The line of a number with a group right behind it. -/
theorem terminals_one_group_two :
    (words "1 (2)").map Token.terminal =
      (⟨.number (Numeral.value ['1']), [.group .round (.number (Numeral.value ['2'])) .done]⟩ :
        Line).terminals := by
  have blank : Behind [' ', '(', '2', ')'] := by
    intro next isNext
    obtain rfl := Option.some.inj isNext
    decide
  have spelled : terminals none ("1 (2)".toList) =
      [.number (Numeral.value ['1']), .opening .round, .number (Numeral.value ['2']),
        .closing .round, .foreign] := by
    show terminals none (['1'] ++ [' ', '(', '2', ')']) = _
    rw [terminals_numeral (by decide) rfl blank, terminals, contents_blank _ _ (by decide),
      ← terminals, terminals_opening]
    show _ :: _ :: terminals (some '(') (['2'] ++ [')']) = _
    rw [terminals_numeral (by decide) (by decide) (behind_closing []), terminals_closing behind_nil,
      terminals_nil]
  rw [terminals_words, spelled]
  rfl

/-- The first number of `1 (2)` is given up. -/
theorem parse_one_group_two :
    parse "1 (2)" 1 = .ok (.leaf (Numeral.value ['2'])) ∧
      ¬ Unbroken ((words "1 (2)").map Token.terminal) := by
  have read : parse "1 (2)" 1 = .ok (.leaf (Numeral.value ['2'])) := by
    refine parse_of_line terminals_one_group_two ⟨by decide, ?_⟩
    simp [Part.nesting, Operand.nesting, Links.nesting]
  refine ⟨read, fun unbroken => ?_⟩
  obtain ⟨leaves, _⟩ := (parse_keeps read).2.mpr unbroken
  rw [numbers_eq_items, terminals_one_group_two] at leaves
  exact absurd (congrArg List.length leaves) (by decide)

end Reckon
