/-
This file puts one number of a phrase in brackets of its own, and says what
becomes of the tree.

A group is never given away, and a number is. So the tree changes where the
number stands between a sum or difference and a product or quotient: the number
belonged to the second operator, and the group stays with the first. Nowhere
else does the reading tell the two apart. Around the place the change is passed
on as it is: a tree that is read on, or filled into what waits for it, takes
over the shape of its part, and only a group that takes the place of a value
drops it.
-/

import Reckon.Proofs.Partition
import Reckon.Proofs.Precedence

namespace Reckon

/-! ### Trees that differ -/

/-- A tree is made into another that is the same, but for one condition, under which not even the
shapes are. -/
structure Regroups (moved : Prop) (tree tree' : Expression) : Prop where
  same : ¬ moved → tree' = tree
  apart : moved → tree'.shape ≠ tree.shape

namespace Regroups

variable {moved moved' : Prop} {tree tree' : Expression}

theorem refl (still : ¬ moved) (tree : Expression) : Regroups moved tree tree :=
  ⟨fun _ => rfl, fun holds => absurd holds still⟩

theorem of_iff (regroups : Regroups moved tree tree') (same : moved' ↔ moved) :
    Regroups moved' tree tree' :=
  ⟨fun still => regroups.same (mt same.mpr still), fun holds => regroups.apart (same.mp holds)⟩

theorem tree_eq_iff (regroups : Regroups moved tree tree') : tree' = tree ↔ ¬ moved :=
  ⟨fun same holds => regroups.apart holds (congrArg Tree.shape same), regroups.same⟩

theorem shape_eq_iff (regroups : Regroups moved tree tree') :
    tree'.shape = tree.shape ↔ ¬ moved :=
  ⟨fun same holds => regroups.apart holds same, fun still => congrArg _ (regroups.same still)⟩

end Regroups

/-! ### What takes over a change -/

/-- Reading on from values of different shapes makes trees of different shapes. -/
theorem shape_of_shape_readChain {value value' : Expression} {moves : List Move}
    (keeps : ∀ move ∈ moves, move.Keeps)
    (same : (readChain value' moves).shape = (readChain value moves).shape) :
    value'.shape = value.shape := by
  fun_induction readChain value moves generalizing value' with
  | case1 value => exact same
  | case2 value other moves inductionHypothesis =>
    exact absurd (keeps (.replace other) List.mem_cons_self) id
  | case3 value operator operand tighter right moves ahead inductionHypothesis =>
    rw [readChain_taken ahead] at same
    have grown := inductionHypothesis
      (fun move member => keeps move (List.mem_cons_of_mem _ (List.mem_cons_of_mem _ member))) same
    exact (Tree.node.inj grown).1
  | case4 value operator operand tighter right moves kept inductionHypothesis =>
    rw [readChain_kept kept] at same
    have grown := inductionHypothesis
      (fun move member => keeps move (List.mem_cons_of_mem _ member)) same
    exact (Tree.node.inj grown).1
  | case5 value operator operand moves alone inductionHypothesis =>
    rw [readChain] at same
    · have grown := inductionHypothesis
        (fun move member => keeps move (List.mem_cons_of_mem _ member)) same
      exact (Tree.node.inj grown).1
    · exact alone

/-- What waits for operands of different shapes is filled into trees of different shapes. -/
theorem Waiting.shape_fill {waiting : Waiting} {operand operand' : Expression}
    (same : (waiting.fill operand').shape = (waiting.fill operand).shape) :
    operand'.shape = operand.shape := by
  induction waiting generalizing operand operand' with
  | nil => exact same
  | cons entry waiting inductionHypothesis => exact (Tree.node.inj (inductionHypothesis same)).2.2

/-- A value that takes the place of all before it leaves nothing of how that came about. -/
theorem Pending.foldl_feed_of_replace {moves : List Move} (given : ¬ ∀ move ∈ moves, move.Keeps)
    (pending pending' : Pending) : moves.foldl feed pending = moves.foldl feed pending' := by
  induction moves generalizing pending pending' with
  | nil => exact absurd (List.forall_mem_nil _) given
  | cons move moves inductionHypothesis =>
    cases move with
    | replace value => rfl
    | apply operator operand =>
      exact inductionHypothesis (fun keeps => given (List.forall_mem_cons.mpr ⟨trivial, keeps⟩)) _ _

namespace Regroups

variable {moved : Prop} {tree tree' : Expression}

theorem fill (regroups : Regroups moved tree tree') (waiting : Waiting) :
    Regroups moved (waiting.fill tree) (waiting.fill tree') where
  same := fun still => congrArg _ (regroups.same still)
  apart := fun holds same => regroups.apart holds (Waiting.shape_fill same)

/-- Reading on passes a change on, unless a value takes the place of it. -/
theorem readChain (regroups : Regroups moved tree tree') (moves : List Move) :
    Regroups (moved ∧ ∀ move ∈ moves, move.Keeps) (Reckon.readChain tree moves)
      (Reckon.readChain tree' moves) where
  same := by
    intro still
    by_cases keeps : ∀ move ∈ moves, move.Keeps
    · rw [regroups.same fun holds => still ⟨holds, keeps⟩]
    · rw [← Pending.tree_foldl_feed, ← Pending.tree_foldl_feed,
        Pending.foldl_feed_of_replace keeps]
  apart := fun holds same => regroups.apart holds.1 (shape_of_shape_readChain holds.2 same)

end Regroups

/-! ### A number between two operators -/

/-- The move goes on with a product or quotient. -/
def Move.IsTight : Move → Prop
  | .apply operator _ => operator.isAdditive = false
  | .replace _ => False

namespace Pending

/-- The next operator takes the operand of a sum or difference if it is tighter. -/
theorem takes_operate (pending : Pending) (operator next : Operator) :
    Reading.takes next (pending.operate operator) = (operator.isAdditive && !next.isAdditive) := by
  rw [operate]
  split <;> exact takes_cons _ _ _ _

/-- A sum or difference takes nothing of the value before it. -/
theorem feed_additive (pending : Pending) {operator : Operator}
    (additive : operator.isAdditive = true) (operand : Atom) :
    pending.feed (.apply operator operand) =
      (settled pending.tree).feed (.apply operator operand) := by
  have kept : Reading.takes operator pending.waiting = false := by
    obtain ⟨waiting, value⟩ := pending
    cases waiting with
    | nil => rfl
    | cons entry waiting =>
      obtain ⟨left, earlier⟩ := entry
      rw [takes_cons, additive, Bool.not_true, Bool.and_false]
  rw [feed, feed, operate, kept]
  rfl

end Pending

/-- A tight operator joins its operand to the value before it. -/
theorem readChain_tight {tight : Operator} (isTight : tight.isAdditive = false)
    (value : Expression) (right : Atom) (moves : List Move) :
    readChain value (.apply tight right :: moves) =
      readChain (.node value tight.operation right.tree) moves := by
  cases moves with
  | nil => rfl
  | cons move moves =>
    cases move with
    | replace other => rfl
    | apply operator operand =>
      exact readChain_kept (by rw [isTight]; exact Bool.false_ne_true) value operand moves

/-- A product of the right operand of a sum is not a product of the sum. -/
theorem regroups_contested {operator tight : Operator} (additive : operator.isAdditive = true)
    (isTight : tight.isAdditive = false) (value operand right : Expression) :
    Regroups True (.node value operator.operation (.node operand tight.operation right))
      (.node (.node value operator.operation operand) tight.operation right) where
  same := fun never => absurd trivial never
  apart := by
    intro _ same
    have roots : tight.operation = operator.operation := (Tree.node.inj same).2.1
    have priorities := congrArg Operation.priority roots
    cases operator <;> cases tight <;> contradiction

/-- Between a sum or difference and a product or quotient an operand that is bare goes with the
second, and one that is not stays with the first. Everywhere else they are read alike. -/
theorem regroups_bare (pending : Pending) (operator : Operator) (operand : Expression)
    (moves : List Move) :
    Regroups (operator.isAdditive = true ∧ (∃ move ∈ moves.head?, move.IsTight) ∧
        ∀ move ∈ moves, move.Keeps)
      (moves.foldl Pending.feed (pending.feed (.apply operator ⟨operand, true⟩))).tree
      (moves.foldl Pending.feed (pending.feed (.apply operator ⟨operand, false⟩))).tree := by
  by_cases contested : operator.isAdditive = true ∧ ∃ move ∈ moves.head?, move.IsTight
  · obtain ⟨additive, move, isFirst, isTight⟩ := contested
    obtain ⟨others, rfl⟩ := List.head?_eq_some_iff.mp isFirst
    cases move with
    | replace other => exact isTight.elim
    | apply tight right =>
      have read (bare : Bool) : ((Move.apply tight right :: others).foldl Pending.feed
          (pending.feed (.apply operator ⟨operand, bare⟩))).tree =
            readChain pending.tree
              (.apply operator ⟨operand, bare⟩ :: .apply tight right :: others) := by
        rw [← Pending.tree_foldl_feed, pending.feed_additive additive]
        rfl
      have taken : (operator.isAdditive && true && !tight.isAdditive) = true := by
        rw [additive, show tight.isAdditive = false from isTight]
        rfl
      rw [read, read, readChain_taken taken, readChain_kept (by simp), readChain_tight isTight]
      refine ((regroups_contested additive isTight _ _ _).readChain others).of_iff ⟨?_, ?_⟩
      · rintro ⟨_, _, keeps⟩
        exact ⟨trivial, (List.forall_mem_cons.mp keeps).2⟩
      · rintro ⟨_, keeps⟩
        exact ⟨additive, ⟨_, rfl, isTight⟩, List.forall_mem_cons.mpr ⟨trivial, keeps⟩⟩
  · refine ⟨fun _ => ?_, fun holds => absurd ⟨holds.1, holds.2.1⟩ contested⟩
    have kept := Pending.tree_foldl_settled (pending.feed (.apply operator ⟨operand, true⟩)) moves
    refine (kept fun next right isFirst => ?_).symm
    rw [Pending.feed, Pending.arrive, if_pos rfl, Pending.takes_operate, Bool.and_eq_false_iff]
    refine (Bool.eq_false_or_eq_true operator.isAdditive).symm.imp_right fun additive => ?_
    have loose : ¬ next.isAdditive = false := fun isTight =>
      contested ⟨additive, _, isFirst, isTight⟩
    rw [eq_true_of_ne_false loose]
    rfl

/-! ### Where a number is contested -/

namespace Terminal

/-- A sum or difference. -/
def IsAdditive : Terminal → Prop
  | .operator sign => sign.isAdditive = true
  | _ => False

/-- A product or quotient. -/
def IsTight : Terminal → Prop
  | .operator sign => sign.isAdditive = false
  | _ => False

end Terminal

/-- Between these terminals a number would be given away: a sum or difference stands right before
it, and a product or quotient right behind. -/
def Contested (before after : List Terminal) : Prop :=
  (∃ terminal ∈ before.getLast?, terminal.IsAdditive) ∧
    ∃ terminal ∈ after.head?, terminal.IsTight

theorem not_contested_nil (after : List Terminal) : ¬ Contested [] after := by
  rintro ⟨⟨terminal, isLast, _⟩, _⟩
  exact absurd isLast (by simp)

section
variable {front before after : List Terminal}

/-- Only the terminal right before counts, and no sum ends with a value. -/
theorem contested_append_left (complete : EndWithValue front) :
    Contested (front ++ before) after ↔ Contested before after := by
  refine and_congr_left fun _ => ?_
  rw [List.getLast?_append]
  cases isLast : before.getLast? with
  | some last => rfl
  | none =>
    obtain ⟨last, isEnd, value⟩ := complete
    rw [isEnd]
    constructor
    · rintro ⟨terminal, same, additive⟩
      obtain rfl := Option.some.inj same
      cases last <;> first | exact value.elim | exact additive.elim
    · rintro ⟨terminal, same, _⟩
      exact absurd same (by simp)

/-- Only the terminal right behind counts. -/
theorem contested_append_right (some : after ≠ []) (rest : List Terminal) :
    Contested before (after ++ rest) ↔ Contested before after := by
  cases after with
  | nil => exact absurd rfl some
  | cons terminal after => rfl

/-- A bracket before or behind is no operator. -/
theorem contested_brackets (bracket bracket' : Bracket) :
    Contested (.opening bracket :: before) (after ++ [.closing bracket']) ↔
      Contested before after := by
  refine and_congr ?_ ?_
  · cases before with
    | nil => simp [Terminal.IsAdditive]
    | cons terminal before => rfl
  · cases after with
    | nil => simp [Terminal.IsTight]
    | cons terminal after => rfl

end

/-! ### Phrases with a number in brackets of its own -/

/-- A number in brackets of its own. -/
def wrapped (value : Float) : List Terminal :=
  [.opening .round, .number value, .closing .round]

/-- A group is what an operand becomes when a number between these terminals in it gets brackets of
its own. -/
structure Wraps (before : List Terminal) (value : Float) (after : List Terminal)
    (operand group : Operand) : Prop where
  isGroup : group.IsGroup
  terminals : group.terminals = before ++ (wrapped value ++ after)
  nesting : group.nesting ≤ operand.nesting + 1
  place : operand = .number value ∧ before = [] ∧ after = [] ∨
    operand.IsGroup ∧ before ≠ [] ∧ after ≠ []
  tree : Regroups (Contested before after) operand.tree group.tree

theorem Operand.exists_of_isGroup (operand : Operand) (isGroup : operand.IsGroup) :
    ∃ bracket first links, operand = .group bracket first links := by
  cases operand with
  | number value => exact isGroup.elim
  | group bracket first links => exact ⟨bracket, first, links, rfl⟩

theorem Operand.atom_eq_of_isGroup {operand : Operand} (isGroup : operand.IsGroup) :
    operand.atom = ⟨operand.tree, false⟩ := by
  cases operand with
  | number value => exact isGroup.elim
  | group bracket first links => rfl

theorem wraps_number (value : Float) :
    Wraps [] value [] (.number value) (.group .round (.number value) .done) where
  isGroup := trivial
  terminals := rfl
  nesting := Nat.le_refl 1
  place := .inl ⟨rfl, rfl, rfl⟩
  tree := .refl (not_contested_nil []) _

section
variable {before after : List Terminal} {value : Float} {operand group : Operand}

theorem Wraps.contested_append (wraps : Wraps before value after operand group)
    (rest : List Terminal) : Contested before (after ++ rest) ↔ Contested before after := by
  rcases wraps.place with ⟨_, rfl, rfl⟩ | ⟨_, _, some⟩
  · exact iff_of_false (not_contested_nil _) (not_contested_nil _)
  · exact contested_append_right some rest

/-- As the right operand of an operator a number is contested by the terminals right behind it. -/
theorem Wraps.regroups (wraps : Wraps before value after operand group) (pending : Pending)
    (operator : Operator) (moves : List Move) {rest : List Terminal}
    (faces : (∃ terminal ∈ rest.head?, terminal.IsTight) ↔ ∃ move ∈ moves.head?, move.IsTight) :
    Regroups (Contested (.operator operator :: before) (after ++ rest) ∧
        ∀ move ∈ moves, move.Keeps)
      (moves.foldl Pending.feed (pending.feed (.apply operator operand.atom))).tree
      (moves.foldl Pending.feed (pending.feed (.apply operator group.atom))).tree := by
  rw [Operand.atom_eq_of_isGroup wraps.isGroup]
  rcases wraps.place with ⟨rfl, rfl, rfl⟩ | ⟨isGroup, someBefore, someAfter⟩
  · rw [wraps.tree.same (not_contested_nil [])]
    refine (regroups_bare pending operator _ moves).of_iff ?_
    rw [← faces, ← and_assoc]
    refine and_congr_left fun _ => and_congr_left fun _ => ?_
    simp [Terminal.IsAdditive]
  · rw [Operand.atom_eq_of_isGroup isGroup]
    have filled := (wraps.tree.fill (pending.operate operator)).readChain moves
    simp only [← Pending.tree_foldl_feed] at filled
    refine filled.of_iff (and_congr_left fun _ => ?_)
    rw [contested_append_right someAfter]
    cases before with
    | nil => exact absurd rfl someBefore
    | cons terminal before => rfl

/-- The change of the chain in a group is the change of the group. -/
theorem wraps_group (bracket : Bracket) {first first' : Operand} {links links' : Links}
    (terminals : first'.terminals ++ links'.terminals = before ++ (wrapped value ++ after))
    (nesting : max first'.nesting links'.nesting ≤ max first.nesting links.nesting + 1)
    (tree : Regroups (Contested before after) (readChain first.tree links.moves)
      (readChain first'.tree links'.moves)) :
    Wraps (.opening bracket :: before) value (after ++ [.closing bracket])
      (.group bracket first links) (.group bracket first' links') where
  isGroup := trivial
  terminals := by
    rw [Operand.terminals, ← List.append_assoc, terminals, List.append_assoc, List.append_assoc,
      List.cons_append]
  nesting := Nat.succ_le_succ nesting
  place := .inr ⟨trivial, List.cons_ne_nil _ _, List.append_ne_nil_of_right_ne_nil _ (by simp)⟩
  tree := tree.of_iff (contested_brackets bracket bracket)

theorem Links.faces (links : Links) :
    (∃ terminal ∈ links.terminals.head?, terminal.IsTight) ↔
      ∃ move ∈ links.moves.head?, move.IsTight := by
  cases links with
  | done => simp [Links.terminals, Links.moves]
  | link operator operand rest =>
    simp [Links.terminals, Links.moves, Terminal.IsTight, Move.IsTight]

end

mutual

/-- Any number of an operand can get brackets of its own. -/
theorem Operand.exists_wrapped (operand : Operand) {before after : List Terminal} {value : Float}
    (spelled : operand.terminals = before ++ .number value :: after) :
    ∃ group, Wraps before value after operand group := by
  cases operand with
  | number other =>
    obtain ⟨rfl, same, rfl⟩ := append_cons_eq_singleton spelled
    obtain rfl := Terminal.number.inj same
    exact ⟨_, wraps_number other⟩
  | group bracket first links =>
    cases before with
    | nil => exact absurd (List.cons.inj spelled).1 (by simp)
    | cons opener before =>
      obtain ⟨rfl, inside⟩ := List.cons.inj spelled
      rcases split_cons inside with ⟨tail, inFirst, rfl⟩ | ⟨head, rfl, behind⟩
      · obtain ⟨group, wraps⟩ := first.exists_wrapped inFirst
        refine ⟨.group bracket group links, ?_⟩
        rw [← List.append_assoc]
        refine wraps_group bracket ?_ ?_ ?_
        · rw [wraps.terminals, List.append_assoc, List.append_assoc]
        · have nesting := wraps.nesting
          omega
        · refine (wraps.tree.readChain links.moves).of_iff ?_
          rw [wraps.contested_append, and_iff_left links.moves_keep]
      · rcases split_cons behind with ⟨tail, inLinks, rfl⟩ | ⟨other, _, closer⟩
        · obtain ⟨links', terminals, nesting, tree⟩ := links.exists_wrapped inLinks
          refine ⟨.group bracket first links', wraps_group bracket ?_ ?_ ?_⟩
          · rw [terminals, List.append_assoc]
          · omega
          · have chain := tree (.settled first.tree)
            rw [Pending.tree_foldl_feed, Pending.tree_foldl_feed] at chain
            exact chain.of_iff (contested_append_left first.unbroken.2)
        · obtain ⟨_, same, _⟩ := append_cons_eq_singleton closer
          exact absurd same (by simp)

/-- Any number of links can get brackets of its own. -/
theorem Links.exists_wrapped (links : Links) {before after : List Terminal} {value : Float}
    (spelled : links.terminals = before ++ .number value :: after) :
    ∃ links' : Links, links'.terminals = before ++ (wrapped value ++ after) ∧
      links'.nesting ≤ links.nesting + 1 ∧
      ∀ pending : Pending, Regroups (Contested before after)
        (links.moves.foldl Pending.feed pending).tree
        (links'.moves.foldl Pending.feed pending).tree := by
  cases links with
  | done => exact absurd spelled.symm (List.append_ne_nil_of_right_ne_nil _ (by simp))
  | link operator operand rest =>
    cases before with
    | nil => exact absurd (List.cons.inj spelled).1 (by simp)
    | cons first before =>
      obtain ⟨rfl, behind⟩ := List.cons.inj spelled
      rcases split_cons behind with ⟨tail, inOperand, rfl⟩ | ⟨head, rfl, inRest⟩
      · obtain ⟨group, wraps⟩ := operand.exists_wrapped inOperand
        refine ⟨.link operator group rest, ?_, ?_, fun pending => ?_⟩
        · rw [Links.terminals, wraps.terminals]
          simp only [List.append_assoc, List.cons_append]
        · have nesting := wraps.nesting
          simp only [Links.nesting]
          omega
        · refine (wraps.regroups pending operator rest.moves rest.faces).of_iff ?_
          rw [and_iff_left rest.moves_keep]
      · obtain ⟨rest', terminals, nesting, tree⟩ := rest.exists_wrapped inRest
        refine ⟨.link operator operand rest', ?_, ?_, fun pending => ?_⟩
        · rw [Links.terminals, terminals, List.cons_append, List.append_assoc]
        · simp only [Links.nesting]
          omega
        · have complete := operand.unbroken.2.append [.operator operator]
          exact (tree _).of_iff (contested_append_left complete)

end

/-! ### Lines with a number in brackets of its own -/

/-- A value goes on with parts unbroken if none of them takes its place. -/
theorem unbroken_append_parts {front : List Terminal}
    (complete : Unbroken front ∧ EndWithValue front) (parts : List Part) :
    Unbroken (front ++ parts.flatMap Part.terminals) ↔
      ∀ move ∈ parts.map Part.move, move.Keeps := by
  induction parts generalizing front with
  | nil => simpa using complete.1
  | cons part parts inductionHypothesis =>
    rw [List.flatMap_cons, List.map_cons, List.forall_mem_cons]
    cases part with
    | group bracket first links =>
      refine iff_of_false ?_ fun keeps => keeps.1
      exact not_unbroken_append complete.2 ⟨.opening bracket, rfl, trivial⟩
    | link operator operand =>
      have further := unbroken_append_operator operator complete operand.unbroken
      rw [← List.append_assoc]
      exact (inductionHypothesis further).trans (and_iff_right trivial).symm

theorem Part.faces (parts : List Part) :
    (∃ terminal ∈ (parts.flatMap Part.terminals).head?, terminal.IsTight) ↔
      ∃ move ∈ (parts.map Part.move).head?, move.IsTight := by
  cases parts with
  | nil => simp
  | cons part parts =>
    cases part <;>
      simp [Part.terminals, Part.move, Operand.terminals, Terminal.IsTight, Move.IsTight]

section
variable {before after : List Terminal} {value : Float} {operand group : Operand}

/-- What stands behind a number in an operand is complete from the number on. -/
theorem Operand.complete_behind (spelled : operand.terminals = before ++ .number value :: after) :
    Unbroken (.number value :: after) ∧ EndWithValue (.number value :: after) := by
  obtain ⟨unbroken, last, isLast, ends⟩ := operand.unbroken
  rw [spelled] at unbroken isLast
  refine ⟨(List.isChain_append.mp unbroken).2.1, last, ?_, ends⟩
  rwa [List.getLast?_append_of_ne_nil _ (List.cons_ne_nil _ _)] at isLast

/-- As the value that parts go on with a number is contested by nothing but what is in the value. -/
theorem Wraps.regroups_value (wraps : Wraps before value after operand group)
    (spelled : operand.terminals = before ++ .number value :: after) (parts : List Part) :
    Regroups (Contested before (after ++ parts.flatMap Part.terminals) ∧
        Unbroken (.number value :: (after ++ parts.flatMap Part.terminals)))
      (readChain operand.tree (parts.map Part.move))
      (readChain group.tree (parts.map Part.move)) := by
  refine (wraps.tree.readChain (parts.map Part.move)).of_iff ?_
  rw [wraps.contested_append, ← List.cons_append,
    unbroken_append_parts (Operand.complete_behind spelled)]

end

/-- A part that nests one level deeper than another takes its place within one more level. -/
theorem forall_nesting_cons {part part' : Part} {parts : List Part}
    (grown : part'.nesting ≤ part.nesting + 1) (limit : Nat)
    (fits : ∀ other ∈ part :: parts, other.nesting ≤ limit) :
    ∀ other ∈ part' :: parts, other.nesting ≤ limit + 1 := by
  obtain ⟨here, others⟩ := List.forall_mem_cons.mp fits
  exact List.forall_mem_cons.mpr ⟨Nat.le_trans grown (Nat.succ_le_succ here),
    fun other member => Nat.le_succ_of_le (others other member)⟩

/-- Any number of parts can get brackets of its own. -/
theorem exists_wrapped_parts (parts : List Part) {before after : List Terminal} {value : Float}
    (spelled : parts.flatMap Part.terminals = before ++ .number value :: after) :
    ∃ parts' : List Part, parts'.flatMap Part.terminals = before ++ (wrapped value ++ after) ∧
      (∀ limit, (∀ part ∈ parts, part.nesting ≤ limit) →
        ∀ part ∈ parts', part.nesting ≤ limit + 1) ∧
      ∀ pending : Pending, Regroups (Contested before after ∧ Unbroken (.number value :: after))
        ((parts.map Part.move).foldl Pending.feed pending).tree
        ((parts'.map Part.move).foldl Pending.feed pending).tree := by
  induction parts generalizing before after with
  | nil => exact absurd spelled.symm (List.append_ne_nil_of_right_ne_nil _ (by simp))
  | cons part parts inductionHypothesis =>
    rw [List.flatMap_cons] at spelled
    rcases split_cons spelled with ⟨tail, inPart, rfl⟩ | ⟨head, rfl, inParts⟩
    · -- The number is in the first part, which is a group or the operand of an operator.
      cases part with
      | group bracket first links =>
        obtain ⟨group, wraps⟩ := (Operand.group bracket first links).exists_wrapped inPart
        obtain ⟨bracket', first', links', rfl⟩ := group.exists_of_isGroup wraps.isGroup
        refine ⟨.group bracket' first' links' :: parts, ?_, forall_nesting_cons wraps.nesting,
          fun pending => ?_⟩
        · rw [List.flatMap_cons, Part.terminals, wraps.terminals]
          simp only [List.append_assoc]
        · have read := wraps.regroups_value inPart parts
          rw [← Pending.tree_foldl_feed, ← Pending.tree_foldl_feed] at read
          exact read
      | link operator operand =>
        cases before with
        | nil => exact absurd (List.cons.inj inPart).1 (by simp)
        | cons first before =>
          obtain ⟨rfl, inOperand⟩ := List.cons.inj inPart
          obtain ⟨group, wraps⟩ := operand.exists_wrapped inOperand
          refine ⟨.link operator group :: parts, ?_, forall_nesting_cons wraps.nesting,
            fun pending => ?_⟩
          · rw [List.flatMap_cons, Part.terminals, wraps.terminals]
            simp only [List.append_assoc, List.cons_append]
          · rw [← List.cons_append, unbroken_append_parts (Operand.complete_behind inOperand)]
            exact wraps.regroups pending operator (parts.map Part.move) (Part.faces parts)
    · obtain ⟨parts', terminals, nesting, tree⟩ := inductionHypothesis inParts
      refine ⟨part :: parts', ?_, fun limit fits => ?_, fun pending => ?_⟩
      · rw [List.flatMap_cons, terminals, List.append_assoc]
      · obtain ⟨here, others⟩ := List.forall_mem_cons.mp fits
        exact List.forall_mem_cons.mpr ⟨Nat.le_succ_of_le here, nesting limit others⟩
      · exact (tree (pending.feed part.move)).of_iff
          (and_congr_left fun _ => contested_append_left part.endWithValue)

/-- Any number of a line can get brackets of its own. The tree stays the same unless the number is
contested and nothing takes the place of the value that it is in. -/
theorem Line.exists_wrapped (line : Line) {before after : List Terminal} {value : Float}
    (spelled : line.terminals = before ++ .number value :: after) :
    ∃ line' : Line, line'.terminals = before ++ (wrapped value ++ after) ∧
      (∀ limit, line.Fits limit → line'.Fits (limit + 1)) ∧
      Regroups (Contested before after ∧ Unbroken (.number value :: after)) line.tree
        line'.tree := by
  obtain ⟨first, parts⟩ := line
  rcases split_cons spelled with ⟨tail, inFirst, rfl⟩ | ⟨head, rfl, inParts⟩
  · obtain ⟨group, wraps⟩ := first.exists_wrapped inFirst
    refine ⟨⟨group, parts⟩, ?_, fun limit fits => ⟨?_, fun part member => ?_⟩,
      wraps.regroups_value inFirst parts⟩
    · rw [Line.terminals, wraps.terminals]
      simp only [List.append_assoc]
    · exact Nat.le_trans wraps.nesting (Nat.succ_le_succ fits.1)
    · exact Nat.le_succ_of_le (fits.2 part member)
  · obtain ⟨parts', terminals, nesting, tree⟩ := exists_wrapped_parts parts inParts
    refine ⟨⟨first, parts'⟩, ?_, fun limit fits => ⟨Nat.le_succ_of_le fits.1, nesting limit fits.2⟩,
      ?_⟩
    · rw [Line.terminals, terminals, List.append_assoc]
    · have read := tree (.settled first.tree)
      rw [Pending.tree_foldl_feed, Pending.tree_foldl_feed] at read
      exact read.of_iff (and_congr_left fun _ => contested_append_left first.unbroken.2)

end Reckon
