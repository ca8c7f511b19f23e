/-
This file proves that the reader of expressions accepts what the grammar
spells, and nothing else, and that it reads a line as the tree the line stands
for.

The machine keeps a number that may still be given away apart from the
operators that wait for it, where the reading of a chain looks one link ahead.
`tree_foldl_feed` is the agreement of the two on a chain. Around it stand two
arguments over whole inputs. One follows the phrases: over the tokens of a
phrase the machine goes from where an operand is to come to where an operator
is. The other follows the tokens: where the machine accepts, it must have found
an operand, and then links up to the closer of the innermost group.
-/

import Reckon.Proofs.Grammar
import Reckon.Proofs.Run

namespace Reckon

/-! ### A chain in the machine -/

/-- A value that may still be given away, and what waits for it. -/
structure Pending where
  waiting : Waiting
  value : Expression

namespace Pending

/-- A value that nothing can take a part of. -/
def settled (value : Expression) : Pending := ⟨[], value⟩

/-- The tree if nothing is given away. -/
def tree (pending : Pending) : Expression :=
  pending.waiting.fill pending.value

/-- What waits for the operand of an operator. -/
def operate (pending : Pending) (operator : Operator) : Waiting :=
  if Reading.takes operator pending.waiting then (pending.value, operator) :: pending.waiting
  else [(pending.tree, operator)]

/-- An operand that arrives. A bare number may still be given away. -/
def arrive (waiting : Waiting) (operand : Atom) : Pending :=
  if operand.bare then ⟨waiting, operand.tree⟩ else settled (waiting.fill operand.tree)

/-- The value after a move. -/
def feed (pending : Pending) : Move → Pending
  | .apply operator operand => arrive (pending.operate operator) operand
  | .replace value => settled value

end Pending

theorem takes_cons (operator waitingOperator : Operator) (value : Expression) (waiting : Waiting) :
    Reading.takes operator ((value, waitingOperator) :: waiting) =
      (waitingOperator.isAdditive && !operator.isAdditive) := by
  cases operator <;> cases waitingOperator <;> rfl

namespace Pending

@[simp]
theorem tree_settled (value : Expression) : (settled value).tree = value := rfl

theorem operate_settled (value : Expression) (operator : Operator) :
    (settled value).operate operator = [(value, operator)] := rfl

/-- Nothing waits for the first operand of a chain. -/
theorem arrive_nil (operand : Atom) : arrive [] operand = settled operand.tree := by
  rw [arrive]
  split <;> rfl

/-- What the next move does not take a part of might as well be settled. -/
theorem tree_foldl_settled (pending : Pending) (moves : List Move)
    (keeps : ∀ operator operand, moves.head? = some (.apply operator operand) →
      Reading.takes operator pending.waiting = false) :
    (moves.foldl feed pending).tree = (moves.foldl feed (settled pending.tree)).tree := by
  cases moves with
  | nil => rfl
  | cons move moves =>
    cases move with
    | replace value => rfl
    | apply operator operand =>
      have kept : pending.operate operator = (settled pending.tree).operate operator := by
        rw [operate_settled, operate, keeps operator operand rfl]
        rfl
      rw [List.foldl_cons, List.foldl_cons, feed, feed, kept]

/-- An operand that the next move does not take joins the value before it. -/
theorem tree_foldl_join (value : Expression) (operator : Operator) (operand : Atom)
    (moves : List Move)
    (keeps : ∀ tighter right, moves.head? = some (.apply tighter right) →
      (operator.isAdditive && operand.bare && !tighter.isAdditive) = false) :
    ((Move.apply operator operand :: moves).foldl feed (settled value)).tree =
      (moves.foldl feed (settled (.node value operator.operation operand.tree))).tree := by
  rw [List.foldl_cons, feed, operate_settled, arrive]
  cases bare : operand.bare with
  | false => rfl
  | true =>
    refine tree_foldl_settled _ moves fun tighter right next => ?_
    have kept := keeps tighter right next
    rw [bare, Bool.and_true] at kept
    exact (takes_cons tighter operator value []).trans kept

/-- The machine reads a chain as looking one link ahead does. -/
theorem tree_foldl_feed (value : Expression) (moves : List Move) :
    (moves.foldl feed (settled value)).tree = readChain value moves := by
  fun_induction readChain value moves with
  | case1 value => rfl
  | case2 value other moves inductionHypothesis => exact inductionHypothesis
  | case3 value operator operand tighter right moves ahead inductionHypothesis =>
    rw [← inductionHypothesis]
    simp only [Bool.and_eq_true, Bool.not_eq_true'] at ahead
    obtain ⟨⟨additive, bare⟩, tight⟩ := ahead
    have given : (arrive ((settled value).operate operator) operand).operate tighter =
        [(operand.tree, tighter), (value, operator)] := by
      rw [operate_settled, arrive, if_pos bare, operate, takes_cons, additive, tight]
      rfl
    rw [List.foldl_cons, List.foldl_cons, feed, feed, given, arrive]
    split
    · refine tree_foldl_settled _ moves fun next last _ => ?_
      rw [takes_cons, tight, Bool.false_and]
    · rfl
  | case4 value operator operand tighter right moves kept inductionHypothesis =>
    rw [← inductionHypothesis]
    refine tree_foldl_join value operator operand _ fun next last same => ?_
    obtain ⟨rfl, rfl⟩ := Move.apply.inj (Option.some.inj same)
    simpa using kept
  | case5 value operator operand moves alone inductionHypothesis =>
    rw [← inductionHypothesis]
    refine tree_foldl_join value operator operand moves fun tighter right next => ?_
    obtain ⟨others, rfl⟩ := List.head?_eq_some_iff.mp next
    exact absurd rfl (alone tighter right others)

end Pending

/-! ### Terminals of tokens -/

namespace Token

variable {token : Token}

theorem kind_of_number {value : Float} (same : token.terminal = .number value) :
    token.kind = .number ∧ token.value = value := by
  unfold terminal at same
  split at same <;> simp_all

theorem kind_of_operator {operator : Operator} (same : token.terminal = .operator operator) :
    token.kind = .operator operator := by
  unfold terminal at same
  split at same <;> simp_all

theorem kind_of_opening {bracket : Bracket} (same : token.terminal = .opening bracket) :
    token.kind = .opening bracket := by
  unfold terminal at same
  split at same <;> simp_all

theorem kind_of_closing {bracket : Bracket} (same : token.terminal = .closing bracket) :
    token.kind = .closing bracket := by
  unfold terminal at same
  split at same <;> simp_all

theorem terminal_number (isNumber : token.kind = .number) :
    token.terminal = .number token.value := by
  simp [terminal, isNumber]

theorem terminal_operator {operator : Operator} (operates : token.kind = .operator operator) :
    token.terminal = .operator operator := by
  simp [terminal, operates]

theorem terminal_opening {bracket : Bracket} (opens : token.kind = .opening bracket) :
    token.terminal = .opening bracket := by
  simp [terminal, opens]

theorem terminal_closing {bracket : Bracket} (closes : token.kind = .closing bracket) :
    token.terminal = .closing bracket := by
  simp [terminal, closes]

end Token

/-! ### Over a phrase -/

namespace Reading

/-- The reading behind a value. -/
def behind (groups : List OpenGroup) (pending : Pending) : Reading :=
  ⟨groups, .operator pending.waiting pending.value⟩

section
variable {limit : Int} {finish token : Token} {groups : List OpenGroup} {pending : Pending}

theorem next_behind_operator {operator : Operator} (same : token.terminal = .operator operator) :
    next limit (behind groups pending) token =
      .ok ⟨groups, .operand (pending.operate operator)⟩ :=
  next_operator (Token.kind_of_operator same)

theorem next_behind_closing {group : OpenGroup} (same : token.terminal = .closing group.bracket) :
    next limit (behind (group :: groups) pending) token =
      .ok (behind groups (.settled (group.outside.fill pending.tree))) :=
  next_closing (Token.kind_of_closing same)

end

mutual

/-- Over an operand the machine goes from where an operand is to come to where an operator is. -/
theorem run_operand (limit : Int) (finish : Token) (operand : Operand)
    (groups : List OpenGroup) (waiting : Waiting) (taken rest : List Token)
    (spelled : taken.map Token.terminal = operand.terminals)
    (fits : groups.length + operand.nesting ≤ limit.toNat) :
    run limit finish ⟨groups, .operand waiting⟩ (taken ++ rest) =
      run limit finish (behind groups (Pending.arrive waiting operand.atom)) rest := by
  cases operand with
  | number value =>
    obtain ⟨token, others, rfl, same, none⟩ := List.map_eq_cons_iff.mp spelled
    obtain rfl := List.map_eq_nil_iff.mp none
    obtain ⟨isNumber, rfl⟩ := Token.kind_of_number same
    exact run_cons_ok rest (next_number isNumber)
  | group bracket first links =>
    obtain ⟨opener, others, rfl, opens, inside⟩ := List.map_eq_cons_iff.mp spelled
    obtain ⟨firstTokens, others, rfl, firstSpelled, others'⟩ := List.map_eq_append_iff.mp inside
    obtain ⟨linkTokens, others, rfl, linksSpelled, others'⟩ := List.map_eq_append_iff.mp others'
    obtain ⟨closer, others, rfl, closes, none⟩ := List.map_eq_cons_iff.mp others'
    obtain rfl := List.map_eq_nil_iff.mp none
    simp only [Operand.nesting] at fits
    have room : (groups.length : Int) < limit := by omega
    rw [List.cons_append, run_cons_ok _ (next_opening (Token.kind_of_opening opens) room)]
    rw [List.append_assoc, run_operand limit finish first _ _ firstTokens _ firstSpelled
      (by simp only [List.length_cons]; omega)]
    rw [List.append_assoc, run_links limit finish links _ _ linkTokens _ linksSpelled
      (by simp only [List.length_cons]; omega)]
    rw [List.singleton_append, run_cons_ok _ (next_behind_closing closes), Pending.arrive_nil,
      Pending.tree_foldl_feed]
    rfl

/-- Over links the machine feeds on their moves. -/
theorem run_links (limit : Int) (finish : Token) (links : Links)
    (groups : List OpenGroup) (pending : Pending) (taken rest : List Token)
    (spelled : taken.map Token.terminal = links.terminals)
    (fits : groups.length + links.nesting ≤ limit.toNat) :
    run limit finish (behind groups pending) (taken ++ rest) =
      run limit finish (behind groups (links.moves.foldl Pending.feed pending)) rest := by
  cases links with
  | done =>
    obtain rfl := List.map_eq_nil_iff.mp spelled
    rfl
  | link operator operand further =>
    obtain ⟨token, others, rfl, operates, others'⟩ := List.map_eq_cons_iff.mp spelled
    obtain ⟨operandTokens, others, rfl, operandSpelled, spelled⟩ :=
      List.map_eq_append_iff.mp others'
    simp only [Links.nesting] at fits
    rw [List.cons_append, run_cons_ok _ (next_behind_operator operates)]
    rw [List.append_assoc, run_operand limit finish operand _ _ operandTokens _ operandSpelled
      (by omega)]
    exact run_links limit finish further _ _ others rest spelled (by omega)

end

theorem run_part (limit : Int) (finish : Token) (part : Part) (pending : Pending)
    (taken rest : List Token) (spelled : taken.map Token.terminal = part.terminals)
    (fits : part.nesting ≤ limit.toNat) :
    run limit finish (behind [] pending) (taken ++ rest) =
      run limit finish (behind [] (pending.feed part.move)) rest := by
  cases part with
  | link operator operand =>
    obtain ⟨token, others, rfl, operates, spelled⟩ := List.map_eq_cons_iff.mp spelled
    rw [List.cons_append, run_cons_ok _ (next_behind_operator operates)]
    exact run_operand limit finish operand [] _ others rest spelled
      (by rw [List.length_nil, Nat.zero_add]; exact fits)
  | group bracket first links =>
    obtain ⟨opener, others, rfl, opens, _⟩ := List.map_eq_cons_iff.mp spelled
    have anew := run_operand limit finish (.group bracket first links) [] [] (opener :: others)
      rest spelled (by rw [List.length_nil, Nat.zero_add]; exact fits)
    exact (run_anew (others ++ rest) (Token.kind_of_opening opens)).trans anew

theorem run_parts (limit : Int) (finish : Token) (parts : List Part) (pending : Pending)
    (taken : List Token) (spelled : taken.map Token.terminal = parts.flatMap Part.terminals)
    (fits : ∀ part ∈ parts, part.nesting ≤ limit.toNat) :
    run limit finish (behind [] pending) taken =
      .ok ((parts.map Part.move).foldl Pending.feed pending).tree := by
  induction parts generalizing pending taken with
  | nil =>
    obtain rfl := List.map_eq_nil_iff.mp spelled
    rfl
  | cons part parts inductionHypothesis =>
    rw [List.flatMap_cons] at spelled
    obtain ⟨first, others, rfl, partSpelled, spelled⟩ := List.map_eq_append_iff.mp spelled
    rw [run_part limit finish part pending first others partSpelled
      (fits part List.mem_cons_self)]
    exact inductionHypothesis (pending.feed part.move) others spelled fun other member =>
      fits other (List.mem_cons_of_mem _ member)

/-- The machine reads a line as the tree the line stands for. -/
theorem run_line (limit : Int) (finish : Token) (line : Line) (tokens : List Token)
    (spelled : tokens.map Token.terminal = line.terminals) (fits : line.Fits limit.toNat) :
    run limit finish atOperand tokens = .ok line.tree := by
  obtain ⟨first, others, rfl, firstSpelled, spelled⟩ := List.map_eq_append_iff.mp spelled
  rw [atOperand, run_operand limit finish line.first [] [] first others firstSpelled
    (by simpa using fits.1), run_parts limit finish line.parts _ others spelled fits.2,
    Pending.arrive_nil, Pending.tree_foldl_feed]
  rfl

/-! ### From the tokens to a phrase -/

/-- Tokens begin with an operand that may stand in so many open groups. -/
def BeginWithOperand (limit depth : Nat) (tokens : List Token) : Prop :=
  ∃ (operand : Operand) (taken rest : List Token), tokens = taken ++ rest ∧
    taken.map Token.terminal = operand.terminals ∧ depth + operand.nesting ≤ limit

/-- Tokens begin with links that may stand in so many open groups, and the closer behind them. -/
def BeginWithLinks (bracket : Bracket) (limit depth : Nat) (tokens : List Token) : Prop :=
  ∃ (links : Links) (taken : List Token) (closer : Token) (rest : List Token),
    tokens = taken ++ closer :: rest ∧ taken.map Token.terminal = links.terminals ∧
      closer.terminal = .closing bracket ∧ depth + links.nesting ≤ limit

/-- What is left of the tokens of an accepted run is shorter in every step, and so the phrases ahead
are found by induction on its length. -/
structure Finds (limit : Int) (finish : Token) (length : Nat) : Prop where
  operand : ∀ (groups : List OpenGroup) (waiting : Waiting) (tokens : List Token)
    (tree : Expression), tokens.length < length → groups.length ≤ limit.toNat →
    run limit finish ⟨groups, .operand waiting⟩ tokens = .ok tree →
    BeginWithOperand limit.toNat groups.length tokens
  links : ∀ (group : OpenGroup) (groups : List OpenGroup) (pending : Pending)
    (tokens : List Token) (tree : Expression), tokens.length < length →
    groups.length + 1 ≤ limit.toNat →
    run limit finish (behind (group :: groups) pending) tokens = .ok tree →
    BeginWithLinks group.bracket limit.toNat (groups.length + 1) tokens

/-- An accepted run is at its end or can take its next token. -/
theorem run_ok_cases {limit : Int} {finish : Token} {reading : Reading} {tokens : List Token}
    {tree : Expression} (accepted : reading.run limit finish tokens = .ok tree) :
    tokens = [] ∧ reading.close finish = .ok tree ∨
      ∃ token rest further, tokens = token :: rest ∧ reading.next limit token = .ok further ∧
        further.run limit finish rest = .ok tree := by
  cases tokens with
  | nil => exact .inl ⟨rfl, accepted⟩
  | cons token rest =>
    rw [run_cons] at accepted
    split at accepted
    · simp at accepted
    · next further taken => exact .inr ⟨token, rest, further, rfl, taken, accepted⟩

theorem close_operand_ne_ok {groups : List OpenGroup} {waiting : Waiting} {finish : Token}
    {tree : Expression} : close ⟨groups, .operand waiting⟩ finish ≠ .ok tree := by
  cases groups <;> cases waiting <;> simp [close]

theorem close_group_ne_ok {group : OpenGroup} {groups : List OpenGroup} {stage : Stage}
    {finish : Token} {tree : Expression} : close ⟨group :: groups, stage⟩ finish ≠ .ok tree := by
  match stage with
  | .operand [] | .operand (_ :: _) | .operator _ _ => simp [close]

theorem Finds.operand_succ {limit : Int} {finish : Token} {length : Nat}
    (shorter : Finds limit finish length) (groups : List OpenGroup) (waiting : Waiting)
    (tokens : List Token) (tree : Expression) (bound : tokens.length < length + 1)
    (room : groups.length ≤ limit.toNat)
    (accepted : run limit finish ⟨groups, .operand waiting⟩ tokens = .ok tree) :
    BeginWithOperand limit.toNat groups.length tokens := by
  rcases run_ok_cases accepted with ⟨_, ended⟩ | ⟨token, rest, further, rfl, taken, accepted⟩
  · exact absurd ended close_operand_ne_ok
  rw [List.length_cons] at bound
  rcases next_operand_cases taken with ⟨isNumber, _⟩ | ⟨bracket, opens, below, rfl⟩
  · refine ⟨.number token.value, [token], rest, rfl, ?_, room⟩
    rw [List.map_singleton, Token.terminal_number isNumber, Operand.terminals]
  · have deeper : groups.length + 1 ≤ limit.toNat := by omega
    obtain ⟨first, firstTokens, rest, rfl, firstSpelled, firstFits⟩ :=
      shorter.operand (⟨token, bracket, waiting⟩ :: groups) _ rest tree (by omega) deeper accepted
    rw [run_operand limit finish first _ _ firstTokens rest firstSpelled firstFits] at accepted
    rw [List.length_append] at bound
    obtain ⟨links, linkTokens, closer, rest, rfl, linksSpelled, closes, linksFit⟩ :=
      shorter.links _ _ _ rest tree (by omega) deeper accepted
    refine ⟨.group bracket first links, token :: (firstTokens ++ (linkTokens ++ [closer])), rest,
      by simp, ?_, ?_⟩
    · rw [List.map_cons, List.map_append, List.map_append, List.map_singleton, firstSpelled,
        linksSpelled, closes, Token.terminal_opening opens, Operand.terminals]
    · rw [List.length_cons] at firstFits
      rw [Operand.nesting]
      omega

theorem Finds.links_succ {limit : Int} {finish : Token} {length : Nat}
    (shorter : Finds limit finish length) (group : OpenGroup) (groups : List OpenGroup)
    (pending : Pending) (tokens : List Token) (tree : Expression)
    (bound : tokens.length < length + 1) (room : groups.length + 1 ≤ limit.toNat)
    (accepted : run limit finish (behind (group :: groups) pending) tokens = .ok tree) :
    BeginWithLinks group.bracket limit.toNat (groups.length + 1) tokens := by
  rcases run_ok_cases accepted with ⟨_, ended⟩ | ⟨token, rest, further, rfl, taken, accepted⟩
  · exact absurd ended close_group_ne_ok
  rw [List.length_cons] at bound
  rcases next_operator_cases taken with ⟨operator, operates⟩ | ⟨_, _, same, closes⟩ | ⟨none, _⟩
  · rw [next_behind_operator (Token.terminal_operator operates)] at taken
    obtain rfl := Except.ok.inj taken
    obtain ⟨operand, operandTokens, rest, rfl, operandSpelled, operandFits⟩ :=
      shorter.operand (group :: groups) _ rest tree (by omega) room accepted
    rw [run_operand limit finish operand _ _ operandTokens rest operandSpelled operandFits]
      at accepted
    rw [List.length_append] at bound
    have notLonger : rest.length < length := by omega
    obtain ⟨links, linkTokens, closer, rest, rfl, linksSpelled, closes, linksFit⟩ :=
      shorter.links _ _ _ rest tree notLonger room accepted
    refine ⟨.link operator operand links, token :: (operandTokens ++ linkTokens), closer, rest,
      by simp, ?_, closes, ?_⟩
    · rw [List.map_cons, List.map_append, operandSpelled, linksSpelled,
        Token.terminal_operator operates, Links.terminals]
    · rw [List.length_cons] at operandFits
      rw [Links.nesting]
      omega
  · obtain ⟨rfl, rfl⟩ := List.cons.inj same
    exact ⟨.done, [], token, rest, rfl, rfl, Token.terminal_closing closes, room⟩
  · simp at none

theorem finds (limit : Int) (finish : Token) (length : Nat) : Finds limit finish length := by
  induction length with
  | zero => exact ⟨fun _ _ _ _ bound => absurd bound (Nat.not_lt_zero _),
      fun _ _ _ _ _ bound => absurd bound (Nat.not_lt_zero _)⟩
  | succ length shorter => exact ⟨shorter.operand_succ, shorter.links_succ⟩

/-- An operand is to come at the top level. -/
theorem exists_operand {limit : Int} {finish : Token} {waiting : Waiting} {tokens : List Token}
    {tree : Expression} (accepted : run limit finish ⟨[], .operand waiting⟩ tokens = .ok tree) :
    BeginWithOperand limit.toNat 0 tokens :=
  (finds limit finish (tokens.length + 1)).operand [] waiting tokens tree (Nat.lt_succ_self _)
    (Nat.zero_le _) accepted

/-- Behind a value at the top level a part is to come, if anything is. -/
theorem exists_part {limit : Int} {finish token : Token} {pending : Pending}
    {rest : List Token} {tree : Expression}
    (accepted : run limit finish (behind [] pending) (token :: rest) = .ok tree) :
    ∃ (part : Part) (taken behind : List Token), token :: rest = taken ++ behind ∧
      taken.map Token.terminal = part.terminals ∧ part.nesting ≤ limit.toNat := by
  have all := accepted
  rcases run_ok_cases accepted with ⟨ended, _⟩ | ⟨_, _, further, same, taken, accepted⟩
  · simp at ended
  obtain ⟨rfl, rfl⟩ := List.cons.inj same
  rcases next_operator_cases taken with
    ⟨operator, operates⟩ | ⟨_, _, none, _⟩ | ⟨_, bracket, opens, _⟩
  · rw [next_behind_operator (Token.terminal_operator operates)] at taken
    obtain rfl := Except.ok.inj taken
    obtain ⟨operand, operandTokens, rest, rfl, spelled, fits⟩ := exists_operand accepted
    rw [Nat.zero_add] at fits
    refine ⟨.link operator operand, token :: operandTokens, rest, rfl, ?_, fits⟩
    rw [List.map_cons, spelled, Token.terminal_operator operates, Part.terminals]
  · simp at none
  · rw [behind, run_anew rest opens] at all
    obtain ⟨operand, operandTokens, behind, parts, spelled, fits⟩ := exists_operand all
    rw [Nat.zero_add] at fits
    cases operand with
    | number value =>
      obtain ⟨_, _, rfl, isNumber, _⟩ := List.map_eq_cons_iff.mp spelled
      obtain ⟨rfl, _⟩ := List.cons.inj parts
      exact absurd ((Token.terminal_opening opens).symm.trans isNumber) (by simp)
    | group bracket first links =>
      exact ⟨.group bracket first links, operandTokens, behind, parts, spelled, fits⟩

/-- A part takes a token. -/
theorem part_terminals_ne_nil (part : Part) : part.terminals ≠ [] := by
  cases part <;> simp [Part.terminals, Operand.terminals]

theorem exists_parts {limit : Int} {finish : Token} {tree : Expression} (length : Nat)
    (pending : Pending) (tokens : List Token) (bound : tokens.length ≤ length)
    (accepted : run limit finish (behind [] pending) tokens = .ok tree) :
    ∃ parts : List Part, tokens.map Token.terminal = parts.flatMap Part.terminals ∧
      ∀ part ∈ parts, part.nesting ≤ limit.toNat := by
  induction length generalizing pending tokens with
  | zero =>
    obtain rfl := List.length_eq_zero_iff.mp (Nat.le_zero.mp bound)
    exact ⟨[], rfl, by simp⟩
  | succ length inductionHypothesis =>
    cases tokens with
    | nil => exact ⟨[], rfl, by simp⟩
    | cons token rest =>
      obtain ⟨part, taken, behind, split, spelled, fits⟩ := exists_part accepted
      rw [split, run_part limit finish part pending taken behind spelled fits] at accepted
      have positive : 0 < taken.length := by
        rw [← List.length_map Token.terminal, spelled]
        exact List.length_pos_iff.mpr (part_terminals_ne_nil part)
      rw [split, List.length_append] at bound
      obtain ⟨parts, others, fitOthers⟩ :=
        inductionHypothesis (pending.feed part.move) behind (by omega) accepted
      refine ⟨part :: parts, ?_, ?_⟩
      · rw [split, List.map_append, spelled, others, List.flatMap_cons]
      · intro other member
        cases member with
        | head => exact fits
        | tail _ member => exact fitOthers other member

/-- What the machine accepts is spelled by a line. -/
theorem exists_line {limit : Int} {finish : Token} {tokens : List Token} {tree : Expression}
    (accepted : run limit finish atOperand tokens = .ok tree) :
    ∃ line : Line, tokens.map Token.terminal = line.terminals ∧ line.Fits limit.toNat := by
  obtain ⟨first, taken, rest, rfl, spelled, fits⟩ := exists_operand accepted
  rw [atOperand, run_operand limit finish first [] [] taken rest spelled fits] at accepted
  rw [Nat.zero_add] at fits
  obtain ⟨parts, others, fitOthers⟩ := exists_parts rest.length _ rest (Nat.le_refl _) accepted
  exact ⟨⟨first, parts⟩, by rw [List.map_append, spelled, others, Line.terminals],
    fits, fitOthers⟩

end Reading

/-! ### Sources -/

section
variable {source : String} {limit : Int}

theorem parse_of_line {line : Line}
    (spelled : (words source).map Token.terminal = line.terminals) (fits : line.Fits limit.toNat) :
    parse source limit = .ok line.tree := by
  obtain ⟨finish, _, same⟩ := parse_eq_run source limit
  rw [same]
  exact Reading.run_line limit finish line _ spelled fits

theorem line_of_parse {tree : Expression} (accepted : parse source limit = .ok tree) :
    ∃ line : Line, (words source).map Token.terminal = line.terminals ∧
      line.Fits limit.toNat ∧ line.tree = tree := by
  obtain ⟨finish, _, same⟩ := parse_eq_run source limit
  rw [same] at accepted
  obtain ⟨line, spelled, fits⟩ := Reading.exists_line accepted
  refine ⟨line, spelled, fits, ?_⟩
  rw [Reading.run_line limit finish line _ spelled fits] at accepted
  exact Except.ok.inj accepted

end

/-- A source has a tree if and only if a line of the grammar spells its tokens and the groups of the
line nest no deeper than the limit; and then the tree is the one that the line stands for. -/
theorem parse_eq_ok_iff (source : String) (limit : Int) (tree : Expression) :
    parse source limit = .ok tree ↔
      ∃ line : Line, (words source).map Token.terminal = line.terminals ∧
        line.Fits limit.toNat ∧ line.tree = tree := by
  constructor
  · exact line_of_parse
  · rintro ⟨line, spelled, fits, rfl⟩
    exact parse_of_line spelled fits

end Reckon
