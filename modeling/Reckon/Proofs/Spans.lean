/-
This file says which tokens a value of the reader takes. They are the phrase of
an operand, or behind a value on the left an operator with its right operand and
what it has given a number to, and the current token is the last of them when
the value is there.

Over a phrase the reader comes from one place of a reading to another, and asks
at each token whether its value is there. `read_operand` and `read_links` go
over the tokens and find the phrase on the way, so neither a run to the end of
the input nor a limit has part in it: only the tokens of the value are looked
at.
-/

import Reckon.Proofs.Routines
import Reckon.Proofs.Yield

namespace Reckon

/-! ### What follows a token that is read -/

namespace Reading

section
variable {limit : Int} {depth depth' : Nat} {groups : List OpenGroup} {waiting : Waiting}
  {token : Token} {further : Reading}

/-- An operand begins with a number, which is all of it, or with the opener of a group. -/
theorem step_operand_cases
    (taken : step limit depth ⟨groups, .operand waiting⟩ token = (depth', .ok further)) :
    token.kind = .number ∧
        further = behind groups (.arrive waiting (Operand.number token.value).atom) ∨
      ∃ bracket, token.kind = .opening bracket ∧
        further = ⟨⟨token, bracket, waiting⟩ :: groups, .operand []⟩ := by
  cases steps_of_eq taken with
  | number isNumber => exact .inl ⟨isNumber, rfl⟩
  | opening opens _ => exact .inr ⟨_, opens, rfl⟩

/-- Behind a value there is an operator or, in a group, its closer. -/
theorem step_behind_cases {pending : Pending}
    (taken : step limit depth (behind groups pending) token = (depth', .ok further)) :
    (∃ operator, token.kind = .operator operator ∧
        further = ⟨groups, .operand (pending.operate operator)⟩) ∨
      ∃ group outer, groups = group :: outer ∧ token.kind = .closing group.bracket ∧
        further = behind outer (.settled (group.outside.fill pending.tree)) := by
  cases steps_of_eq taken with
  | operator operates => exact .inl ⟨_, operates, rfl⟩
  | closing closes => exact .inr ⟨_, _, rfl, closes, rfl⟩

end

end Reading

namespace Parser

/-! ### Tokens that are passed -/

/-- From one reader to the other there are tokens of these terminals, the last of which is the
current token of the second. -/
structure Passes (reader : Parser) (terminals : List Terminal) (rest : Parser) : Prop where
  more : rest.token.kind ≠ .finish
  tokens : ∃ earlier, reader.upcoming = earlier ++ rest.upcoming ∧
    (earlier ++ [rest.token]).map Token.terminal = terminals

section
variable {reader rest onward : Parser} {terminals others : List Terminal}

/-- The current token, whatever the count of open groups comes to. -/
theorem Passes.single {terminal : Terminal} (more : reader.token.kind ≠ .finish)
    (same : reader.token.terminal = terminal) (depth : Nat) :
    reader.Passes [terminal] { reader with depth } where
  more := more
  tokens := ⟨[], rfl, congrArg ([·]) same⟩

theorem Passes.append (passed : reader.Passes terminals rest)
    (further : rest.advance.Passes others onward) :
    reader.Passes (terminals ++ others) onward where
  more := further.more
  tokens := by
    obtain ⟨first, ahead, spelled⟩ := passed.tokens
    obtain ⟨second, aheadThen, spelledThen⟩ := further.tokens
    refine ⟨first ++ rest.token :: second, ?_, ?_⟩
    · rw [ahead, upcoming_advance passed.more, aheadThen, List.append_assoc, List.cons_append]
    · rw [← spelled, ← spelledThen, ← List.map_append]
      simp

theorem Passes.not_longer (passed : reader.Passes terminals rest) :
    rest.upcoming.length ≤ reader.upcoming.length := by
  obtain ⟨earlier, ahead, _⟩ := passed.tokens
  rw [ahead, List.length_append]
  exact Nat.le_add_left _ _

theorem length_upcoming_advance (more : reader.token.kind ≠ .finish) :
    reader.advance.upcoming.length < reader.upcoming.length := by
  rw [upcoming_advance more, List.length_cons]
  exact Nat.lt_succ_self _

/-- What is passed is no longer ahead. -/
theorem Passes.shorter (passed : reader.Passes terminals rest) :
    rest.advance.upcoming.length < reader.upcoming.length :=
  Nat.lt_of_lt_of_le (length_upcoming_advance passed.more) passed.not_longer

/-- Where the terminals end with a complete value, so does the current token. -/
theorem Passes.completes (passed : reader.Passes terminals rest) (ends : EndWithValue terminals) :
    rest.token.Completes := by
  obtain ⟨earlier, _, rfl⟩ := passed.tokens
  obtain ⟨last, isLast, value⟩ := ends
  rw [List.map_append, List.map_singleton, List.getLast?_concat] at isLast
  obtain rfl := Option.some.inj isLast
  cases kind : rest.token.kind with
  | number => exact .inl kind
  | closing bracket => exact .inr ⟨bracket, kind⟩
  | _ => simp [Token.terminal, kind, Terminal.EndsValue] at value

end

/-! ### Over a phrase -/

theorem exists_step_of_read {reader rest : Parser} {reading : Reading} {tree : Expression}
    (outcome : reader.read reading = (.ok tree, rest)) :
    ∃ depth further, reading.step reader.limit reader.depth reader.token = (depth, .ok further) ∧
      ({ reader with depth } : Parser).goOn further = (.ok tree, rest) := by
  cases stepped : reading.step reader.limit reader.depth reader.token with
  | mk depth result =>
    cases result with
    | error error => simp [read_of_error stepped] at outcome
    | ok further => exact ⟨depth, further, rfl, (read_of_taken stepped).symm.trans outcome⟩

theorem goOn_behind_inside (reader : Parser) (group : OpenGroup) (groups : List OpenGroup)
    (pending : Pending) :
    reader.goOn (.behind (group :: groups) pending) =
      reader.advance.read (.behind (group :: groups) pending) := rfl

mutual

/-- Where an operand is to come and a value is read, there is an operand, and the reading goes on
behind it. The recursion is on the tokens ahead, of which every phrase takes some. -/
theorem read_operand {reader rest : Parser} {groups : List OpenGroup} {waiting : Waiting}
    {tree : Expression} (outcome : reader.read ⟨groups, .operand waiting⟩ = (.ok tree, rest)) :
    ∃ (operand : Operand) (behind : Parser), reader.Passes operand.terminals behind ∧
      behind.goOn (.behind groups (.arrive waiting operand.atom)) = (.ok tree, rest) := by
  obtain ⟨depth, further, taken, outcome⟩ := exists_step_of_read outcome
  have more := kind_ne_finish_of_ok taken
  rcases Reading.step_operand_cases taken with ⟨isNumber, rfl⟩ | ⟨bracket, opens, rfl⟩
  · have passed := Passes.single more (Token.terminal_number isNumber) depth
    refine ⟨.number reader.token.value, _, ?_, outcome⟩
    rwa [Operand.terminals]
  · have opener := Passes.single more (Token.terminal_opening opens) depth
    have ahead := opener.shorter
    rw [goOn_inside] at outcome
    obtain ⟨first, inside, passedFirst, outcome⟩ := read_operand outcome
    have shorter := passedFirst.shorter
    rw [goOn_behind_inside, Pending.arrive_nil] at outcome
    obtain ⟨links, behind, passedLinks, outcome⟩ := read_links outcome
    rw [Pending.tree_foldl_feed] at outcome
    refine ⟨.group bracket first links, behind, ?_, outcome⟩
    rw [Operand.terminals]
    exact opener.append (passedFirst.append passedLinks)
termination_by reader.upcoming.length

/-- In a group and behind a value there are links and the closer of the group, and the reading goes
on behind the group. -/
theorem read_links {reader rest : Parser} {group : OpenGroup} {groups : List OpenGroup}
    {pending : Pending} {tree : Expression}
    (outcome : reader.read (.behind (group :: groups) pending) = (.ok tree, rest)) :
    ∃ (links : Links) (behind : Parser),
      reader.Passes (links.terminals ++ [.closing group.bracket]) behind ∧
      behind.goOn (.behind groups (.settled (group.outside.fill
        (links.moves.foldl Pending.feed pending).tree))) = (.ok tree, rest) := by
  obtain ⟨depth, further, taken, outcome⟩ := exists_step_of_read outcome
  have more := kind_ne_finish_of_ok taken
  rcases Reading.step_behind_cases taken with
    ⟨operator, operates, rfl⟩ | ⟨_, _, same, closes, rfl⟩
  · have sign := Passes.single more (Token.terminal_operator operates) depth
    have ahead := sign.shorter
    rw [goOn_inside] at outcome
    obtain ⟨operand, inside, passedOperand, outcome⟩ := read_operand outcome
    have shorter := passedOperand.shorter
    rw [goOn_behind_inside] at outcome
    obtain ⟨links, behind, passedLinks, outcome⟩ := read_links outcome
    refine ⟨.link operator operand links, behind, ?_, outcome⟩
    rw [Links.terminals, List.cons_append, List.append_assoc]
    exact sign.append (passedOperand.append passedLinks)
  · obtain ⟨rfl, rfl⟩ := List.cons.inj same
    refine ⟨.done, _, ?_, outcome⟩
    rw [Links.terminals]
    exact .single more (Token.terminal_closing closes) depth
termination_by reader.upcoming.length

end

/-- At the top level and behind a value there is a link. -/
theorem read_link {reader rest : Parser} {pending : Pending} {tree : Expression}
    (outcome : reader.read (.behind [] pending) = (.ok tree, rest)) :
    ∃ (operator : Operator) (operand : Operand) (behind : Parser),
      reader.Passes (.operator operator :: operand.terminals) behind ∧
      behind.goOn (.behind [] (pending.feed (.apply operator operand.atom))) =
        (.ok tree, rest) := by
  obtain ⟨depth, further, taken, outcome⟩ := exists_step_of_read outcome
  rcases Reading.step_behind_cases taken with ⟨operator, operates, rfl⟩ | ⟨_, _, none, _⟩
  · have sign := Passes.single (kind_ne_finish_of_ok taken) (Token.terminal_operator operates) depth
    rw [goOn_operand] at outcome
    obtain ⟨operand, behind, passed, outcome⟩ := read_operand outcome
    exact ⟨operator, operand, behind, sign.append passed, outcome⟩
  · simp at none

/-- A value goes on with links for as long as the next operator takes a part of it. -/
theorem Passes.links {origin reader rest : Parser} {terminals : List Terminal} {pending : Pending}
    {tree : Expression} (passed : origin.Passes terminals reader)
    (outcome : reader.goOn (.behind [] pending) = (.ok tree, rest)) :
    ∃ links : Links, tree = (links.moves.foldl Pending.feed pending).tree ∧
      origin.Passes (terminals ++ links.terminals) rest := by
  rw [goOn] at outcome
  split at outcome
  · next value complete =>
    obtain ⟨rfl, rfl⟩ : value = tree ∧ reader = rest := by simpa using outcome
    obtain ⟨waiting, operand, same, rfl, _⟩ := Reading.result?_eq_some complete
    obtain ⟨rfl, rfl⟩ : pending.waiting = waiting ∧ pending.value = operand := by
      simpa [Reading.behind] using same
    refine ⟨.done, by rw [Links.moves]; rfl, ?_⟩
    rwa [Links.terminals, List.append_nil]
  · obtain ⟨operator, operand, behind, passedLink, outcome⟩ := read_link outcome
    have shorter := Nat.lt_of_le_of_lt passedLink.not_longer (length_upcoming_advance passed.more)
    obtain ⟨links, rfl, passedAll⟩ := (passed.append passedLink).links outcome
    refine ⟨.link operator operand links, by rw [Links.moves]; rfl, ?_⟩
    rw [Links.terminals]
    simpa using passedAll
termination_by reader.upcoming.length

/-! ### One value -/

/-- What the terminals of a value are, behind a value on their left or none, and which tree they
make. -/
inductive Makes : Option Expression → List Terminal → Expression → Prop
  | operand (operand : Operand) : Makes none operand.terminals operand.tree
  | links (left : Expression) (operator : Operator) (operand : Operand) (rest : Links) :
    Makes (some left) (Links.link operator operand rest).terminals
      (readChain left (Links.link operator operand rest).moves)

theorem Makes.endWithValue {left : Option Expression} {terminals : List Terminal}
    {tree : Expression} (makes : Makes left terminals tree) : EndWithValue terminals := by
  cases makes with
  | operand operand => exact operand.unbroken.2
  | links left operator operand rest =>
    have link : Unbroken (.operator operator :: operand.terminals) ∧
        EndWithValue (.operator operator :: operand.terminals) :=
      ⟨operand.unbroken.1.cons id, operand.unbroken.2.append [.operator operator]⟩
    have all := (rest.unbroken_append _ link).2
    rwa [List.cons_append, ← Links.terminals] at all

/-- The value that a call has read, and the reader behind it: from the token that was the current
one the tokens up to the current one are those of the value. -/
structure Spans (reader : Parser) (left : Option Expression) (tree : Expression) (rest : Parser) :
    Prop where
  read : ∃ terminals, Makes left terminals tree ∧ reader.Passes terminals rest
  completes : rest.token.Completes

section
variable {reader rest : Parser} {tree : Expression}

theorem Passes.spans {left : Option Expression} {terminals : List Terminal}
    (passed : reader.Passes terminals rest) (makes : Makes left terminals tree) :
    Spans reader left tree rest :=
  ⟨⟨terminals, makes, passed⟩, passed.completes makes.endWithValue⟩

theorem readGroup_spans (outcome : reader.readGroup = (.ok tree, rest)) :
    Spans reader none tree rest := by
  rw [readGroup] at outcome
  split at outcome
  · obtain ⟨operand, behind, passed, outcome⟩ := read_operand outcome
    rw [Pending.arrive_nil] at outcome
    have same := (goOn_complete behind operand.tree).symm.trans outcome
    obtain ⟨rfl, rfl⟩ : operand.tree = tree ∧ behind = rest := by simpa using same
    exact passed.spans (.operand operand)
  · simp at outcome

theorem readNumber_spans (outcome : reader.readNumber = (.ok tree, rest)) :
    Spans reader none tree rest := by
  rw [readNumber] at outcome
  split at outcome
  · next isNumber =>
    obtain ⟨rfl, rfl⟩ : .leaf reader.token.value = tree ∧ reader = rest := by simpa using outcome
    have passed := Passes.single (by simp [isNumber]) (Token.terminal_number isNumber) reader.depth
    have makes := Makes.operand (.number reader.token.value)
    rw [Operand.terminals] at makes
    exact passed.spans makes
  · simp at outcome

theorem readBehind_spans {left : Option Expression}
    (outcome : reader.readBehind left = (.ok tree, rest)) : Spans reader left tree rest := by
  cases left with
  | none => exact readNumber_spans outcome
  | some left =>
    have outcome : reader.read (.behind [] (.settled left)) = (.ok tree, rest) := outcome
    obtain ⟨operator, operand, behind, passed, outcome⟩ := read_link outcome
    obtain ⟨links, rfl, passed⟩ := passed.links outcome
    have makes := Makes.links left operator operand links
    rw [← Pending.tree_foldl_feed, Links.terminals, Links.moves] at makes
    exact passed.spans makes

/-- The value on the left of the next value at the top level. A group has none. -/
def left (reader : Parser) : Option Expression :=
  if reader.isGroupStart then none else reader.last

theorem readValue_spans (outcome : reader.readValue = (.ok tree, rest)) :
    Spans reader reader.left tree rest := by
  rw [readValue] at outcome
  rw [left]
  by_cases starts : reader.isGroupStart = true
  · rw [if_pos starts] at outcome ⊢
    exact readGroup_spans outcome
  · rw [if_neg starts] at outcome ⊢
    exact readBehind_spans outcome

end

end Parser

end Reckon
