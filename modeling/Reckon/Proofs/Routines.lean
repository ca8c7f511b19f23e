/-
This file takes the reader apart into routines that call one another. Reading
the whole input is a loop that asks for one value after the other; a value is a
group, or an operator and its right operand behind the last value; a group is a
loop again, which asks for a group or for what stands behind the value that it
has so far; and an operator whose right operand is a number hands that number to
a tighter operator behind it first.

A routine that has called another waits in a list of callers until it is handed
a value. The reading of a value one token at a time keeps the same list in
another form: the loops are its open groups, and the operators are those that
wait. So every step leaves the answer of the reader as it was, and it costs
something: it takes a token, or there is less to do before the next one is
taken (`Control.Sound.proceeds`).
-/

import Reckon.Proofs.Calls

namespace Reckon

namespace Parser

/-! ### Routines -/

/-- A routine that waits for a value: the loop over the whole input, the loop of a group, or an
operator behind its left operand. -/
inductive Caller
  | input
  | inside (opener : Token) (bracket : Bracket)
  | behind (left : Expression) (operator : Operator)

/-- What is to be done next: a loop to be gone through once more, a value of some kind to be read,
or a value to be handed to the routine that waits for it. The loop of a group has a value once it
has been gone through. -/
inductive Task
  | input
  | inside (opener : Token) (bracket : Bracket) (value : Option Expression)
  | value
  | group
  | behind (value : Option Expression)
  | operand (left : Expression) (operator : Operator)
  | hand (tree : Expression)

/-- A reader at work: what is to be done, and the routines that wait, the latest one first. -/
structure Control where
  task : Task
  callers : List Caller
  reader : Parser

/-- What a step comes to: a further one, or the answer of the call that began it all. -/
inductive Turn
  | further (control : Control)
  | stop (answer : Except ParseError Expression × Parser)

/-- Whether the next token takes a number away from the operator before it. -/
def gives (reader : Parser) (operator : Operator) : Bool :=
  match reader.peek.kind with
  | .operator next => operator.priority < next.priority
  | _ => false

/-- The end of a group. A group without a value is refused. -/
def close (opener : Token) (callers : List Caller) (reader : Parser) : Option Expression → Turn
  | none => .stop (.error ⟨.emptyGroup, opener⟩, reader)
  | some tree => .further ⟨.hand tree, callers, reader⟩

/-- One step of the routines. -/
def Control.step : Control → Turn
  | ⟨.input, callers, reader⟩ =>
    if reader.token.kind = .finish then
      match reader.last with
      | none => .stop (.error ⟨.emptyInput, reader.token⟩, reader)
      | some tree => .stop (.ok tree, reader)
    else .further ⟨.value, .input :: callers, reader⟩
  | ⟨.inside opener bracket value, callers, reader⟩ =>
    if reader.token.kind = .closing bracket then
      close opener callers { reader with depth := reader.depth - 1 } value
    else if reader.token.kind = .finish then
      .stop (.error ⟨.unclosedGroup bracket, reader.token⟩, reader)
    else if value.isNone && reader.isGroupStart then
      .further ⟨.group, .inside opener bracket :: callers, reader⟩
    else .further ⟨.behind value, .inside opener bracket :: callers, reader⟩
  | ⟨.value, callers, reader⟩ =>
    if reader.isGroupStart then .further ⟨.group, callers, reader⟩
    else .further ⟨.behind reader.last, callers, reader⟩
  | ⟨.group, callers, reader⟩ =>
    match reader.token.kind with
    | .opening bracket =>
      if reader.limit < reader.depth + 1 then
        .stop (.error ⟨.nestedTooDeeply reader.limit, reader.token⟩,
          { reader with depth := reader.depth + 1 })
      else
        .further ⟨.inside reader.token bracket none, callers,
          ({ reader with depth := reader.depth + 1 } : Parser).advance⟩
    | _ => .stop (.error ⟨.notAGroup, reader.token⟩, reader)
  | ⟨.behind none, callers, reader⟩ =>
    if reader.token.kind = .number then
      .further ⟨.hand (.leaf reader.token.value), callers, reader⟩
    else .stop (.error (Reading.refuse .operandExpected reader.token), reader)
  | ⟨.behind (some left), callers, reader⟩ =>
    match reader.token.kind with
    | .operator operator => .further ⟨.operand left operator, callers, reader.advance⟩
    | _ => .stop (.error (Reading.refuse .operatorExpected reader.token), reader)
  | ⟨.operand left operator, callers, reader⟩ =>
    if reader.isGroupStart then .further ⟨.group, .behind left operator :: callers, reader⟩
    else if reader.token.kind = .number then
      if reader.gives operator then
        .further ⟨.behind (some (.leaf reader.token.value)), .behind left operator :: callers,
          reader.advance⟩
      else
        .further ⟨.hand (.node left operator.operation (.leaf reader.token.value)), callers, reader⟩
    else .stop (.error (Reading.refuse .operandExpected reader.token), reader)
  | ⟨.hand tree, [], reader⟩ => .stop (.ok tree, reader)
  | ⟨.hand tree, .behind left operator :: callers, reader⟩ =>
    .further ⟨.hand (.node left operator.operation tree), callers, reader⟩
  | ⟨.hand tree, .inside opener bracket :: callers, reader⟩ =>
    .further ⟨.inside opener bracket (some tree), callers, reader.advance⟩
  | ⟨.hand tree, .input :: callers, reader⟩ =>
    .further ⟨.input, callers, ({ reader with last := some tree } : Parser).advance⟩

/-- A loop is to be gone through once more, or left. -/
def Control.AtLoop (control : Control) : Prop :=
  match control.task with
  | .input | .inside _ _ _ => True
  | _ => False

end Parser

/-- A value can end with the token: it is a number or closes a group. -/
def Token.Completes (token : Token) : Prop :=
  token.kind = .number ∨ ∃ bracket, token.kind = .closing bracket

theorem Token.Completes.ne_finish {token : Token} (completes : token.Completes) :
    token.kind ≠ .finish := by
  rcases completes with number | ⟨bracket, closing⟩
  · exact number ▸ Kind.noConfusion
  · exact closing ▸ Kind.noConfusion

namespace Parser

/-! ### The reading that the callers make up -/

/-- The operators that wait for the value of a call. -/
def waiting : List Caller → Waiting
  | .behind left operator :: callers => (left, operator) :: waiting callers
  | _ => []

/-- The groups whose loops wait. -/
def openGroups : List Caller → List OpenGroup
  | .behind _ _ :: callers => openGroups callers
  | .inside opener bracket :: callers => ⟨opener, bracket, waiting callers⟩ :: openGroups callers
  | _ => []

/-- Whether the loop over the whole input waits. -/
def ofInput : List Caller → Bool
  | [] => false
  | .input :: _ => true
  | _ :: callers => ofInput callers

/-- The answer to reading the whole input. -/
def parseAnswer (reader : Parser) : Except ParseError Expression × Parser :=
  (reader.parse.outcome, reader.parse.parser)

/-- What the value of the last open group comes to: the loop over the whole input goes on with
it. -/
def conclude (callers : List Caller) :
    Except ParseError Expression × Parser → Except ParseError Expression × Parser
  | (.error error, rest) => (.error error, rest)
  | (.ok tree, rest) =>
    if ofInput callers then ({ rest with last := some tree } : Parser).advance.parseAnswer
    else (.ok tree, rest)

/-- A reading goes on behind the current token, unless its value is there. -/
def goOn (reader : Parser) (reading : Reading) : Except ParseError Expression × Parser :=
  match reading.result? reader.peek with
  | some tree => (.ok tree, reader)
  | none => reader.advance.read reading

/-- What the reader answers in the end. -/
def Control.answer : Control → Except ParseError Expression × Parser
  | ⟨.input, _, reader⟩ => reader.parseAnswer
  | ⟨.inside opener bracket value, callers, reader⟩ =>
    conclude callers (reader.read
      ⟨⟨opener, bracket, waiting callers⟩ :: openGroups callers, (Reading.resume value).stage⟩)
  | ⟨.value, callers, reader⟩ => conclude callers reader.readValue
  | ⟨.group, callers, reader⟩ =>
    if reader.isGroupStart then
      conclude callers (reader.read ⟨openGroups callers, .operand (waiting callers)⟩)
    else (.error ⟨.notAGroup, reader.token⟩, reader)
  | ⟨.behind none, callers, reader⟩ =>
    if reader.isGroupStart then (.error (Reading.refuse .operandExpected reader.token), reader)
    else conclude callers (reader.read ⟨openGroups callers, .operand (waiting callers)⟩)
  | ⟨.behind (some left), callers, reader⟩ =>
    conclude callers (reader.read ⟨openGroups callers, .operator (waiting callers) left⟩)
  | ⟨.operand left operator, callers, reader⟩ =>
    conclude callers (reader.read
      ⟨openGroups callers, .operand ((left, operator) :: waiting callers)⟩)
  | ⟨.hand tree, callers, reader⟩ =>
    conclude callers (reader.goOn
      ⟨openGroups callers, .operator [] ((waiting callers).fill tree)⟩)

end Parser

/-! ### One token of a reading, whatever the count -/

namespace Reading

section
variable {groups : List OpenGroup} {token : Token}

/-- The innermost group does not end with the token. -/
def StaysOpen (groups : List OpenGroup) (token : Token) : Prop :=
  ∀ group ∈ groups.head?, token.kind ≠ .closing group.bracket ∧ token.kind ≠ .finish

theorem staysOpen_nil (token : Token) : StaysOpen [] token :=
  fun group member => absurd member (Option.not_mem_none group)

theorem step_operand (limit : Int) (depth : Nat) (waiting : Waiting)
    (stays : waiting = [] → StaysOpen groups token) :
    step limit depth ⟨groups, .operand waiting⟩ token =
      readOperand limit depth groups waiting token := by
  cases waiting with
  | cons entry waiting => rfl
  | nil =>
    cases groups with
    | nil => rfl
    | cons group groups =>
      obtain ⟨notClosing, more⟩ := stays rfl group rfl
      rw [step]
      simp only [if_neg notClosing, if_neg more]

theorem step_operator (limit : Int) (depth : Nat) (waiting : Waiting) (value : Expression)
    (stays : StaysOpen groups token) :
    step limit depth ⟨groups, .operator waiting value⟩ token =
      readOperator depth groups waiting value token := by
  cases groups with
  | nil => rfl
  | cons group groups =>
    obtain ⟨notClosing, more⟩ := stays group rfl
    rw [step]
    simp only [if_neg notClosing, if_neg more]

theorem staysOpen_of_kind (notClosing : ∀ bracket, token.kind ≠ .closing bracket)
    (more : token.kind ≠ .finish) : StaysOpen groups token :=
  fun group _ => ⟨notClosing group.bracket, more⟩

end

end Reading

namespace Parser

section
variable {reader : Parser} {groups : List OpenGroup} {waiting : Waiting} {value : Expression}

theorem read_of_taken {reading further : Reading} {depth : Nat}
    (taken : reading.step reader.limit reader.depth reader.token = (depth, .ok further)) :
    reader.read reading = ({ reader with depth } : Parser).goOn further :=
  read_of_ok taken

/-- Where an operand is to come nothing is complete. -/
theorem goOn_operand (reader : Parser) (groups : List OpenGroup) (waiting : Waiting) :
    reader.goOn ⟨groups, .operand waiting⟩ = reader.advance.read ⟨groups, .operand waiting⟩ := by
  cases groups <;> rfl

/-- In an open group no value is complete. -/
theorem goOn_inside (reader : Parser) (group : OpenGroup) (groups : List OpenGroup)
    (stage : Stage) :
    reader.goOn ⟨group :: groups, stage⟩ = reader.advance.read ⟨group :: groups, stage⟩ := rfl

theorem goOn_complete (reader : Parser) (tree : Expression) :
    reader.goOn ⟨[], .operator [] tree⟩ = (.ok tree, reader) := by
  rw [goOn, Reading.result?]
  cases reader.peek.kind <;> rfl

/-- The next token takes the value away. -/
theorem goOn_taken {operator : Operator} (operates : reader.peek.kind = .operator operator)
    (taken : Reading.takes operator waiting = true) :
    reader.goOn ⟨groups, .operator waiting value⟩ =
      reader.advance.read ⟨groups, .operator waiting value⟩ := by
  cases groups with
  | nil =>
    rw [goOn, Reading.result?, operates]
    simp only [taken, if_true]
  | cons group groups => rfl

theorem read_congr {reading reading' : Reading}
    (same : reading.step reader.limit reader.depth reader.token =
      reading'.step reader.limit reader.depth reader.token) :
    reader.read reading = reader.read reading' := by
  cases stepped : reading'.step reader.limit reader.depth reader.token with
  | mk depth outcome =>
    cases outcome with
    | error error => rw [read_of_error stepped, read_of_error (same.trans stepped)]
    | ok further => rw [read_of_taken stepped, read_of_taken (same.trans stepped)]

/-- Where the next token leaves the value, the operators that wait for it have it. -/
theorem goOn_settled
    (keeps : ∀ operator, reader.peek.kind = .operator operator →
      Reading.takes operator waiting = false) :
    reader.goOn ⟨groups, .operator waiting value⟩ =
      reader.goOn ⟨groups, .operator [] (waiting.fill value)⟩ := by
  cases groups with
  | nil =>
    rw [goOn_complete, goOn, Reading.result?]
    cases kind : reader.peek.kind with
    | operator operator => simp only [keeps operator kind, Bool.false_eq_true, if_false]
    | _ => rfl
  | cons group groups =>
    rw [goOn_inside, goOn_inside]
    refine read_congr ?_
    show Reading.step _ _ _ reader.peek = Reading.step _ _ _ reader.peek
    rw [Reading.step, Reading.step]
    simp only [Reading.readOperator]
    cases kind : reader.peek.kind with
    | operator operator =>
      simp only [keeps operator kind]
      rfl
    | _ => rfl

end

/-! ### One step of the routines -/

/-- What holds of a reader at work. A value of the whole input is not asked for inside of a group. A
number or an operator is asked for where it does not end a group; or else the token is an operator
that takes the number away for which another operator has asked. A value ends with the current
token. -/
def Control.Sound : Control → Prop
  | ⟨.value, callers, _⟩ => openGroups callers = [] ∧ waiting callers = []
  | ⟨.behind none, callers, reader⟩ =>
    waiting callers = [] ∧ Reading.StaysOpen (openGroups callers) reader.token
  | ⟨.behind (some _), callers, reader⟩ =>
    waiting callers = [] ∧ Reading.StaysOpen (openGroups callers) reader.token ∨
      ∃ operator, reader.token.kind = .operator operator ∧
        Reading.takes operator (waiting callers) = true
  | ⟨.hand _, _, reader⟩ => reader.token.Completes
  | _ => True

/-- What is to be done before the next token is taken, at most. -/
def Task.weight : Task → Nat
  | .input => 4
  | .inside _ _ _ | .operand _ _ => 3
  | .value => 2
  | .group | .behind _ => 1
  | .hand _ => 0

/-- A bound on the steps to come. -/
def Control.cost (control : Control) : Nat :=
  4 * control.reader.upcoming.length + control.callers.length + control.task.weight

/-- What a step that goes on leaves as it was, and how far it gets: it stays where it is and is not
at a loop again, or it takes a token that is not the finish. -/
structure Control.Follows (control further : Control) : Prop where
  sound : further.Sound
  answer : further.answer = control.answer
  cheaper : further.cost < control.cost
  forward : further.reader.upcoming = control.reader.upcoming ∧ ¬ further.AtLoop ∨
    control.reader.token.kind ≠ .finish ∧
      control.reader.upcoming = control.reader.token :: further.reader.upcoming

/-- A step stops with the answer or goes on with what is left. -/
def Control.Proceeds (control : Control) : Prop :=
  match control.step with
  | .stop answer => answer = control.answer
  | .further further => control.Follows further

theorem Control.Follows.of_still {control further : Control} (sound : further.Sound)
    (answer : further.answer = control.answer)
    (still : further.reader.upcoming = control.reader.upcoming) (notLoop : ¬ further.AtLoop)
    (lighter : further.callers.length + further.task.weight <
      control.callers.length + control.task.weight) : control.Follows further where
  sound := sound
  answer := answer
  cheaper := by
    rw [cost, cost, still]
    omega
  forward := .inl ⟨still, notLoop⟩

theorem Control.Follows.of_taken {control further : Control} (sound : further.Sound)
    (answer : further.answer = control.answer) (more : control.reader.token.kind ≠ .finish)
    (taken : control.reader.upcoming = control.reader.token :: further.reader.upcoming)
    (heavier : further.callers.length + further.task.weight <
      control.callers.length + control.task.weight + 4) : control.Follows further where
  sound := sound
  answer := answer
  cheaper := by
    rw [cost, cost, taken, List.length_cons]
    omega
  forward := .inr ⟨more, taken⟩

section
variable {callers : List Caller} {reader : Parser}

@[simp] theorem conclude_error (callers : List Caller) (error : ParseError) (rest : Parser) :
    conclude callers (.error error, rest) = (.error error, rest) := rfl

@[simp] theorem conclude_nil (answer : Except ParseError Expression × Parser) :
    conclude [] answer = answer := by
  obtain ⟨error | tree, rest⟩ := answer <;> rfl

@[simp] theorem conclude_behind (callers : List Caller) (left : Expression) (operator : Operator)
    (answer : Except ParseError Expression × Parser) :
    conclude (.behind left operator :: callers) answer = conclude callers answer := by
  obtain ⟨error | tree, rest⟩ := answer <;> rfl

@[simp] theorem conclude_inside (callers : List Caller) (opener : Token) (bracket : Bracket)
    (answer : Except ParseError Expression × Parser) :
    conclude (.inside opener bracket :: callers) answer = conclude callers answer := by
  obtain ⟨error | tree, rest⟩ := answer <;> rfl

theorem parseAnswer_of_finish (finished : reader.token.kind = .finish) :
    reader.parseAnswer = ((Reading.resume reader.last).close reader.token, reader) := by
  rw [parseAnswer, parse_outcome, parser_parse, readToFinish_of_finish finished, answer]

/-- Reading the whole input goes on with its next value. -/
theorem parseAnswer_of_more (more : reader.token.kind ≠ .finish) (callers : List Caller) :
    reader.parseAnswer = conclude (.input :: callers) reader.readValue := by
  rw [parseAnswer, parse_outcome, parser_parse]
  cases outcome : reader.readValue with
  | mk result rest =>
    cases result with
    | error error =>
      rw [readToFinish_of_error more outcome]
      rfl
    | ok tree =>
      rw [readToFinish_of_ok more outcome]
      show _ = ({ rest with last := some tree } : Parser).advance.parseAnswer
      rw [parseAnswer, parse_outcome, parser_parse]

theorem proceeds_input (callers : List Caller) (reader : Parser) :
    Control.Proceeds ⟨.input, callers, reader⟩ := by
  rw [Control.Proceeds, Control.step]
  by_cases finished : reader.token.kind = .finish
  · rw [if_pos finished]
    cases last : reader.last with
    | none =>
      show _ = reader.parseAnswer
      rw [parseAnswer_of_finish finished, last]
      rfl
    | some tree =>
      show _ = reader.parseAnswer
      rw [parseAnswer_of_finish finished, last]
      rfl
  · rw [if_neg finished]
    exact .of_still ⟨rfl, rfl⟩ (parseAnswer_of_more finished callers).symm rfl id
      (by simp only [List.length_cons, Task.weight]; omega)

theorem isGroupStart_eq_false (notOpening : ∀ bracket, reader.token.kind ≠ .opening bracket) :
    reader.isGroupStart = false := by
  rw [Bool.eq_false_iff, Ne, isGroupStart_iff]
  rintro ⟨bracket, opens⟩
  exact notOpening bracket opens

/-- What is neither a number nor the opener of a group is no operand. -/
theorem readOperand_refused {groups : List OpenGroup} {waiting : Waiting}
    (notNumber : reader.token.kind ≠ .number) (noGroup : reader.isGroupStart = false) :
    Reading.readOperand reader.limit reader.depth groups waiting reader.token =
      (reader.depth, .error (Reading.refuse .operandExpected reader.token)) := by
  have notOpening := (isGroupStart_iff reader).not.mp (Bool.eq_false_iff.mp noGroup)
  rw [Reading.readOperand]
  cases kind : reader.token.kind with
  | number => exact absurd kind notNumber
  | opening bracket => exact absurd ⟨bracket, kind⟩ notOpening
  | _ => rfl

theorem proceeds_value (sound : Control.Sound ⟨.value, callers, reader⟩) :
    Control.Proceeds ⟨.value, callers, reader⟩ := by
  obtain ⟨noGroups, noWaiting⟩ := sound
  have stays : Reading.StaysOpen (openGroups callers) reader.token := by
    rw [noGroups]
    exact Reading.staysOpen_nil reader.token
  rw [Control.Proceeds, Control.step]
  cases starts : reader.isGroupStart with
  | true =>
    refine .of_still trivial ?_ rfl id (by simp only [Task.weight]; omega)
    simp only [Control.answer, readValue, readGroup, starts, if_true, noGroups, noWaiting]
    rfl
  | false =>
    cases last : reader.last with
    | none =>
      refine .of_still ⟨noWaiting, stays⟩ ?_ rfl id (by simp only [Task.weight]; omega)
      have noGroup : ¬ reader.isGroupStart = true := Bool.eq_false_iff.mp starts
      simp only [Control.answer, readValue, readExpression, readBehind, starts, last,
        readNumber_eq_read noGroup, noGroups, noWaiting]
      rfl
    | some tree =>
      refine .of_still (.inl ⟨noWaiting, stays⟩) ?_ rfl id (by simp only [Task.weight]; omega)
      simp only [Control.answer, readValue, readExpression, readBehind, starts, last, noGroups,
        noWaiting]
      rfl

theorem proceeds_group (callers : List Caller) (reader : Parser) :
    Control.Proceeds ⟨.group, callers, reader⟩ := by
  rw [Control.Proceeds, Control.step]
  cases kind : reader.token.kind with
  | opening bracket =>
    have starts : reader.isGroupStart = true := (isGroupStart_iff reader).mpr ⟨bracket, kind⟩
    have stays : Reading.StaysOpen (openGroups callers) reader.token :=
      Reading.staysOpen_of_kind (by simp [kind]) (by simp [kind])
    have step := Reading.step_operand reader.limit reader.depth (waiting callers) fun _ => stays
    simp only [Reading.readOperand, kind] at step
    by_cases full : reader.limit < reader.depth + 1
    · rw [if_pos full] at step
      simp only [if_pos full, Control.answer, starts, if_true, read_of_error step, conclude_error]
    · rw [if_neg full] at step
      simp only [if_neg full]
      refine .of_taken trivial ?_ (by simp [kind]) (upcoming_advance (by simp [kind]))
        (by simp only [Task.weight]; omega)
      simp only [Control.answer, starts, if_true, read_of_taken step, goOn_inside]
      rfl
  | _ =>
    have starts : reader.isGroupStart = false := isGroupStart_eq_false (by simp [kind])
    simp [Control.answer, starts]

theorem proceeds_number (sound : Control.Sound ⟨.behind none, callers, reader⟩) :
    Control.Proceeds ⟨.behind none, callers, reader⟩ := by
  obtain ⟨noWaiting, stays⟩ := sound
  have step := Reading.step_operand reader.limit reader.depth (waiting callers) fun _ => stays
  rw [Control.Proceeds, Control.step]
  by_cases isNumber : reader.token.kind = .number
  · have starts : reader.isGroupStart = false := isGroupStart_eq_false (by simp [isNumber])
    simp only [Reading.readOperand, isNumber, noWaiting] at step
    rw [if_pos isNumber]
    refine .of_still (.inl isNumber) ?_ rfl id (by simp only [Task.weight]; omega)
    simp only [Control.answer, starts, noWaiting, read_of_taken step, Bool.false_eq_true, if_false]
    rfl
  · rw [if_neg isNumber]
    cases starts : reader.isGroupStart with
    | true => simp only [Control.answer, starts, if_true]
    | false =>
      have refused : Reading.readOperand reader.limit reader.depth (openGroups callers)
          (waiting callers) reader.token =
          (reader.depth, .error (Reading.refuse .operandExpected reader.token)) :=
        readOperand_refused isNumber starts
      simp [Control.answer, starts, read_of_error (step.trans refused)]

theorem proceeds_operator {left : Expression}
    (sound : Control.Sound ⟨.behind (some left), callers, reader⟩) :
    Control.Proceeds ⟨.behind (some left), callers, reader⟩ := by
  rw [Control.Proceeds, Control.step]
  cases kind : reader.token.kind with
  | operator operator =>
    have stays : Reading.StaysOpen (openGroups callers) reader.token :=
      Reading.staysOpen_of_kind (by simp [kind]) (by simp [kind])
    have step := Reading.step_operator reader.limit reader.depth (waiting callers) left stays
    have taken :
        Reading.readOperator reader.depth (openGroups callers) (waiting callers) left reader.token =
          (reader.depth,
            .ok ⟨openGroups callers, .operand ((left, operator) :: waiting callers)⟩) := by
      simp only [Reading.readOperator, kind]
      rcases sound with ⟨noWaiting, _⟩ | ⟨other, same, takes⟩
      · rw [noWaiting]
        rfl
      · obtain rfl : operator = other := by simpa [kind] using same
        rw [if_pos takes]
    refine .of_taken trivial ?_ (by simp [kind]) (upcoming_advance (by simp [kind]))
      (by simp only [Task.weight]; omega)
    simp only [Control.answer, read_of_taken (step.trans taken), goOn_operand]
  | _ =>
    rcases sound with ⟨_, stays⟩ | ⟨other, same, _⟩
    · have step := Reading.step_operator reader.limit reader.depth (waiting callers) left stays
      simp only [Reading.readOperator, kind] at step
      simp only [Control.answer, read_of_error step, conclude_error]
    · simp [kind] at same

/-- Whether a number is given away is what the reading asks about the next token. -/
theorem gives_iff {operator : Operator} (left : Expression) (waiting : Waiting) :
    reader.gives operator = true ↔ ∃ next, reader.peek.kind = .operator next ∧
      Reading.takes next ((left, operator) :: waiting) = true := by
  rw [gives]
  cases kind : reader.peek.kind <;> simp [Reading.takes]

theorem proceeds_operand (left : Expression) (operator : Operator) (callers : List Caller)
    (reader : Parser) : Control.Proceeds ⟨.operand left operator, callers, reader⟩ := by
  have step : Reading.step reader.limit reader.depth
      ⟨openGroups callers, .operand ((left, operator) :: waiting callers)⟩ reader.token =
      Reading.readOperand reader.limit reader.depth (openGroups callers)
        ((left, operator) :: waiting callers) reader.token :=
    Reading.step_operand _ _ _ (by simp)
  rw [Control.Proceeds, Control.step]
  cases starts : reader.isGroupStart with
  | true =>
    refine .of_still trivial ?_ rfl id
      (by simp only [List.length_cons, Task.weight]; omega)
    simp only [Control.answer, starts, if_true, conclude_behind]
    rfl
  | false =>
    by_cases isNumber : reader.token.kind = .number
    · simp only [Reading.readOperand, isNumber] at step
      simp only [Bool.false_eq_true, if_false, if_pos isNumber]
      by_cases given : reader.gives operator = true
      · obtain ⟨next, operates, taken⟩ := (gives_iff left (waiting callers)).mp given
        rw [if_pos given]
        refine .of_taken (.inr ⟨next, operates, taken⟩) ?_ (by simp [isNumber])
          (upcoming_advance (by simp [isNumber]))
          (by simp only [List.length_cons, Task.weight]; omega)
        simp only [Control.answer, read_of_taken step, goOn_taken operates taken, conclude_behind]
        rfl
      · have keeps : ∀ next, reader.peek.kind = .operator next →
            Reading.takes next ((left, operator) :: waiting callers) = false := by
          intro next operates
          rw [Bool.eq_false_iff]
          exact fun taken =>
            given ((gives_iff left (waiting callers)).mpr ⟨next, operates, taken⟩)
        rw [if_neg given]
        refine .of_still (.inl isNumber) ?_ rfl id (by simp only [Task.weight]; omega)
        simp only [Control.answer, read_of_taken step]
        exact congrArg (conclude callers) (goOn_settled keeps).symm
    · have refused := read_of_error (step.trans (readOperand_refused isNumber starts))
      simp [isNumber, Control.answer, refused]

/-- The group ends, or it is empty. -/
theorem proceeds_inside_closing (opener : Token) {bracket : Bracket} (value : Option Expression)
    (callers : List Caller) (closes : reader.token.kind = .closing bracket) :
    Control.Proceeds ⟨.inside opener bracket value, callers, reader⟩ := by
  rw [Control.Proceeds, Control.step, if_pos closes]
  cases value with
  | none =>
    have step : Reading.step reader.limit reader.depth
        ⟨⟨opener, bracket, waiting callers⟩ :: openGroups callers, .operand []⟩ reader.token =
        (reader.depth - 1, .error ⟨.emptyGroup, opener⟩) := by
      simp only [Reading.step, if_pos closes]
    show _ = conclude callers (reader.read ⟨_, .operand []⟩)
    rw [read_of_error step, conclude_error]
  | some tree =>
    have step : Reading.step reader.limit reader.depth
        ⟨⟨opener, bracket, waiting callers⟩ :: openGroups callers, .operator [] tree⟩
        reader.token = (reader.depth - 1,
          .ok ⟨openGroups callers, .operator [] ((waiting callers).fill tree)⟩) := by
      simp only [Reading.step, if_pos closes]
      rfl
    refine .of_still (.inr ⟨bracket, closes⟩) ?_ rfl id (by simp only [Task.weight]; omega)
    show _ = conclude callers (reader.read ⟨_, .operator [] tree⟩)
    rw [read_of_taken step]
    rfl

/-- The group is not closed. -/
theorem proceeds_inside_finish (opener : Token) (bracket : Bracket) (value : Option Expression)
    (callers : List Caller) (finished : reader.token.kind = .finish) :
    Control.Proceeds ⟨.inside opener bracket value, callers, reader⟩ := by
  have notClosing : reader.token.kind ≠ .closing bracket := finished ▸ Kind.noConfusion
  have step : Reading.step reader.limit reader.depth
      ⟨⟨opener, bracket, waiting callers⟩ :: openGroups callers, (Reading.resume value).stage⟩
      reader.token = (reader.depth, .error ⟨.unclosedGroup bracket, reader.token⟩) := by
    cases value <;> simp only [Reading.step, Reading.resume, Reading.atOperand, Reading.after,
      if_neg notClosing, if_pos finished]
  rw [Control.Proceeds, Control.step, if_neg notClosing, if_pos finished]
  show _ = conclude callers (reader.read _)
  rw [read_of_error step, conclude_error]

/-- The loop asks for a group, or for what stands behind its value. -/
theorem proceeds_inside_more (opener : Token) {bracket : Bracket} (value : Option Expression)
    (callers : List Caller) (notClosing : reader.token.kind ≠ .closing bracket)
    (more : reader.token.kind ≠ .finish) :
    Control.Proceeds ⟨.inside opener bracket value, callers, reader⟩ := by
  have stays :
      Reading.StaysOpen (openGroups (.inside opener bracket :: callers)) reader.token := by
    intro group same
    obtain rfl := Option.some.inj same
    exact ⟨notClosing, more⟩
  rw [Control.Proceeds, Control.step, if_neg notClosing, if_neg more]
  cases value with
  | none =>
    cases starts : reader.isGroupStart with
    | true =>
      refine .of_still trivial ?_ rfl id (by simp only [List.length_cons, Task.weight]; omega)
      simp only [Control.answer, starts, if_true, conclude_inside]
      rfl
    | false =>
      refine .of_still ⟨rfl, stays⟩ ?_ rfl id
        (by simp only [List.length_cons, Task.weight]; omega)
      simp only [Control.answer, starts, conclude_inside]
      rfl
  | some tree =>
    refine .of_still (.inl ⟨rfl, stays⟩) ?_ rfl id
      (by simp only [List.length_cons, Task.weight]; omega)
    simp only [Control.answer, conclude_inside]
    rfl

theorem proceeds_inside (opener : Token) (bracket : Bracket) (value : Option Expression)
    (callers : List Caller) (reader : Parser) :
    Control.Proceeds ⟨.inside opener bracket value, callers, reader⟩ := by
  by_cases closes : reader.token.kind = .closing bracket
  · exact proceeds_inside_closing opener value callers closes
  · by_cases finished : reader.token.kind = .finish
    · exact proceeds_inside_finish opener bracket value callers finished
    · exact proceeds_inside_more opener value callers closes finished

theorem proceeds_hand {tree : Expression} (sound : Control.Sound ⟨.hand tree, callers, reader⟩) :
    Control.Proceeds ⟨.hand tree, callers, reader⟩ := by
  have more : reader.token.kind ≠ .finish := Token.Completes.ne_finish sound
  cases callers with
  | nil =>
    show _ = conclude [] (reader.goOn ⟨[], .operator [] tree⟩)
    rw [goOn_complete, conclude_nil]
  | cons caller callers =>
    cases caller with
    | behind left operator =>
      refine .of_still sound ?_ rfl id (by simp only [List.length_cons, Task.weight]; omega)
      simp only [Control.answer, conclude_behind]
      rfl
    | inside opener bracket =>
      refine .of_taken trivial ?_ more (upcoming_advance more)
        (by simp only [List.length_cons, Task.weight]; omega)
      simp only [Control.answer, conclude_inside]
      rfl
    | input =>
      refine .of_taken trivial ?_ more (upcoming_advance more)
        (by simp only [List.length_cons, Task.weight]; omega)
      show _ = conclude (.input :: callers) (reader.goOn ⟨[], .operator [] tree⟩)
      rw [goOn_complete]
      rfl

/-- Every step of a reader at work proceeds. -/
theorem Control.Sound.proceeds {control : Control} (sound : control.Sound) :
    control.Proceeds := by
  obtain ⟨task, callers, reader⟩ := control
  cases task with
  | input => exact proceeds_input callers reader
  | inside opener bracket value => exact proceeds_inside opener bracket value callers reader
  | value => exact proceeds_value sound
  | group => exact proceeds_group callers reader
  | behind value =>
    cases value with
    | none => exact proceeds_number sound
    | some left => exact proceeds_operator sound
  | operand left operator => exact proceeds_operand left operator callers reader
  | hand tree => exact proceeds_hand sound

end

end Parser

end Reckon
