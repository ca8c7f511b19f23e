/-
This file says what the reader of expressions answers as a function of the
list of tokens. The reader itself holds a place in the source and a window of
two tokens, returns to its outer loop with every complete value, and counts
open groups in a counter. None of that can be seen in its answer: the answer is
that of a machine that takes one token after the other, whose only state is a
reading.

Within an expression the machine does what a reading does. It differs at the
top level, where an opener behind a complete value starts a new value and the
finish is looked at. `parse_eq_run` is the agreement of the two.
-/

import Reckon.Parser

namespace Reckon

/-- The tokens of a source without the finish. -/
def words (source : String) : List Token :=
  (tokens source).dropLast

/-! ### The machine -/

namespace Reading

/-- The reading after one more token at the top level. Behind a complete value an opener starts
anew. -/
def next (limit : Int) (reading : Reading) (token : Token) : Except ParseError Reading :=
  match reading, token.kind with
  | ⟨[], .operator _ _⟩, .opening _ => (readOperand limit 0 [] [] token).2
  | _, _ => (reading.step limit reading.groups.length token).2

/-- What a reading comes to when the finish follows. -/
def close (reading : Reading) (finish : Token) : Except ParseError Expression :=
  match reading.groups, reading.stage with
  | [], .operand [] => .error ⟨.emptyInput, finish⟩
  | [], .operator waiting value => .ok (waiting.fill value)
  | _, .operand (_ :: _) => .error ⟨.operandExpected, finish⟩
  | group :: _, _ => .error ⟨.unclosedGroup group.bracket, finish⟩

/-- What a reading comes to over the tokens to come and the finish behind them. -/
def run (limit : Int) (finish : Token) (reading : Reading) :
    List Token → Except ParseError Expression
  | [] => reading.close finish
  | token :: rest =>
    match reading.next limit token with
    | .error error => .error error
    | .ok further => further.run limit finish rest

/-- Where the machine stands when the reader is between two values. -/
def resume : Option Expression → Reading
  | none => atOperand
  | some value => after value

theorem run_cons (limit : Int) (finish : Token) (reading : Reading) (token : Token)
    (rest : List Token) :
    reading.run limit finish (token :: rest) =
      match reading.next limit token with
      | .error error => .error error
      | .ok further => further.run limit finish rest := rfl

theorem run_cons_ok {limit : Int} {finish : Token} {reading further : Reading} {token : Token}
    (rest : List Token) (taken : reading.next limit token = .ok further) :
    reading.run limit finish (token :: rest) = further.run limit finish rest := by
  rw [run_cons, taken]

theorem run_cons_error {limit : Int} {finish : Token} {reading : Reading} {token : Token}
    {error : ParseError} (rest : List Token) (refused : reading.next limit token = .error error) :
    reading.run limit finish (token :: rest) = .error error := by
  rw [run_cons, refused]

/-! ### One token -/

section
variable {limit : Int} {groups : List OpenGroup} {waiting : Waiting} {value : Expression}
  {token : Token}

theorem next_number (isNumber : token.kind = .number) :
    next limit ⟨groups, .operand waiting⟩ token =
      .ok ⟨groups, .operator waiting (.leaf token.value)⟩ := by
  cases groups <;> cases waiting <;> simp [next, step, readOperand, isNumber]

theorem next_opening {bracket : Bracket} (opens : token.kind = .opening bracket)
    (room : (groups.length : Int) < limit) :
    next limit ⟨groups, .operand waiting⟩ token =
      .ok ⟨⟨token, bracket, waiting⟩ :: groups, .operand []⟩ := by
  have operand : (readOperand limit groups.length groups waiting token).2 =
      .ok ⟨⟨token, bracket, waiting⟩ :: groups, .operand []⟩ := by
    rw [readOperand, opens]
    exact congrArg Prod.snd (if_neg (by omega))
  cases groups <;> cases waiting <;> simpa [next, step, opens] using operand

/-- An opener behind a complete value is read as if there were no value. -/
theorem next_anew {bracket : Bracket} (opens : token.kind = .opening bracket) :
    next limit ⟨[], .operator waiting value⟩ token = next limit atOperand token := by
  simp [next, opens, atOperand, step]

theorem next_operator {operator : Operator} (operates : token.kind = .operator operator) :
    next limit ⟨groups, .operator waiting value⟩ token =
      .ok ⟨groups, .operand
        (if takes operator waiting then (value, operator) :: waiting
        else [(waiting.fill value, operator)])⟩ := by
  have operand : (readOperator groups.length groups waiting value token).2 =
      .ok ⟨groups, .operand
        (if takes operator waiting then (value, operator) :: waiting
        else [(waiting.fill value, operator)])⟩ := by
    simp only [readOperator, operates]
    split <;> rfl
  cases groups <;> simpa [next, step, operates] using operand

theorem next_closing {group : OpenGroup} (closes : token.kind = .closing group.bracket) :
    next limit ⟨group :: groups, .operator waiting value⟩ token =
      .ok ⟨groups, .operator [] (group.outside.fill (waiting.fill value))⟩ := by
  simp [next, step, closes]

theorem run_anew {finish : Token} {bracket : Bracket} (rest : List Token)
    (opens : token.kind = .opening bracket) :
    run limit finish ⟨[], .operator waiting value⟩ (token :: rest) =
      run limit finish atOperand (token :: rest) := by
  rw [run_cons, run_cons, next_anew opens]

/-- The machine takes the step of its reading, or behind a complete value, where an opener starts
anew, the first step of another. -/
theorem next_cases {reading : Reading} {outcome : Except ParseError Reading}
    (same : reading.next limit token = outcome) :
    (∃ depth, Steps limit reading.groups.length token reading (depth, outcome)) ∨
      ∃ waiting value bracket depth, reading = ⟨[], .operator waiting value⟩ ∧
        token.kind = .opening bracket ∧ Steps limit 0 token atOperand (depth, outcome) := by
  subst same
  obtain ⟨groups, stage⟩ := reading
  match groups, stage with
  | [], .operand _ => exact .inl ⟨_, steps_of_eq rfl⟩
  | _ :: _, _ => exact .inl ⟨_, steps_of_eq rfl⟩
  | [], .operator waiting value =>
    cases kind : token.kind with
    | opening bracket =>
      rw [next_anew kind]
      exact .inr ⟨waiting, value, bracket, _, rfl, rfl, steps_of_eq rfl⟩
    | _ =>
      simp only [next, kind]
      exact .inl ⟨_, steps_of_eq rfl⟩

/-- All that can follow where an operand is to come. -/
theorem next_operand_cases {further : Reading}
    (taken : next limit ⟨groups, .operand waiting⟩ token = .ok further) :
    token.kind = .number ∧ further = ⟨groups, .operator waiting (.leaf token.value)⟩ ∨
      ∃ bracket, token.kind = .opening bracket ∧ (groups.length : Int) < limit ∧
        further = ⟨⟨token, bracket, waiting⟩ :: groups, .operand []⟩ := by
  rcases next_cases taken with ⟨_, steps⟩ | ⟨_, _, _, _, behind, _⟩
  · cases steps with
    | number isNumber => exact .inl ⟨isNumber, rfl⟩
    | opening opens room => exact .inr ⟨_, opens, room, rfl⟩
  · simp at behind

/-- All that can follow where an operator is to come. -/
theorem next_operator_cases {further : Reading}
    (taken : next limit ⟨groups, .operator waiting value⟩ token = .ok further) :
    (∃ operator, token.kind = .operator operator) ∨
      (∃ group outer, groups = group :: outer ∧ token.kind = .closing group.bracket) ∨
      (groups = [] ∧ ∃ bracket, token.kind = .opening bracket ∧ 0 < limit) := by
  rcases next_cases taken with ⟨_, steps⟩ | ⟨_, _, bracket, _, behind, opens, steps⟩
  · cases steps with
    | operator operates => exact .inl ⟨_, operates⟩
    | closing closes => exact .inr (.inl ⟨_, _, rfl, closes⟩)
  · obtain ⟨rfl, _⟩ := mk.inj behind
    cases steps with
    | number isNumber => simp [isNumber] at opens
    | opening _ room => exact .inr (.inr ⟨rfl, bracket, opens, room⟩)

end

/-! ### Open groups are counted right -/

/-- The counter of a reading that has counted its own groups stays right. -/
theorem step_depth {limit : Int} {depth : Nat} {reading further : Reading} {token : Token}
    (taken : reading.step limit reading.groups.length token = (depth, .ok further)) :
    depth = further.groups.length := by
  cases steps_of_eq taken with
  | number _ | opening _ _ | operator _ | closing _ => rfl

/-- After a token something has been read. -/
theorem step_ne_atOperand {limit : Int} {depth depth' : Nat} {reading further : Reading}
    {token : Token} (taken : reading.step limit depth token = (depth', .ok further)) :
    further ≠ atOperand := by
  cases steps_of_eq taken with
  | number _ | opening _ _ | closing _ => simp [atOperand]
  | operator _ => split <;> simp [atOperand]

end Reading

/-! ### The tokens ahead of the reader -/

theorem Lexer.readAll_eq (lexer : Lexer) :
    lexer.readAll.1 =
      if lexer.next.1.kind = .finish then [lexer.next.1]
      else lexer.next.1 :: lexer.next.2.readAll.1 := by
  rw [Lexer.readAll]
  split <;> rfl

/-- A token stream ends with its only finish. -/
structure Finished (stream words : List Token) (finish : Token) : Prop where
  parts : stream = words ++ [finish]
  kind : finish.kind = .finish
  others : ∀ word ∈ words, word.kind ≠ .finish

theorem Finished.cons {stream words : List Token} {finish word : Token}
    (finished : Finished stream words finish) (more : word.kind ≠ .finish) :
    Finished (word :: stream) (word :: words) finish where
  parts := by rw [finished.parts, List.cons_append]
  kind := finished.kind
  others := by
    intro other member
    cases member with
    | head => exact more
    | tail _ member => exact finished.others other member

theorem Lexer.readAll_finished (lexer : Lexer) :
    ∃ words finish, Finished lexer.readAll.1 words finish := by
  fun_induction Lexer.readAll lexer with
  | case1 lexer found finished => exact ⟨[], found.1, rfl, finished, by simp⟩
  | case2 lexer found more others inductionHypothesis =>
    obtain ⟨words, finish, finished⟩ := inductionHypothesis
    exact ⟨found.1 :: words, finish, finished.cons more⟩

theorem tokens_finished (source : String) :
    ∃ finish, Finished (tokens source) (words source) finish := by
  obtain ⟨ahead, finish, finished⟩ := (Lexer.start source).readAll_finished
  refine ⟨finish, ?_, finished.kind, ?_⟩
  · rw [words, tokens, finished.parts, List.dropLast_concat]
  · rw [words, tokens, finished.parts, List.dropLast_concat]
    exact finished.others

namespace Parser

/-- The tokens from the current one on, up to and with the finish. -/
def upcoming (parser : Parser) : List Token :=
  if parser.token.kind = .finish then [parser.token]
  else
    parser.token ::
      if parser.peek.kind = .finish then [parser.peek]
      else parser.peek :: parser.lexer.readAll.1

theorem upcoming_start (source : String) (limit : Int) :
    (start source limit).upcoming = tokens source := by
  rw [tokens, Lexer.readAll_eq, Lexer.readAll_eq]
  rfl

theorem upcoming_advance {parser : Parser} (more : parser.token.kind ≠ .finish) :
    parser.upcoming = parser.token :: parser.advance.upcoming := by
  rw [upcoming, if_neg more]
  show parser.token :: _ = parser.token ::
    if parser.peek.kind = .finish then [parser.peek]
    else parser.peek ::
      if parser.lexer.next.1.kind = .finish then [parser.lexer.next.1]
      else parser.lexer.next.1 :: parser.lexer.next.2.readAll.1
  rw [← Lexer.readAll_eq]

/-- The reader has these tokens ahead, and then the finish. -/
def Faces (parser : Parser) (ahead : List Token) (finish : Token) : Prop :=
  Finished parser.upcoming ahead finish

theorem Faces.token_nil {parser : Parser} {finish : Token} (faces : parser.Faces [] finish) :
    parser.token = finish := by
  have parts := faces.parts
  rw [upcoming] at parts
  split at parts <;> simp_all

theorem Faces.token_cons {parser : Parser} {finish word : Token} {ahead : List Token}
    (faces : parser.Faces (word :: ahead) finish) :
    parser.token = word ∧ word.kind ≠ .finish := by
  have more := faces.others word List.mem_cons_self
  have parts := faces.parts
  rw [upcoming] at parts
  split at parts <;> simp_all

theorem Faces.advance {parser : Parser} {finish word : Token} {ahead : List Token}
    (faces : parser.Faces (word :: ahead) finish) : parser.advance.Faces ahead finish where
  parts := by
    obtain ⟨rfl, more⟩ := faces.token_cons
    have parts := faces.parts
    rw [upcoming_advance more, List.cons_append] at parts
    exact List.tail_eq_of_cons_eq parts
  kind := faces.kind
  others := fun other member => faces.others other (List.mem_cons_of_mem _ member)

end Parser

/-! ### One value -/

namespace Reading

/-- At the top level the machine looks at the finish and at openers before a reading does. The
reader asks a reading only where the token is neither. -/
def Continues (reading : Reading) (token : Token) : Prop :=
  reading.groups = [] →
    match reading.stage with
    | .operand [] => token.kind ≠ .finish
    | .operand (_ :: _) => True
    | .operator _ _ => token.kind ≠ .finish ∧ ∀ bracket, token.kind ≠ .opening bracket

section
variable {limit : Int} {reading further : Reading} {token finish : Token}

theorem next_eq_step (continues : reading.Continues token) :
    reading.next limit token = (reading.step limit reading.groups.length token).2 := by
  obtain ⟨groups, stage⟩ := reading
  match groups, stage with
  | [], .operator waiting value =>
    cases kind : token.kind with
    | opening bracket => exact absurd kind ((continues rfl).2 bracket)
    | _ => simp [next, kind]
  | [], .operand _ => rfl
  | _ :: _, _ => rfl

theorem close_of_step_error {depth : Nat} {error : ParseError}
    (continues : reading.Continues finish)
    (finished : finish.kind = .finish)
    (refused : reading.step limit reading.groups.length finish = (depth, .error error)) :
    reading.close finish = .error error := by
  obtain ⟨groups, stage⟩ := reading
  match groups, stage with
  | [], .operand [] => exact absurd finished (continues rfl)
  | [], .operator _ _ => exact absurd finished (continues rfl).1
  | [], .operand (_ :: _) | _ :: _, .operand (_ :: _) | _ :: _, .operand []
  | _ :: _, .operator _ _ =>
    simp only [step, readOperand, refuse, finished, reduceCtorEq, if_false, if_true,
      Prod.mk.injEq, Except.error.injEq] at refused
    simp [close, refused.2]

/-- A value is there once nothing is open, nothing is to come, and the next token takes nothing
away. -/
theorem result?_eq_some {tree : Expression} (complete : reading.result? token = some tree) :
    ∃ waiting value, reading = ⟨[], .operator waiting value⟩ ∧ tree = waiting.fill value ∧
      ∀ operator, token.kind = .operator operator → takes operator waiting = false := by
  obtain ⟨groups, stage⟩ := reading
  match groups, stage with
  | [], .operator waiting value =>
    cases kind : token.kind with
    | operator operator =>
      simp only [result?, kind] at complete
      split at complete
      · simp at complete
      · next keeps =>
        refine ⟨waiting, value, rfl, (Option.some.inj complete).symm, ?_⟩
        intro other same
        cases same
        simpa using keeps
    | _ =>
      simp only [result?, kind, Option.some.injEq] at complete
      exact ⟨waiting, value, rfl, complete.symm, by simp⟩
  | [], .operand _ => simp [result?] at complete
  | _ :: _, _ => simp [result?] at complete

theorem continues_of_result?_eq_none (progress : reading ≠ atOperand)
    (incomplete : reading.result? token = none) : reading.Continues token := by
  obtain ⟨groups, stage⟩ := reading
  intro empty
  simp only at empty
  subst empty
  match stage with
  | .operand [] => exact absurd rfl progress
  | .operand (_ :: _) => trivial
  | .operator waiting value =>
    refine ⟨fun finished => ?_, fun bracket opens => ?_⟩
    · simp [result?, finished] at incomplete
    · simp [result?, opens] at incomplete

/-- Behind a value that the next token does not take away, the waiting operators have it. -/
theorem next_settled {groups : List OpenGroup} {waiting : Waiting} {value : Expression}
    (keeps : ∀ operator, token.kind = .operator operator → takes operator waiting = false) :
    next limit ⟨groups, .operator waiting value⟩ token =
      next limit ⟨groups, .operator [] (waiting.fill value)⟩ token := by
  cases kind : token.kind with
  | operator operator =>
    rw [next_operator kind, next_operator kind, keeps operator kind]
    rfl
  | opening bracket =>
    cases groups with
    | nil => rw [next_anew kind, next_anew kind]
    | cons group groups => simp [next, step, readOperator, kind]
  | _ => cases groups <;> simp [next, step, readOperator, kind, Waiting.fill]

end

end Reading

namespace Parser

section
variable {parser : Parser} {reading further : Reading} {ahead : List Token} {finish : Token}
  {depth : Nat}

theorem run_of_step_error {error : ParseError} (faces : parser.Faces ahead finish)
    (continues : reading.Continues parser.token)
    (refused : reading.step parser.limit reading.groups.length parser.token =
      (depth, .error error)) :
    reading.run parser.limit finish ahead = .error error := by
  cases ahead with
  | nil =>
    have current := faces.token_nil
    exact Reading.close_of_step_error (current ▸ continues) faces.kind (current ▸ refused)
  | cons word ahead =>
    obtain ⟨current, _⟩ := faces.token_cons
    refine Reading.run_cons_error ahead ?_
    rw [← current, Reading.next_eq_step continues, refused]

theorem run_of_step_ok (faces : parser.Faces ahead finish)
    (continues : reading.Continues parser.token)
    (taken : reading.step parser.limit reading.groups.length parser.token =
      (depth, .ok further)) :
    ∃ rest, ahead = parser.token :: rest ∧
      reading.run parser.limit finish ahead = further.run parser.limit finish rest := by
  cases ahead with
  | nil =>
    have finished : parser.token.kind = .finish := faces.token_nil ▸ faces.kind
    obtain ⟨_, _, refused⟩ := step_finish parser.limit reading.groups.length reading parser.token
      finished
    simp [refused] at taken
  | cons word ahead =>
    obtain ⟨rfl, _⟩ := faces.token_cons
    refine ⟨ahead, rfl, Reading.run_cons_ok ahead ?_⟩
    rw [Reading.next_eq_step continues, taken]

end

/-! ### The routines of the reader -/

section
variable {parser : Parser} {reading further : Reading} {depth : Nat}

theorem read_of_error {error : ParseError}
    (refused : reading.step parser.limit parser.depth parser.token = (depth, .error error)) :
    parser.read reading = (.error error, { parser with depth }) := by
  rw [read]
  split
  · next depth' error' refused' =>
    obtain ⟨rfl, same⟩ := Prod.mk.inj (refused.symm.trans refused')
    rw [Except.error.inj same]
  · next taken => exact absurd (refused.symm.trans taken) (by simp)

theorem read_of_ok
    (taken : reading.step parser.limit parser.depth parser.token = (depth, .ok further)) :
    parser.read reading =
      match further.result? parser.peek with
      | some tree => (.ok tree, { parser with depth })
      | none => ({ parser with depth } : Parser).advance.read further := by
  rw [read]
  split
  · next refused => exact absurd (taken.symm.trans refused) (by simp)
  · next depth' further' taken' =>
    obtain ⟨rfl, same⟩ := Prod.mk.inj (taken.symm.trans taken')
    obtain rfl := Except.ok.inj same
    rfl

end

theorem isGroupStart_iff (parser : Parser) :
    parser.isGroupStart = true ↔ ∃ bracket, parser.token.kind = .opening bracket := by
  unfold isGroupStart
  cases parser.token.kind <;> simp

/-- A number alone is read as any operand is. -/
theorem readNumber_eq_read {parser : Parser} (noGroup : ¬ parser.isGroupStart = true) :
    parser.readNumber = parser.read .atOperand := by
  rw [isGroupStart_iff] at noGroup
  by_cases isNumber : parser.token.kind = .number
  · have taken : Reading.atOperand.step parser.limit parser.depth parser.token =
        (parser.depth, .ok (.after (.leaf parser.token.value))) := by
      simp [Reading.atOperand, Reading.step, Reading.readOperand, Reading.after, isNumber]
    have complete : (Reading.after (.leaf parser.token.value)).result? parser.peek =
        some (.leaf parser.token.value) := by
      unfold Reading.result? Reading.after
      cases parser.peek.kind <;> rfl
    rw [readNumber, if_pos isNumber, read_of_ok taken, complete]
  · have refused : Reading.atOperand.step parser.limit parser.depth parser.token =
        (parser.depth, .error (Reading.refuse .operandExpected parser.token)) := by
      simp only [Reading.atOperand, Reading.step, Reading.readOperand]
      cases kind : parser.token.kind <;> simp_all
    rw [readNumber, if_neg isNumber, read_of_error refused]

/-- The reading that the next value at the top level is read with. -/
def valueReading (parser : Parser) : Reading :=
  if parser.isGroupStart then .atOperand else .resume parser.last

theorem readValue_eq_read (parser : Parser) :
    parser.readValue = parser.read parser.valueReading := by
  rw [readValue, valueReading]
  split
  · next starts => rw [readGroup, if_pos starts]
  · next noGroup =>
    rw [readExpression]
    cases parser.last with
    | none => exact readNumber_eq_read noGroup
    | some last => rfl

/-! ### Values and the machine -/

/-- What reading a value comes to, on the tokens ahead. A value ends at a token of its own, and the
machine goes on behind that token as from the complete value. -/
def ReadAs (finish : Token) (reading : Reading) (parser : Parser) (ahead : List Token) :
    Except ParseError Expression × Parser → Prop
  | (.error error, _) => reading.run parser.limit finish ahead = .error error
  | (.ok tree, rest) =>
    rest.limit = parser.limit ∧ rest.depth = 0 ∧
      ∃ word behind, rest.Faces (word :: behind) finish ∧
        reading.run parser.limit finish ahead =
          (Reading.after tree).run parser.limit finish behind

/-- What comes before a reading may be the work of another. -/
theorem ReadAs.before {finish : Token} {reading further : Reading} {parser onward : Parser}
    {ahead rest : List Token} {outcome : Except ParseError Expression × Parser}
    (readAs : ReadAs finish further onward rest outcome) (sameLimit : onward.limit = parser.limit)
    (same : reading.run parser.limit finish ahead = further.run parser.limit finish rest) :
    ReadAs finish reading parser ahead outcome := by
  rcases outcome with ⟨tree | error, parser'⟩
  · simp only [ReadAs, sameLimit] at readAs ⊢
    exact same.trans readAs
  · simp only [ReadAs, sameLimit] at readAs ⊢
    rw [same]
    exact readAs

/-- Reading a value is running the machine over its tokens. The induction follows the reader token
by token; between two tokens of a value the machine does what the reading does. -/
theorem readAs_read (finish : Token) (parser : Parser) (reading : Reading) (ahead : List Token)
    (faces : parser.Faces ahead finish) (counted : parser.depth = reading.groups.length)
    (continues : reading.Continues parser.token) :
    ReadAs finish reading parser ahead (parser.read reading) := by
  fun_induction read parser reading generalizing ahead with
  | case1 parser reading depth error refused =>
    exact run_of_step_error faces continues (counted ▸ refused)
  | case2 parser reading depth further taken tree complete =>
    rw [counted] at taken
    obtain ⟨rest, rfl, same⟩ := run_of_step_ok faces continues taken
    obtain ⟨waiting, value, rfl, rfl, keeps⟩ := Reading.result?_eq_some complete
    refine ⟨rfl, Reading.step_depth taken, parser.token, rest, faces, same.trans ?_⟩
    cases rest with
    | nil => rfl
    | cons word rest =>
      obtain ⟨rfl, _⟩ := faces.advance.token_cons
      rw [Reading.run_cons, Reading.run_cons, Reading.after,
        show parser.advance.token = parser.peek from rfl, Reading.next_settled keeps]
  | case3 parser reading depth further taken incomplete inductionHypothesis =>
    rw [counted] at taken
    obtain ⟨rest, rfl, same⟩ := run_of_step_ok faces continues taken
    exact (inductionHypothesis rest faces.advance (Reading.step_depth taken)
      (Reading.continues_of_result?_eq_none (Reading.step_ne_atOperand taken) incomplete)).before
      rfl same

/-- An opener is read the same wherever the reader stands between two values. -/
theorem run_resume_opening {limit : Int} {finish token : Token} {bracket : Bracket}
    (last : Option Expression) (rest : List Token) (opens : token.kind = .opening bracket) :
    (Reading.resume last).run limit finish (token :: rest) =
      Reading.atOperand.run limit finish (token :: rest) := by
  cases last with
  | none => rfl
  | some value => exact Reading.run_anew rest opens

/-- Between two values the machine stands where the last value left it. -/
theorem readAs_readValue (finish : Token) (parser : Parser) (ahead : List Token)
    (faces : parser.Faces ahead finish) (counted : parser.depth = 0)
    (more : parser.token.kind ≠ .finish) :
    ReadAs finish (Reading.resume parser.last) parser ahead parser.readValue := by
  rw [readValue_eq_read, valueReading]
  split
  · next starts =>
    obtain ⟨bracket, opens⟩ := (isGroupStart_iff parser).mp starts
    have read := readAs_read finish parser Reading.atOperand ahead faces counted fun _ => more
    refine read.before rfl ?_
    cases ahead with
    | nil => exact absurd (faces.token_nil ▸ faces.kind) more
    | cons word ahead =>
      obtain ⟨rfl, _⟩ := faces.token_cons
      exact run_resume_opening parser.last ahead opens
  · next noGroup =>
    cases parser.last with
    | none => exact readAs_read finish parser Reading.atOperand ahead faces counted fun _ => more
    | some last =>
      refine readAs_read finish parser (Reading.after last) ahead faces counted fun _ => ?_
      refine ⟨more, fun bracket opens => noGroup ?_⟩
      exact (isGroupStart_iff parser).mpr ⟨bracket, opens⟩

/-! ### The whole input -/

/-- The answer of the reader once it has stopped. -/
def answer : Option ParseError × Parser → Except ParseError Expression
  | (some error, _) => .error error
  | (none, rest) => (Reading.resume rest.last).close rest.token

theorem parse_outcome (parser : Parser) : parser.parse.outcome = answer parser.readToFinish := by
  unfold parse
  split
  · next stopped => rw [stopped, answer]
  · next rest stopped =>
    rw [stopped, answer]
    cases rest.last <;> rfl

/-- The induction is on the tokens ahead; every value takes one at least. -/
theorem answer_readToFinish (finish : Token) (parser : Parser) (ahead : List Token)
    (faces : parser.Faces ahead finish) (counted : parser.depth = 0) :
    answer parser.readToFinish = (Reading.resume parser.last).run parser.limit finish ahead := by
  fun_induction readToFinish parser generalizing ahead with
  | case1 parser finished =>
    cases ahead with
    | nil => rw [answer, Reading.run, faces.token_nil]
    | cons word ahead =>
      obtain ⟨rfl, more⟩ := faces.token_cons
      exact absurd finished more
  | case2 parser more error rest outcome =>
    have readAs := readAs_readValue finish parser ahead faces counted more
    rw [outcome] at readAs
    exact readAs.symm
  | case3 parser more tree rest outcome inductionHypothesis =>
    have readAs := readAs_readValue finish parser ahead faces counted more
    rw [outcome] at readAs
    obtain ⟨sameLimit, closed, word, behind, facesRest, same⟩ := readAs
    rw [same, ← sameLimit]
    exact inductionHypothesis behind facesRest.advance closed

end Parser

/-- The answer of the reader is that of the machine. -/
theorem parse_eq_run (source : String) (limit : Int) :
    ∃ finish, Finished (tokens source) (words source) finish ∧
      parse source limit = Reading.atOperand.run limit finish (words source) := by
  obtain ⟨finish, finished⟩ := tokens_finished source
  refine ⟨finish, finished, ?_⟩
  have faces : (Parser.start source limit).Faces (words source) finish := by
    rw [Parser.Faces, Parser.upcoming_start]
    exact finished
  rw [parse, Parser.parse_outcome]
  exact Parser.answer_readToFinish finish (Parser.start source limit) (words source) faces rfl

end Reckon
