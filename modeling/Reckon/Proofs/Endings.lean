/-
This file says that reading ends, whatever calls were made before and however
they ended. A loop at the finish stops, each time that a loop is gone through
again the current token is further on, and a value that a routine returns with
ends with the current token.

Nothing of this shows in one loop: a group may be asked for where no token has
been taken, and the current token is handed from routine to routine. What a
single step of the routines leaves is known, and here it is carried along all
of them. A routine that another has called does the same as if it had been
called first, with the others below it (`Control.Stops.comesTo`).
-/

import Mathlib.Logic.Relation
import Reckon.Proofs.Spans
import Reckon.Proofs.Stream

namespace Reckon

namespace Parser

open Relation

/-! ### Runs -/

/-- One step goes on with the other. -/
def Control.Leads (control further : Control) : Prop :=
  control.step = .further further

/-- The routines stop with an answer after so many steps. -/
inductive Control.Stops : Control → Nat → Except ParseError Expression × Parser → Prop
  | now {control : Control} {answer : Except ParseError Expression × Parser}
    (stopped : control.step = .stop answer) : Stops control 1 answer
  | later {control further : Control} {steps : Nat}
    {answer : Except ParseError Expression × Parser} (leads : control.Leads further)
    (stops : Stops further steps answer) : Stops control (steps + 1) answer

section
variable {control further : Control}

theorem Control.Sound.follows (sound : control.Sound) (leads : control.Leads further) :
    control.Follows further := by
  have proceeds := sound.proceeds
  rw [Control.Proceeds, leads] at proceeds
  exact proceeds

/-- The routines come to their answer. The induction is on the cost, which every step lowers. -/
theorem Control.Sound.stops {control : Control} (sound : control.Sound) :
    ∃ steps ≤ control.cost + 1, control.Stops steps control.answer := by
  cases stepped : control.step with
  | stop answer =>
    have proceeds := sound.proceeds
    rw [Control.Proceeds, stepped] at proceeds
    exact ⟨1, Nat.le_add_left _ _, proceeds ▸ .now stepped⟩
  | further further =>
    have follows := sound.follows stepped
    have cheaper := follows.cheaper
    obtain ⟨steps, bound, stops⟩ := follows.sound.stops
    exact ⟨steps + 1, by omega, follows.answer ▸ .later stepped stops⟩
termination_by control.cost

theorem Control.Sound.reached (sound : control.Sound)
    (leads : ReflTransGen Control.Leads control further) : further.Sound := by
  induction leads with
  | refl => exact sound
  | tail _ last inductionHypothesis => exact (inductionHypothesis.follows last).sound

/-- No token comes back, and a loop that is come to has a token less ahead. -/
theorem Control.Sound.onward (sound : control.Sound)
    (leads : TransGen Control.Leads control further) :
    ∃ passed, control.reader.upcoming = passed ++ further.reader.upcoming ∧
      (further.AtLoop → passed ≠ []) := by
  induction leads with
  | single leads =>
    rcases (sound.follows leads).forward with ⟨still, notLoop⟩ | ⟨_, taken⟩
    · exact ⟨[], still.symm, fun atLoop => absurd atLoop notLoop⟩
    · exact ⟨[control.reader.token], taken, fun _ => List.cons_ne_nil _ _⟩
  | @tail between further leads last inductionHypothesis =>
    obtain ⟨passed, ahead, _⟩ := inductionHypothesis
    have follows := (sound.reached leads.to_reflTransGen).follows last
    rcases follows.forward with ⟨still, notLoop⟩ | ⟨_, taken⟩
    · exact ⟨passed, still ▸ ahead, fun atLoop => absurd atLoop notLoop⟩
    · refine ⟨passed ++ [between.reader.token], ?_, fun _ => by simp⟩
      rw [ahead, taken, List.append_assoc, List.singleton_append]

/-- A loop at the finish stops, and only the loop over the whole input has a value then. -/
theorem Control.stop_of_finish (atLoop : control.AtLoop)
    (finished : control.reader.token.kind = .finish) :
    ∃ outcome, control.step = .stop (outcome, control.reader) ∧
      (control.task = .input ∨ ∃ error, outcome = .error error) := by
  obtain ⟨task, callers, reader⟩ := control
  cases task with
  | input =>
    rw [Control.step, if_pos finished]
    cases reader.last with
    | none => exact ⟨_, rfl, .inl rfl⟩
    | some tree => exact ⟨_, rfl, .inl rfl⟩
  | inside opener bracket value =>
    have notClosing : reader.token.kind ≠ .closing bracket := by
      rw [show reader.token.kind = .finish from finished]
      exact Kind.noConfusion
    rw [Control.step, if_neg notClosing, if_pos finished]
    exact ⟨_, rfl, .inr ⟨_, rfl⟩⟩
  | _ => exact absurd atLoop id

end

/-! ### Calls of routines by routines -/

/-- Other routines wait below. -/
def Control.under (control : Control) (base : List Caller) : Control :=
  { control with callers := control.callers ++ base }

/-- The loop over the whole input has no part in it. -/
def Control.Inner (control : Control) : Prop :=
  control.task ≠ .input ∧ ofInput control.callers = false

/-- What becomes of a step when other routines wait below: the same step, with them below. -/
inductive Turn.Unnoticed (base : List Caller) : Turn → Turn → Prop
  | further {control : Control} (inner : control.Inner) :
    Unnoticed base (.further control) (.further (control.under base))
  | error (error : ParseError) (rest : Parser) :
    Unnoticed base (.stop (.error error, rest)) (.stop (.error error, rest))

/-- The routines below are not noticed until a value is handed to them. -/
theorem Control.Inner.unnoticed {control : Control} (inner : control.Inner)
    (busy : ∀ tree, control.task = .hand tree → control.callers ≠ []) (base : List Caller) :
    Turn.Unnoticed base control.step (control.under base).step := by
  obtain ⟨task, callers, reader⟩ := control
  obtain ⟨notInput, noInput⟩ := inner
  rw [Control.under]
  match task, callers with
  | .input, callers => exact absurd rfl notInput
  | .hand tree, [] => exact absurd rfl (busy tree rfl)
  | .hand tree, .input :: callers => exact absurd noInput Bool.noConfusion
  | .hand tree, .behind left operator :: callers => exact .further ⟨Task.noConfusion, noInput⟩
  | .hand tree, .inside opener bracket :: callers => exact .further ⟨Task.noConfusion, noInput⟩
  | .value, callers =>
    simp only [Control.step]
    split_ifs
    · exact .further ⟨Task.noConfusion, noInput⟩
    · exact .further ⟨Task.noConfusion, noInput⟩
  | .inside opener bracket value, callers =>
    simp only [Control.step]
    split_ifs
    · cases value with
      | none => exact .error _ _
      | some tree => exact .further ⟨Task.noConfusion, noInput⟩
    · exact .error _ _
    · exact .further ⟨Task.noConfusion, noInput⟩
    · exact .further ⟨Task.noConfusion, noInput⟩
  | .group, callers =>
    simp only [Control.step]
    cases reader.token.kind with
    | opening bracket =>
      dsimp only
      split_ifs
      · exact .error _ _
      · exact .further ⟨Task.noConfusion, noInput⟩
    | _ => exact .error _ _
  | .behind none, callers =>
    simp only [Control.step]
    split_ifs
    · exact .further ⟨Task.noConfusion, noInput⟩
    · exact .error _ _
  | .behind (some left), callers =>
    simp only [Control.step]
    cases reader.token.kind with
    | operator operator => exact .further ⟨Task.noConfusion, noInput⟩
    | _ => exact .error _ _
  | .operand left operator, callers =>
    simp only [Control.step]
    split_ifs
    · exact .further ⟨Task.noConfusion, noInput⟩
    · exact .further ⟨Task.noConfusion, noInput⟩
    · exact .further ⟨Task.noConfusion, noInput⟩
    · exact .error _ _

/-- The routines come to the answer of a call: its error stops them all, and its value is handed to
those that wait below. -/
def Control.ComesTo (control : Control) (base : List Caller) :
    Except ParseError Expression × Parser → Prop
  | (.error error, rest) => ∃ steps, control.Stops steps (.error error, rest)
  | (.ok tree, rest) => ReflTransGen Control.Leads control ⟨.hand tree, base, rest⟩

theorem Control.ComesTo.head {control further : Control} {base : List Caller}
    {answer : Except ParseError Expression × Parser} (leads : control.Leads further)
    (comes : further.ComesTo base answer) : control.ComesTo base answer := by
  obtain ⟨error | tree, rest⟩ := answer
  · obtain ⟨steps, stops⟩ := comes
    exact ⟨steps + 1, .later leads stops⟩
  · exact ReflTransGen.head leads comes

/-- A routine comes to its answer whoever called it. The induction is on the steps that it takes
when no other waits for it. -/
theorem Control.Stops.comesTo {control : Control} {steps : Nat}
    {answer : Except ParseError Expression × Parser} (stops : control.Stops steps answer)
    (inner : control.Inner) (base : List Caller) : (control.under base).ComesTo base answer := by
  induction stops with
  | @now control answer stopped =>
    by_cases returned : ∃ tree, control.task = .hand tree ∧ control.callers = []
    · obtain ⟨task, callers, reader⟩ := control
      obtain ⟨tree, rfl, rfl⟩ := returned
      obtain rfl := Turn.stop.inj stopped
      exact .refl
    · have unnoticed := inner.unnoticed (fun tree hand none => returned ⟨tree, hand, none⟩) base
      rw [stopped] at unnoticed
      generalize below : (control.under base).step = turn at unnoticed
      cases unnoticed with
      | error error rest => exact ⟨1, .now below⟩
  | @later control further steps answer leads stops inductionHypothesis =>
    have busy : ∀ tree, control.task = .hand tree → control.callers ≠ [] := by
      obtain ⟨task, callers, reader⟩ := control
      rintro tree rfl rfl
      exact absurd leads Turn.noConfusion
    have unnoticed := inner.unnoticed busy base
    rw [leads] at unnoticed
    generalize below : (control.under base).step = turn at unnoticed
    cases unnoticed with
    | further inner => exact .head below (inductionHypothesis inner)

/-! ### Routines that can be called -/

/-- A routine, with the value behind which it reads if it is asked for an expression. -/
inductive Routine
  | parse
  | group
  | value
  | expression (left : Option Expression)

namespace Routine

/-- The call of the routine from outside. -/
def call : Routine → Call
  | .parse => .parse
  | .group => .readGroup
  | .value => .readValue
  | .expression left => .readExpression left

/-- What the routine has to do when it is called. -/
def task : Routine → Task
  | .parse => .input
  | .group => .group
  | .value => .value
  | .expression left => .behind left

/-- What the reader answers. -/
def answer (reader : Parser) : Routine → Except ParseError Expression × Parser
  | .parse => reader.parseAnswer
  | .group => reader.readGroup
  | .value => reader.readValue
  | .expression left => reader.readBehind left

/-- The value on the left of the one that is read. -/
def left (reader : Parser) : Routine → Option Expression
  | .parse | .group => none
  | .value => reader.left
  | .expression left => left

/-- The routine is called and no other waits for it. -/
def begin (routine : Routine) (reader : Parser) : Control :=
  ⟨routine.task, [], reader⟩

variable (routine : Routine) (reader : Parser)

theorem perform_call :
    reader.perform routine.call =
      ((routine.answer reader).1.map .tree, (routine.answer reader).2) := by
  cases routine <;> rfl

theorem sound_begin : (routine.begin reader).Sound := by
  cases routine with
  | parse => trivial
  | group => trivial
  | value => exact ⟨rfl, rfl⟩
  | expression left =>
    cases left with
    | none => exact ⟨rfl, Reading.staysOpen_nil reader.token⟩
    | some left => exact .inl ⟨rfl, Reading.staysOpen_nil reader.token⟩

theorem answer_begin : (routine.begin reader).answer = routine.answer reader := by
  cases routine with
  | parse => rfl
  | group =>
    simp only [begin, task, Control.answer, answer, readGroup, conclude_nil]
    rfl
  | value => simp only [begin, task, Control.answer, answer, conclude_nil]
  | expression left =>
    cases left with
    | none =>
      simp only [begin, task, Control.answer, answer, readBehind, conclude_nil]
      by_cases starts : reader.isGroupStart = true
      · have notNumber : reader.token.kind ≠ .number := by
          obtain ⟨bracket, opens⟩ := (isGroupStart_iff reader).mp starts
          simp [opens]
        rw [if_pos starts, readNumber, if_neg notNumber]
      · rw [if_neg starts, readNumber_eq_read starts]
        rfl
    | some left =>
      simp only [begin, task, Control.answer, answer, readBehind, conclude_nil]
      rfl

theorem cost_begin : (routine.begin reader).cost ≤ 4 * reader.upcoming.length + 4 := by
  simp only [begin, Control.cost, List.length_nil, Nat.add_zero]
  have light : routine.task.weight ≤ 4 := by
    cases routine <;> simp [task, Task.weight]
  exact Nat.add_le_add_left light _

theorem inner_begin (called : routine ≠ .parse) : (routine.begin reader).Inner := by
  cases routine with
  | parse => exact absurd rfl called
  | _ => exact ⟨Task.noConfusion, rfl⟩

theorem spans_answer {routine : Routine} {reader rest : Parser} {tree : Expression}
    (called : routine ≠ .parse) (outcome : routine.answer reader = (.ok tree, rest)) :
    reader.Spans (routine.left reader) tree rest := by
  cases routine with
  | parse => exact absurd rfl called
  | group => exact readGroup_spans outcome
  | value => exact readValue_spans outcome
  | expression left => exact readBehind_spans outcome

end Routine

/-! ### After any calls -/

theorem exists_at_performAll (source : String) (limit : Int) (calls : List Call) :
    ∃ index, ((start source limit).performAll calls).At source index := by
  have kept : ∀ (reader : Parser) (index : Nat), reader.At source index →
      ∃ index, (reader.performAll calls).At source index := by
    induction calls with
    | nil => exact fun reader index stands => ⟨index, stands⟩
    | cons call calls inductionHypothesis =>
      intro reader index stands
      obtain ⟨further, _, effect⟩ := perform_effect stands call
      exact inductionHypothesis _ further effect.stands
  exact kept _ 0 (at_start source limit)

/-- What is ahead of a reader is left of the tokens of its source. -/
theorem At.upcoming_suffix {source : String} {index : Nat} {reader : Parser}
    (stands : reader.At source index) : reader.upcoming <:+ tokens source := by
  have left : reader.upcoming = ((Lexer.start source).after index).readAll.1 := by
    rw [Lexer.readAll_eq, Lexer.readAll_eq, upcoming, stands.token, stands.peek, stands.lexer]
    rfl
  rw [left, Lexer.readAll_after]
  exact List.drop_suffix _ _

/-- What holds of the routines at any time. A loop at the finish stops, and with an error unless it
is the loop over the whole input. From one time that a loop is gone through to the next the current
token moves on. A routine that has been called comes to the answer of the reader; and when a value
is returned, the tokens from the current one on have been read that are its own, up to the one that
is current then, which is a number or closes a group. -/
structure Control.Orderly (control : Control) : Prop where
  finish : control.AtLoop → control.reader.token.kind = .finish →
    ∃ outcome, control.step = .stop (outcome, control.reader) ∧
      (control.task = .input ∨ ∃ error, outcome = .error error)
  onward : ∀ further, TransGen Control.Leads control further →
    ∃ passed, control.reader.upcoming = passed ++ further.reader.upcoming ∧
      (further.AtLoop → passed ≠ [])
  called : ∀ routine : Routine, routine ≠ .parse → control.task = routine.task →
    control.ComesTo control.callers (routine.answer control.reader)
  returned : ∀ (routine : Routine) (tree : Expression) (rest : Parser), routine ≠ .parse →
    routine.answer control.reader = (.ok tree, rest) →
      control.reader.Spans (routine.left control.reader) tree rest

theorem Control.Sound.orderly {control : Control} (sound : control.Sound) : control.Orderly where
  finish := control.stop_of_finish
  onward := fun _ => sound.onward
  called := by
    intro routine called same
    obtain ⟨steps, _, stops⟩ := (routine.sound_begin control.reader).stops
    have comes := stops.comesTo (routine.inner_begin control.reader called) control.callers
    rw [routine.answer_begin] at comes
    have below : (routine.begin control.reader).under control.callers = control := by
      rw [Routine.begin, ← same]
      rfl
    rwa [below] at comes
  returned := fun _ _ _ => Routine.spans_answer

/-- Whatever calls have been made of a reader, a routine that is called then stops after finitely
many steps, with the answer of the reader; and until then all is orderly. -/
theorem calls_end (source : String) (limit : Int) (calls : List Call) (routine : Routine) :
    let reader := (start source limit).performAll calls
    reader.upcoming <:+ tokens source ∧
    (∃ steps ≤ 4 * reader.upcoming.length + 5,
      (routine.begin reader).Stops steps (routine.answer reader)) ∧
    reader.perform routine.call =
      ((routine.answer reader).1.map .tree, (routine.answer reader).2) ∧
    ∀ control, ReflTransGen Control.Leads (routine.begin reader) control → control.Orderly := by
  intro reader
  obtain ⟨index, stands⟩ := exists_at_performAll source limit calls
  have sound := routine.sound_begin reader
  obtain ⟨steps, bound, stops⟩ := sound.stops
  rw [routine.answer_begin] at stops
  refine ⟨stands.upcoming_suffix, ⟨steps, ?_, stops⟩, routine.perform_call reader, ?_⟩
  · exact Nat.le_trans bound (Nat.succ_le_succ (routine.cost_begin reader))
  · exact fun control leads => (sound.reached leads).orderly

end Parser

end Reckon
