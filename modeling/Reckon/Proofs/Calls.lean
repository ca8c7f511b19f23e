/-
This file says what any calls of the reader do to it, in any order, when each
goes on from where the one before returned or raised.

One call is settled by what it does to the window and to the count of open
groups, and `Kept` lists what it keeps. A run of calls has an index for every
state between two calls, and the indices never go down. The last value changes
only where the whole input is read, and then it is the latest of the values that
were completed on the way.
-/

import Mathlib.Order.Monotone.Basic
import Reckon.Proofs.Window

namespace Reckon

namespace Parser

/-! ### The whole input -/

/-- The values that a reader completes up to the finish, or up to where it is stopped. -/
def values (parser : Parser) : List Expression :=
  if parser.token.kind = .finish then []
  else
    match _ : parser.readValue with
    | (.error _, _) => []
    | (.ok tree, rest) => tree :: { rest with last := some tree }.advance.values
termination_by parser.remaining
decreasing_by
  rename_i outcome
  obtain ⟨notFinished, notMore⟩ := readValue_progress outcome
  exact Nat.lt_of_lt_of_le
    (remaining_advance_lt { rest with last := some tree } notFinished) notMore

section
variable {parser rest : Parser}

theorem readToFinish_of_finish (finished : parser.token.kind = .finish) :
    parser.readToFinish = (none, parser) := by
  rw [readToFinish, if_pos finished]

theorem readToFinish_of_error (more : parser.token.kind ≠ .finish) {error : ParseError}
    (outcome : parser.readValue = (.error error, rest)) :
    parser.readToFinish = (some error, rest) := by
  rw [readToFinish, if_neg more]
  split
  · next outcome' =>
    obtain ⟨same, rfl⟩ := Prod.mk.inj (outcome.symm.trans outcome')
    rw [Except.error.inj same]
  · next outcome' => exact absurd (outcome.symm.trans outcome') (by simp)

theorem readToFinish_of_ok (more : parser.token.kind ≠ .finish) {tree : Expression}
    (outcome : parser.readValue = (.ok tree, rest)) :
    parser.readToFinish = ({ rest with last := some tree } : Parser).advance.readToFinish := by
  rw [readToFinish, if_neg more]
  split
  · next outcome' => exact absurd (outcome.symm.trans outcome') (by simp)
  · next outcome' =>
    obtain ⟨same, rfl⟩ := Prod.mk.inj (outcome.symm.trans outcome')
    obtain rfl := Except.ok.inj same
    rfl

theorem values_of_finish (finished : parser.token.kind = .finish) : parser.values = [] := by
  rw [values, if_pos finished]

theorem values_of_error (more : parser.token.kind ≠ .finish) {error : ParseError}
    (outcome : parser.readValue = (.error error, rest)) : parser.values = [] := by
  rw [values, if_neg more]
  split
  · rfl
  · next outcome' => exact absurd (outcome.symm.trans outcome') (by simp)

theorem values_of_ok (more : parser.token.kind ≠ .finish) {tree : Expression}
    (outcome : parser.readValue = (.ok tree, rest)) :
    parser.values = tree :: { rest with last := some tree }.advance.values := by
  rw [values, if_neg more]
  split
  · next outcome' => exact absurd (outcome.symm.trans outcome') (by simp)
  · next outcome' =>
    obtain ⟨same, rfl⟩ := Prod.mk.inj (outcome.symm.trans outcome')
    obtain rfl := Except.ok.inj same
    rfl

end

/-- The latest value is kept. -/
theorem last_readToFinish (parser : Parser) :
    parser.readToFinish.2.last = parser.values.getLast?.or parser.last := by
  fun_induction readToFinish parser with
  | case1 parser finished => rw [values_of_finish finished, List.getLast?_nil, Option.none_or]
  | case2 parser more error rest outcome =>
    have kept := parser.last_read parser.valueReading
    rw [← readValue_eq_read, outcome] at kept
    rw [values_of_error more outcome, List.getLast?_nil, Option.none_or]
    exact kept
  | case3 parser more tree rest outcome inductionHypothesis =>
    rw [inductionHypothesis, values_of_ok more outcome, List.getLast?_cons]
    cases ({ rest with last := some tree } : Parser).advance.values.getLast? <;> rfl

/-- What reading to the finish came to, the values left aside. -/
def ending : Option ParseError → Except ParseError Unit
  | none => .ok ()
  | some error => .error error

theorem readToFinish_effect {source : String} {index : Nat} {parser : Parser}
    (stands : parser.At source index) :
    ∃ further, index ≤ further ∧
      Effect source parser (ending parser.readToFinish.1) further parser.readToFinish.2 := by
  fun_induction readToFinish parser generalizing index with
  | case1 parser finished => exact ⟨index, Nat.le_refl _, .of_still stands (by simp [ending])⟩
  | case2 parser more error rest outcome =>
    obtain ⟨further, forward, effect⟩ := readValue_effect stands
    rw [outcome] at effect
    exact ⟨further, forward, effect.of_outcome (by simp [ending]) (by simp [ending])⟩
  | case3 parser more tree rest outcome inductionHypothesis =>
    obtain ⟨further, forward, effect⟩ := readValue_effect stands
    rw [outcome] at effect
    have moved := effect.stands.advance_last (some tree)
    obtain ⟨last, onward, effect'⟩ := inductionHypothesis moved
    exact ⟨last, by omega, effect'.of_before (effect.returned tree rfl).symm effect.limit.symm⟩

theorem parser_parse (parser : Parser) : parser.parse.parser = parser.readToFinish.2 := by
  unfold parse
  split
  · next stopped => rw [stopped]
  · next stopped =>
    rw [stopped]
    split <;> rfl

theorem finished_readToFinish {parser : Parser} (stopped : parser.readToFinish.1 = none) :
    parser.readToFinish.2.token.kind = .finish := by
  fun_induction readToFinish parser with
  | case1 parser finished => exact finished
  | case2 parser more error rest outcome => simp at stopped
  | case3 parser more tree rest outcome inductionHypothesis => exact inductionHypothesis stopped

theorem parse_effect {source : String} {index : Nat} {parser : Parser}
    (stands : parser.At source index) :
    ∃ further, index ≤ further ∧
      Effect source parser parser.parse.outcome further parser.parse.parser := by
  obtain ⟨further, forward, effect⟩ := readToFinish_effect stands
  refine ⟨further, forward, ?_⟩
  rw [parser_parse, parse_outcome]
  cases stopped : parser.readToFinish with
  | mk failure rest =>
    rw [stopped] at effect
    cases failure with
    | some error => exact effect.of_outcome (by simp [answer]) (by simp [answer, ending])
    | none =>
      have still : Effect source rest (answer (none, rest)) further rest := by
        refine .of_still effect.stands fun error raised => ?_
        rw [answer] at raised
        cases last : rest.last with
        | none =>
          rw [last] at raised
          rw [← Except.error.inj raised]
        | some value =>
          rw [last] at raised
          exact absurd raised (by simp [Reading.resume, Reading.after, Reading.close])
      exact still.of_before (effect.returned () rfl).symm effect.limit.symm

/-- Where the whole input has been read there is nothing more to read. -/
theorem parse_again {parser : Parser} {tree : Expression}
    (returned : parser.parse.outcome = .ok tree) :
    parser.parse.parser.token.kind = .finish ∧
      parser.parse.parser.parse.outcome = .ok tree ∧
      parser.parse.parser.parse.parser = parser.parse.parser := by
  rw [parse_outcome] at returned
  rw [parser_parse]
  cases stopped : parser.readToFinish with
  | mk failure rest =>
    rw [stopped] at returned
    cases failure with
    | some error => exact absurd returned (by simp [answer])
    | none =>
      have finished := finished_readToFinish (congrArg Prod.fst stopped)
      rw [stopped] at finished
      rw [parser_parse, parse_outcome, readToFinish_of_finish finished]
      exact ⟨finished, returned, rfl⟩

/-! ### Any call -/

/-- A call of a reader. An expression is read behind any value or none, whatever the last value
is. -/
inductive Call
  | parse
  | advance
  | isGroupStart
  | readNumber
  | readGroup
  | readValue
  | readExpression (last : Option Expression)

/-- What a call answers when it returns. -/
inductive Answer
  | tree (tree : Expression)
  | truth (value : Bool)
  | nothing

/-- The answer of a call, or the error it raises, and the reader behind it. -/
def perform (parser : Parser) : Call → Except ParseError Answer × Parser
  | .parse => (parser.parse.outcome.map .tree, parser.parse.parser)
  | .advance => (.ok .nothing, parser.advance)
  | .isGroupStart => (.ok (.truth parser.isGroupStart), parser)
  | .readNumber => (parser.readNumber.1.map .tree, parser.readNumber.2)
  | .readGroup => (parser.readGroup.1.map .tree, parser.readGroup.2)
  | .readValue => (parser.readValue.1.map .tree, parser.readValue.2)
  | .readExpression last => ((parser.readBehind last).1.map .tree, (parser.readBehind last).2)

/-- The reader after some calls, one after the other, whether they returned or raised. -/
def performAll (parser : Parser) (calls : List Call) : Parser :=
  calls.foldl (fun parser call => (parser.perform call).2) parser

section
variable {source : String} {index : Nat} {parser : Parser}

theorem Effect.tree {outcome : Except ParseError Expression} {after : Parser}
    (effect : Effect source parser outcome index after) :
    Effect source parser (outcome.map Answer.tree) index after := by
  refine effect.of_outcome ?_ ?_
  · intro answer returned
    cases outcome with
    | error error => exact absurd returned (by simp [Except.map])
    | ok tree => exact ⟨tree, rfl⟩
  · intro error raised
    cases outcome with
    | error other => exact congrArg Except.error (Except.error.inj raised)
    | ok tree => exact absurd raised (by simp [Except.map])

theorem readGroup_effect (stands : parser.At source index) :
    ∃ further, index ≤ further ∧
      Effect source parser parser.readGroup.1 further parser.readGroup.2 := by
  rw [readGroup]
  split
  · exact read_effect_of_no_groups stands rfl
  · refine ⟨index, Nat.le_refl _, .of_still stands fun error raised => ?_⟩
    rw [← Except.error.inj raised]

theorem readBehind_effect (stands : parser.At source index) (last : Option Expression) :
    ∃ further, index ≤ further ∧
      Effect source parser (parser.readBehind last).1 further (parser.readBehind last).2 := by
  cases last with
  | none => exact ⟨index, Nat.le_refl _, readNumber_effect stands⟩
  | some value => exact read_effect_of_no_groups stands rfl

theorem perform_effect (stands : parser.At source index) (call : Call) :
    ∃ further, index ≤ further ∧
      Effect source parser (parser.perform call).1 further (parser.perform call).2 := by
  cases call with
  | parse =>
    obtain ⟨further, forward, effect⟩ := parse_effect stands
    exact ⟨further, forward, effect.tree⟩
  | advance =>
    exact ⟨index + 1, Nat.le_succ _, stands.advance, rfl, fun _ _ => rfl, by simp [perform]⟩
  | isGroupStart => exact ⟨index, Nat.le_refl _, .of_still stands (by simp [perform])⟩
  | readNumber => exact ⟨index, Nat.le_refl _, (readNumber_effect stands).tree⟩
  | readGroup =>
    obtain ⟨further, forward, effect⟩ := readGroup_effect stands
    exact ⟨further, forward, effect.tree⟩
  | readValue =>
    obtain ⟨further, forward, effect⟩ := readValue_effect stands
    exact ⟨further, forward, effect.tree⟩
  | readExpression last =>
    obtain ⟨further, forward, effect⟩ := readBehind_effect stands last
    exact ⟨further, forward, effect.tree⟩

end

theorem last_readNumber (parser : Parser) : parser.readNumber.2.last = parser.last := by
  rw [readNumber]
  split <;> rfl

/-- Only reading the whole input changes the last value. -/
theorem last_perform (parser : Parser) {call : Call} (other : call ≠ .parse) :
    (parser.perform call).2.last = parser.last := by
  cases call with
  | parse => exact absurd rfl other
  | advance => rfl
  | isGroupStart => rfl
  | readNumber => exact parser.last_readNumber
  | readGroup =>
    rw [perform, readGroup]
    split
    · exact parser.last_read _
    · rfl
  | readValue =>
    rw [perform, readValue_eq_read]
    exact parser.last_read _
  | readExpression last =>
    cases last with
    | none => exact parser.last_readNumber
    | some value => exact parser.last_read _

/-! ### Any calls -/

/-- What a call keeps when it leaves the reader at an index. Reading the whole input leaves the
latest value it completed, or the last value as it was; and once it has returned, the finish is the
current token, and reading the whole input again returns the same and changes nothing. -/
structure Kept (source : String) (before : Parser) (call : Call) (index : Nat) : Prop where
  effect : Effect source before (before.perform call).1 index (before.perform call).2
  lastKept : call ≠ .parse → (before.perform call).2.last = before.last
  lastRead : call = .parse →
    (before.perform call).2.last = before.values.getLast?.or before.last
  again : ∀ answer, call = .parse → (before.perform call).1 = .ok answer →
    (before.perform call).2.token.kind = .finish ∧
      (before.perform call).2.perform .parse = (.ok answer, (before.perform call).2)

theorem perform_kept {source : String} {index : Nat} {parser : Parser}
    (stands : parser.At source index) (call : Call) :
    ∃ further, index ≤ further ∧ Kept source parser call further := by
  obtain ⟨further, forward, effect⟩ := perform_effect stands call
  refine ⟨further, forward, effect, parser.last_perform, ?_, ?_⟩
  · rintro rfl
    rw [perform, parser_parse]
    exact parser.last_readToFinish
  · rintro answer rfl returned
    cases outcome : parser.parse.outcome with
    | error error =>
      rw [perform, outcome] at returned
      exact absurd returned (by simp [Except.map])
    | ok tree =>
      obtain ⟨finished, same, still⟩ := parse_again outcome
      refine ⟨finished, ?_⟩
      rw [← returned]
      simp only [perform, same, still, outcome]

/-- A run of calls keeps what each call keeps. The induction is on the calls, and the indices of the
calls behind the first go on from the one that the first leaves. -/
theorem performAll_kept {source : String} (calls : List Call) {start : Nat} {parser : Parser}
    (stands : parser.At source start) :
    ∃ index : Nat → Nat, Monotone index ∧ index 0 = start ∧
      ∀ done call, calls[done]? = some call →
        (parser.performAll (calls.take done)).limit = parser.limit ∧
        Kept source (parser.performAll (calls.take done)) call (index (done + 1)) := by
  induction calls generalizing start parser with
  | nil => exact ⟨fun _ => start, monotone_const, rfl, by simp⟩
  | cons first calls inductionHypothesis =>
    obtain ⟨further, forward, kept⟩ := perform_kept stands first
    obtain ⟨index, grows, rfl, others⟩ := inductionHypothesis kept.effect.stands
    -- The calls behind the first are counted from the index that it leaves.
    refine ⟨Nat.rec (motive := fun _ => Nat) start fun done _ => index done, ?_, rfl, ?_⟩
    · refine monotone_nat_of_le_succ fun done => ?_
      cases done with
      | zero => exact forward
      | succ done => exact grows (Nat.le_succ _)
    · intro done call isCall
      cases done with
      | zero =>
        obtain rfl := Option.some.inj isCall
        exact ⟨rfl, kept⟩
      | succ done =>
        obtain ⟨sameLimit, kept'⟩ := others done call isCall
        exact ⟨sameLimit.trans kept.effect.limit, kept'⟩

/-- Whatever calls are made of a reader, it stands at an index of its source after every one of
them, and the indices never go down. The stream that the indices count is the tokens of the source
with the finish repeated, and the lexer of a reader that stands at an index is right behind the
second of the two tokens in the window. -/
theorem calls_keep_window (source : String) (limit : Int) (calls : List Call) :
    (∀ index, (tokens source)[min index (words source).length]? = some (tokenAt source index)) ∧
    (∀ index (parser : Parser), parser.At source index →
      parser.lexer.position = parser.peek.position + parser.peek.text.length) ∧
    ∃ index : Nat → Nat, Monotone index ∧ (start source limit).At source (index 0) ∧
      ∀ done call, calls[done]? = some call →
        ((start source limit).performAll (calls.take done)).limit = limit ∧
        Kept source ((start source limit).performAll (calls.take done)) call
          (index (done + 1)) := by
  refine ⟨getElem?_tokens source, fun _ _ => At.behind, ?_⟩
  obtain ⟨index, grows, same, kept⟩ := performAll_kept calls (at_start source limit)
  refine ⟨index, grows, ?_, kept⟩
  rw [same]
  exact at_start source limit

end Parser

end Reckon
