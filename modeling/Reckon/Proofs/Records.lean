/-
This file says what reading a source writes to the journal. A call writes one
record, of the tree that it returns or of the error that it raises, wherever the
error comes from. One error is found behind the place where errors are written
down, and it is not written at all: that there is no value once the whole input
has been read.

A reader has nothing to return only where it stands at the finish and has no
value from before. For one that stands at the start of its source, the source is
then all blanks.
-/

import Reckon.Proofs.Calls
import Reckon.Proofs.Partition

namespace Reckon

/-! ### Errors on the way -/

namespace Reading

/-- No token is refused because the input is empty. -/
theorem cause_of_step {limit : Int} {depth depth' : Nat} {reading : Reading} {token : Token}
    {error : ParseError}
    (refused : reading.step limit depth token = (depth', .error error)) :
    error.cause ≠ .emptyInput := by
  cases steps_of_eq refused with
  | nested _ _ | empty _ | unclosed _ _ => simp
  | noOperand _ _ _ => rcases cause_refuse .operandExpected token with same | same <;> simp [same]
  | noOperator _ _ => rcases cause_refuse .operatorExpected token with same | same <;> simp [same]

end Reading

namespace Parser

theorem cause_of_read {parser rest : Parser} {reading : Reading} {error : ParseError}
    (stopped : parser.read reading = (.error error, rest)) : error.cause ≠ .emptyInput := by
  fun_induction read parser reading with
  | case1 parser reading depth other refused =>
    obtain ⟨same, _⟩ := Prod.mk.inj stopped
    exact Except.error.inj same ▸ Reading.cause_of_step refused
  | case2 parser reading depth further taken tree complete => simp at stopped
  | case3 parser reading depth further taken incomplete inductionHypothesis =>
    exact inductionHypothesis stopped

theorem cause_of_readToFinish {parser rest : Parser} {error : ParseError}
    (stopped : parser.readToFinish = (some error, rest)) : error.cause ≠ .emptyInput := by
  fun_induction readToFinish parser with
  | case1 parser finished => simp at stopped
  | case2 parser more other rest' outcome =>
    obtain ⟨same, _⟩ := Prod.mk.inj stopped
    rw [readValue_eq_read] at outcome
    exact Option.some.inj same ▸ cause_of_read outcome
  | case3 parser more tree rest' outcome inductionHypothesis => exact inductionHypothesis stopped

/-! ### One call -/

/-- Whether there is nothing for a call to return. -/
def Empty (parser : Parser) : Prop :=
  parser.token.kind = .finish ∧ parser.last = none

/-- A reader that gets to the finish without a value had nothing to read, and no value from
before. -/
theorem empty_of_readToFinish {parser rest : Parser} (stopped : parser.readToFinish = (none, rest))
    (noValue : rest.last = none) : parser.Empty := by
  have latest := parser.last_readToFinish
  rw [stopped, noValue] at latest
  obtain ⟨noValues, noLast⟩ := Option.or_eq_none_iff.mp latest.symm
  refine ⟨?_, noLast⟩
  by_contra more
  cases outcome : parser.readValue with
  | mk answer behind =>
    cases answer with
    | error error =>
      rw [readToFinish_of_error more outcome] at stopped
      simp at stopped
    | ok tree =>
      rw [values_of_ok more outcome] at noValues
      simp at noValues

/-- The record of what a call came to. -/
def record (source : String) : Except ParseError Expression → Journal.Record
  | .ok tree => ⟨Journal.debug, logger,
    "Parsed " ++ Text.quoted source ++ " (height " ++ toString tree.height ++ ")"⟩
  | .error error => ⟨Journal.debug, logger,
    "Parse failed for " ++ Text.quoted source ++ ": " ++ error.message⟩

/-- A call of a reader writes one record of what it comes to, if there is anything to read or a
value from before. -/
theorem records_of_not_empty {parser : Parser} (more : ¬ parser.Empty) :
    parser.parse.records = [record parser.source parser.parse.outcome] ∧
      ∀ error, parser.parse.outcome = .error error → error.cause ≠ .emptyInput := by
  unfold parse
  cases stopped : parser.readToFinish with
  | mk failure rest =>
    cases failure with
    | some error =>
      refine ⟨rfl, fun other raised => ?_⟩
      exact Except.error.inj raised ▸ cause_of_readToFinish stopped
    | none =>
      cases last : rest.last with
      | none => exact absurd (empty_of_readToFinish stopped last) more
      | some tree => exact ⟨by simp only [last]; rfl, by simp [last]⟩

theorem parse_of_empty {parser : Parser} (empty : parser.Empty) :
    parser.parse = ⟨.error ⟨.emptyInput, parser.token⟩, parser, []⟩ := by
  rw [parse, readToFinish_of_finish empty.1]
  simp only [empty.2]

/-! ### One source -/

/-- The first token of a source is the finish if all of the source is blank. -/
theorem empty_start_iff (source : String) (limit : Int) :
    (start source limit).Empty ↔ ∀ char ∈ source.toList, Lexer.isBlank char = true := by
  have nothing : (Lexer.start source).skipBlanks.ahead = [] ↔
      ∀ char ∈ source.toList, Lexer.isBlank char = true := by
    rw [Lexer.ahead_skipBlanks]
    exact List.dropWhile_eq_nil_iff
  rw [← nothing]
  constructor
  · rintro ⟨finished, _⟩
    exact ahead_of_finish finished
  · intro none
    refine ⟨?_, rfl⟩
    show (Lexer.scan _ (Lexer.start source).skipBlanks.ahead).1 = .finish
    rw [none]
    rfl

/-- A call of a reader at the start of its source writes exactly one record, of the tree that it
returns or of the error that it raises, unless the source is all blanks. Then it writes none, and
raises the error that the input is empty, which it raises for no other source. -/
theorem records_start (source : String) (limit : Int) :
    ((∃ char ∈ source.toList, Lexer.isBlank char = false) →
      (start source limit).parse.records = [record source (start source limit).parse.outcome] ∧
      ∀ error, (start source limit).parse.outcome = .error error → error.cause ≠ .emptyInput) ∧
    ((∀ char ∈ source.toList, Lexer.isBlank char = true) →
      (start source limit).parse.records = [] ∧
      (start source limit).parse.outcome =
        .error ⟨.emptyInput, ⟨.finish, [], source.length, source.toList.count '\n'⟩⟩) := by
  constructor
  · rintro ⟨char, member, solid⟩
    refine records_of_not_empty fun empty => ?_
    have blank := (empty_start_iff source limit).mp empty char member
    exact absurd blank (Bool.eq_false_iff.mp solid)
  · intro blank
    have empty := (empty_start_iff source limit).mpr blank
    have allPassed := (Lexer.passed_start source).skipBlanks
    rw [show (Lexer.start source).ahead = source.toList from rfl,
      List.takeWhile_eq_self_iff.mpr blank, List.nil_append] at allPassed
    have finish : (start source limit).token =
        ⟨.finish, [], source.length, source.toList.count '\n'⟩ := by
      show (Lexer.start source).next.1 = _
      rw [Lexer.next_of_ahead_nil (ahead_of_finish empty.1), allPassed.position, allPassed.line,
        String.length_toList]
    rw [parse_of_empty empty, finish]
    exact ⟨rfl, rfl⟩

end Parser

end Reckon
