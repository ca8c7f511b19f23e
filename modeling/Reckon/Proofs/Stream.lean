/-
This file says that all readers of a lexer share one stream. Single tokens,
iterations that are left early and whole tokenizations may take turns in any
order: together they give the tokens of the source from its start, each of them
once, and behind the finish the finish again.

A call is known by the tokens it gives. `Reads` says that these are the upcoming
ones and that the lexer is left behind them, and as such calls compose, a run of
calls is one reading too.
-/

import Mathlib.Order.Monotone.Basic
import Reckon.Proofs.Window
import Reckon.Proofs.Partition

namespace Reckon

namespace Lexer

/-! ### Upcoming tokens -/

theorem after_add (lexer : Lexer) (first second : Nat) :
    lexer.after (first + second) = (lexer.after first).after second := by
  induction second with
  | zero => rfl
  | succ second inductionHypothesis => rw [← Nat.add_assoc, after, inductionHypothesis, after]

/-- The next so many tokens. -/
def upcoming (lexer : Lexer) (count : Nat) : List Token :=
  (List.range count).map fun index => (lexer.after index).next.1

@[simp] theorem upcoming_zero (lexer : Lexer) : lexer.upcoming 0 = [] := rfl

theorem upcoming_succ (lexer : Lexer) (count : Nat) :
    lexer.upcoming (count + 1) = lexer.next.1 :: lexer.next.2.upcoming count := by
  simp only [upcoming, List.range_succ_eq_map, List.map_cons, List.map_map, Function.comp_def,
    after_succ]
  rfl

theorem upcoming_add (lexer : Lexer) (first second : Nat) :
    lexer.upcoming (first + second) =
      lexer.upcoming first ++ (lexer.after first).upcoming second := by
  simp only [upcoming, List.range_add, List.map_append, List.map_map, Function.comp_def, after_add]

/-- What is given is what comes next, and the lexer is left behind it. -/
structure Reads (lexer : Lexer) (given : List Token) (behind : Lexer) : Prop where
  isGiven : given = lexer.upcoming given.length
  isBehind : behind = lexer.after given.length

section
variable {lexer between behind : Lexer} {given others : List Token}

theorem Reads.nil (lexer : Lexer) : Reads lexer [] lexer :=
  ⟨rfl, rfl⟩

theorem Reads.cons (reads : Reads lexer.next.2 given behind) :
    Reads lexer (lexer.next.1 :: given) behind where
  isGiven := by rw [List.length_cons, upcoming_succ, ← reads.isGiven]
  isBehind := by rw [List.length_cons, after_succ, ← reads.isBehind]

theorem Reads.append (reads : Reads lexer given between) (onward : Reads between others behind) :
    Reads lexer (given ++ others) behind where
  isGiven := by
    rw [List.length_append, upcoming_add, ← reads.isGiven, ← reads.isBehind, ← onward.isGiven]
  isBehind := by rw [List.length_append, after_add, ← reads.isBehind, ← onward.isBehind]

theorem Reads.single (lexer : Lexer) : Reads lexer [lexer.next.1] lexer.next.2 :=
  (Reads.nil lexer.next.2).cons

end

/-! ### Calls -/

/-- A new iteration that is left after so many tokens, or after the finish. -/
def iterate (lexer : Lexer) : Nat → List Token × Lexer
  | 0 => ([], lexer)
  | count + 1 =>
    let found := lexer.next
    if found.1.kind = .finish then ([found.1], found.2)
    else
      let others := found.2.iterate count
      (found.1 :: others.1, others.2)

/-- To take one token of a new iteration is to ask for the next one. -/
theorem iterate_one (lexer : Lexer) : lexer.iterate 1 = ([lexer.next.1], lexer.next.2) := by
  simp only [iterate, ite_self]

theorem iterate_reads (lexer : Lexer) (count : Nat) :
    Reads lexer (lexer.iterate count).1 (lexer.iterate count).2 := by
  induction count generalizing lexer with
  | zero => exact .nil lexer
  | succ count inductionHypothesis =>
    rw [iterate]
    split
    · exact .single lexer
    · exact (inductionHypothesis lexer.next.2).cons

theorem readAll_reads (lexer : Lexer) : Reads lexer lexer.readAll.1 lexer.readAll.2 := by
  fun_induction readAll lexer with
  | case1 lexer found finished => exact .single lexer
  | case2 lexer found more others inductionHypothesis => exact inductionHypothesis.cons

/-- A call of a lexer: for the next token, for a new iteration that is left after so many tokens,
for all tokens that are left, or for the line. -/
inductive Call
  | next
  | iterate (count : Nat)
  | tokenize
  | line

/-- What a call answers. -/
inductive Answer
  | single (token : Token)
  | several (tokens : List Token)
  | number (lines : Nat)

/-- The tokens in an answer. -/
def Answer.given : Answer → List Token
  | .single token => [token]
  | .several tokens => tokens
  | .number _ => []

/-- The answer of a call, and the lexer behind it. -/
def perform (lexer : Lexer) : Call → Answer × Lexer
  | .next => (.single lexer.next.1, lexer.next.2)
  | .iterate count => (.several (lexer.iterate count).1, (lexer.iterate count).2)
  | .tokenize => (.several lexer.readAll.1, lexer.readAll.2)
  | .line => (.number lexer.line, lexer)

/-- The answers of some calls, one after the other, and the lexer behind all of them. -/
def performAll (lexer : Lexer) : List Call → List Answer × Lexer
  | [] => ([], lexer)
  | call :: calls =>
    let done := lexer.perform call
    let others := done.2.performAll calls
    (done.1 :: others.1, others.2)

/-- The tokens that some calls give, one after the other. -/
def given (lexer : Lexer) (calls : List Call) : List Token :=
  (lexer.performAll calls).1.flatMap Answer.given

/-- Every call reads on from where the lexer is. -/
theorem perform_reads (lexer : Lexer) (call : Call) :
    Reads lexer (lexer.perform call).1.given (lexer.perform call).2 := by
  cases call with
  | next => exact .single lexer
  | iterate count => exact lexer.iterate_reads count
  | tokenize => exact lexer.readAll_reads
  | line => exact .nil lexer

/-- And so does a run of calls. -/
theorem performAll_reads (lexer : Lexer) (calls : List Call) :
    Reads lexer (lexer.given calls) (lexer.performAll calls).2 := by
  induction calls generalizing lexer with
  | nil => exact .nil lexer
  | cons call calls inductionHypothesis =>
    exact (lexer.perform_reads call).append (inductionHypothesis _)

/-! ### What is left -/

/-- Further on the same tokens are left but for those that were passed. The finish is always
left. -/
theorem readAll_after (lexer : Lexer) (index : Nat) :
    (lexer.after index).readAll.1 =
      lexer.readAll.1.drop (min index (lexer.readAll.1.length - 1)) := by
  fun_induction readAll lexer generalizing index with
  | case1 lexer found finished =>
    have same := next_after_of_finish finished index
    rw [readAll, same, if_pos finished]
    simp [found]
  | case2 lexer found more others inductionHypothesis =>
    cases index with
    | zero =>
      rw [Nat.zero_min, after, readAll, if_neg more]
      rfl
    | succ index =>
      obtain ⟨words, finish, finished⟩ := found.2.readAll_finished
      have length : others.1.length = (others.1.length - 1) + 1 := by
        rw [finished.parts, List.length_append]
        rfl
      rw [List.length_cons, Nat.add_sub_cancel, length, Nat.succ_min_succ, List.drop_succ_cons,
        after_succ, inductionHypothesis]

/-! ### Places -/

theorem position_next_le (lexer : Lexer) : lexer.position ≤ lexer.next.2.position := by
  simp only [next, skipBlanks, skip]
  omega

theorem monotone_position_after (lexer : Lexer) :
    Monotone fun index => (lexer.after index).position :=
  monotone_nat_of_le_succ fun index => (lexer.after index).position_next_le

/-- A lexer keeps track of the text that it has passed. -/
theorem exists_passed_after (source : String) (index : Nat) :
    ∃ passed, Passed source.toList passed ((start source).after index) := by
  induction index with
  | zero => exact ⟨[], passed_start source⟩
  | succ index inductionHypothesis =>
    obtain ⟨passed, kept⟩ := inductionHypothesis
    exact ⟨_, kept.skipBlanks.skip _⟩

theorem line_after (source : String) (index : Nat) :
    ((start source).after index).line =
      (source.toList.take ((start source).after index).position).count '\n' := by
  obtain ⟨passed, kept⟩ := exists_passed_after source index
  rw [kept.line, kept.position, kept.parts, List.take_left]

/-! ### One stream -/

/-- What a call answers and leaves behind so many tokens of a source. It gives the tokens that come
next, and if it asks for all of them, these are the ones that are left, the finish at least. The
place never moves back, and the line is the number of line ends before the place. To ask for the
line changes nothing. -/
structure Shares (source : String) (index : Nat) (before : Lexer) (call : Call) : Prop where
  given : (before.perform call).1.given =
    (List.range' index (before.perform call).1.given.length).map (tokenAt source)
  tokenized : call = .tokenize →
    (before.perform call).1 = .several ((tokens source).drop (min index (words source).length))
  onward : before.position ≤ (before.perform call).2.position
  line : (before.perform call).2.line =
    (source.toList.take (before.perform call).2.position).count '\n'
  asked : call = .line → before.perform call =
    (.number ((source.toList.take before.position).count '\n'), before)

theorem perform_shares (source : String) (index : Nat) (call : Call) :
    Shares source index ((start source).after index) call := by
  have reads := ((start source).after index).perform_reads call
  refine ⟨?_, ?_, ?_, ?_, ?_⟩
  · refine reads.isGiven.trans ?_
    simp only [upcoming, List.range'_eq_map_range, List.map_map, Function.comp_def, ← after_add]
    rfl
  · rintro rfl
    rw [perform, readAll_after, words, List.length_dropLast]
    rfl
  · rw [reads.isBehind]
    exact monotone_position_after _ (Nat.zero_le _)
  · rw [reads.isBehind, ← after_add]
    exact line_after source _
  · rintro rfl
    rw [perform, line_after]

/-- Whatever calls are made of a lexer, all tokens that they give are, one after the other, those of
the source from its start, with the finish repeated; and any further call goes on behind them. -/
theorem calls_share_stream (source : String) (calls : List Call) :
    (∀ index, (tokens source)[min index (words source).length]? = some (tokenAt source index)) ∧
    (start source).given calls =
      (List.range ((start source).given calls).length).map (tokenAt source) ∧
    ∀ call, Shares source ((start source).given calls).length
      ((start source).performAll calls).2 call := by
  have reads := (start source).performAll_reads calls
  refine ⟨getElem?_tokens source, reads.isGiven, fun call => ?_⟩
  rw [reads.isBehind]
  exact perform_shares source _ call

end Lexer

end Reckon
