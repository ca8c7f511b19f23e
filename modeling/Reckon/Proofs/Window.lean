/-
This file follows the window of the reader over the tokens of its source. The
reader stands at an index: the current token is the one at the index, the next
one is behind it, and the lexer has just passed both.

A reading moves the window forward and counts the groups it opens and closes.
What one token does to the count and to the open groups is said in `step_ok` and
`step_error`. From there `read_effect` goes over all the tokens of a value: the
count is back where it was when there is a value, and where the reader was
stopped it has groups left that were open, of which the last may have been one
too many.
-/

import Reckon.Proofs.Contents

namespace Reckon

/-! ### The stream of tokens -/

namespace Lexer

theorem skip_zero (lexer : Lexer) : lexer.skip 0 = lexer := by
  simp [skip]

/-- At the finish the lexer stays where it is. -/
theorem next_of_finish {lexer : Lexer} (finished : lexer.next.1.kind = .finish) :
    lexer.next.2.next = lexer.next := by
  have nothing : lexer.skipBlanks.ahead = [] := by
    cases ahead : lexer.skipBlanks.ahead with
    | nil => rfl
    | cons char rest =>
      refine absurd ?_ (scan_cons lexer.skipBlanks.before char rest).1
      rw [← ahead]
      exact finished
  have stays : lexer.next.2 = lexer.skipBlanks := by
    rw [next, nothing, scan]
    exact skip_zero _
  have again : lexer.skipBlanks.skipBlanks = lexer.skipBlanks := by
    rw [skipBlanks, nothing]
    exact skip_zero _
  rw [stays, next, again]
  rfl

/-- The place behind so many tokens. -/
def after (lexer : Lexer) : Nat → Lexer
  | 0 => lexer
  | count + 1 => (lexer.after count).next.2

theorem after_succ (lexer : Lexer) (count : Nat) :
    lexer.after (count + 1) = lexer.next.2.after count := by
  induction count with
  | zero => rfl
  | succ count inductionHypothesis =>
    rw [after, inductionHypothesis]
    rfl

theorem next_after_of_finish {lexer : Lexer} (finished : lexer.next.1.kind = .finish)
    (count : Nat) : (lexer.after count).next = lexer.next := by
  induction count with
  | zero => rfl
  | succ count inductionHypothesis =>
    rw [after, inductionHypothesis]
    exact next_of_finish finished

/-- The tokens from a place on are those that the lexer gives one after the other, and it goes on
with the last of them. -/
theorem getElem?_readAll (lexer : Lexer) (index : Nat) :
    lexer.readAll.1[min index (lexer.readAll.1.length - 1)]? =
      some (lexer.after index).next.1 := by
  fun_induction readAll lexer generalizing index with
  | case1 lexer found finished =>
    rw [next_after_of_finish finished]
    simp [found]
  | case2 lexer found more others inductionHypothesis =>
    cases index with
    | zero =>
      rw [Nat.zero_min]
      rfl
    | succ index =>
      obtain ⟨words, finish, finished⟩ := found.2.readAll_finished
      have length : others.1.length = (others.1.length - 1) + 1 := by
        rw [finished.parts, List.length_append]
        rfl
      rw [List.length_cons, Nat.add_sub_cancel, length, Nat.succ_min_succ,
        List.getElem?_cons_succ, inductionHypothesis, after_succ]

end Lexer

/-- The token of a source behind so many others. Behind the finish there is only the finish. -/
def tokenAt (source : String) (index : Nat) : Token :=
  ((Lexer.start source).after index).next.1

theorem getElem?_tokens (source : String) (index : Nat) :
    (tokens source)[min index (words source).length]? = some (tokenAt source index) := by
  rw [words, List.length_dropLast]
  exact (Lexer.start source).getElem?_readAll index

/-! ### One token of a reading -/

namespace Reading

/-- The groups of a reading are counted on top of those that were left open before, and those that
it opened are within the limit. -/
structure Counted (limit : Int) (base : Nat) (reading : Reading) (depth : Nat) : Prop where
  sum : depth = base + reading.groups.length
  bound : (depth : Int) ≤ max (base : Int) limit

section
variable {limit : Int} {base depth depth' : Nat} {reading further : Reading} {token : Token}
  {error : ParseError}

/-- Behind a token that is read the groups are counted right. -/
theorem step_ok (counted : Counted limit base reading depth)
    (taken : reading.step limit depth token = (depth', .ok further)) :
    Counted limit base further depth' ∧
      ∀ group ∈ further.groups, group ∈ reading.groups ∨ group.opener = token := by
  obtain ⟨sum, bound⟩ := counted
  cases steps_of_eq taken with
  | number _ | operator _ => exact ⟨⟨sum, bound⟩, fun group member => .inl member⟩
  | opening _ room =>
    refine ⟨⟨congrArg (· + 1) sum, by omega⟩, fun group member => ?_⟩
    cases member with
    | head => exact .inr rfl
    | tail _ member => exact .inl member
  | closing _ =>
    simp only [List.length_cons] at sum
    exact ⟨⟨by simp only; omega, by omega⟩, fun group member => .inl (.tail _ member)⟩

/-- A token that is refused leaves the count as high as it was before any group, and not more than
one higher than it may be. The error names the token or the opener of an open group. -/
theorem step_error (counted : Counted limit base reading depth)
    (refused : reading.step limit depth token = (depth', .error error)) :
    base ≤ depth' ∧ (depth' : Int) ≤ max (base : Int) limit + 1 ∧
      (error.token = token ∨ ∃ group ∈ reading.groups, error.token = group.opener) := by
  obtain ⟨sum, bound⟩ := counted
  cases steps_of_eq refused with
  | nested _ _ | unclosed _ _ | noOperand _ _ _ | noOperator _ _ =>
    exact ⟨by omega, by omega, .inl rfl⟩
  | @empty group groups _ =>
    simp only [List.length_cons] at sum
    exact ⟨by omega, by omega, .inr ⟨group, .head _, rfl⟩⟩

end

end Reading

/-! ### The window -/

namespace Parser

/-- The reader stands at an index of its source: it sees the token there and the next one, and the
lexer is just behind the two. -/
structure At (source : String) (index : Nat) (parser : Parser) : Prop where
  token : parser.token = tokenAt source index
  peek : parser.peek = tokenAt source (index + 1)
  lexer : parser.lexer = (Lexer.start source).after (index + 2)

theorem at_start (source : String) (limit : Int) : (start source limit).At source 0 :=
  ⟨rfl, rfl, rfl⟩

theorem At.advance {source : String} {index : Nat} {parser : Parser}
    (stands : parser.At source index) : parser.advance.At source (index + 1) where
  token := stands.peek
  peek := congrArg (fun lexer => lexer.next.1) stands.lexer
  lexer := congrArg (fun lexer => lexer.next.2) stands.lexer

/-- The reader moves on behind a value, whatever it keeps of it. -/
theorem At.advance_last {source : String} {index : Nat} {parser : Parser}
    (stands : parser.At source index) (last : Option Expression) :
    ({ parser with last } : Parser).advance.At source (index + 1) :=
  At.advance ⟨stands.token, stands.peek, stands.lexer⟩

/-- The lexer is right behind the text of the next token. -/
theorem At.behind {source : String} {index : Nat} {parser : Parser}
    (stands : parser.At source index) :
    parser.lexer.position = parser.peek.position + parser.peek.text.length := by
  rw [stands.lexer, stands.peek]
  rfl

/-- What a call does to a reader that it leaves at an index. A call that returns leaves the count of
open groups as it was. One that raises leaves it as high at least, and no higher than one more than
it was or may be, and the error names a token that was passed or is seen. -/
structure Effect {Answer : Type} (source : String) (before : Parser)
    (outcome : Except ParseError Answer) (index : Nat) (after : Parser) : Prop where
  stands : after.At source index
  limit : after.limit = before.limit
  returned : ∀ answer, outcome = .ok answer → after.depth = before.depth
  raised : ∀ error, outcome = .error error → before.depth ≤ after.depth ∧
    (after.depth : Int) ≤ max (before.depth : Int) before.limit + 1 ∧
    ∃ passed ≤ index, error.token = tokenAt source passed

section
variable {source : String} {index : Nat} {before after : Parser}

/-- What happens where nothing moves and nothing is wrong with any token but the current one. -/
theorem Effect.of_still {Answer : Type} {parser : Parser} (stands : parser.At source index)
    {outcome : Except ParseError Answer}
    (named : ∀ error, outcome = .error error → error.token = parser.token) :
    Effect source parser outcome index parser where
  stands := stands
  limit := rfl
  returned := fun _ _ => rfl
  raised := by
    intro error raised
    refine ⟨Nat.le_refl _, by omega, index, Nat.le_refl _, ?_⟩
    rw [named error raised, stands.token]

/-- Only the count and the limit of the reader before are compared. -/
theorem Effect.of_before {Answer : Type} {outcome : Except ParseError Answer} {before' : Parser}
    (effect : Effect source before outcome index after) (depth : before'.depth = before.depth)
    (limit : before'.limit = before.limit) : Effect source before' outcome index after where
  stands := effect.stands
  limit := effect.limit.trans limit.symm
  returned := fun answer returned => (effect.returned answer returned).trans depth.symm
  raised := by
    rw [depth, limit]
    exact effect.raised

/-- Only whether a call returned is asked of its answer. -/
theorem Effect.of_outcome {Answer Answer' : Type} {outcome : Except ParseError Answer}
    {outcome' : Except ParseError Answer'} (effect : Effect source before outcome index after)
    (returned : ∀ answer', outcome' = .ok answer' → ∃ answer, outcome = .ok answer)
    (raised : ∀ error, outcome' = .error error → outcome = .error error) :
    Effect source before outcome' index after where
  stands := effect.stands
  limit := effect.limit
  returned := by
    intro answer' same
    obtain ⟨answer, same⟩ := returned answer' same
    exact effect.returned answer same
  raised := fun error same => effect.raised error (raised error same)

end

/-- The openers of the groups of a reading have been passed. -/
def Opened (source : String) (index : Nat) (reading : Reading) : Prop :=
  ∀ group ∈ reading.groups, ∃ passed ≤ index, group.opener = tokenAt source passed

/-- The induction follows the reader token by token. What it keeps is that the groups are counted
right and that their openers have been passed. -/
theorem read_effect {source : String} {index base : Nat} {parser : Parser} {reading : Reading}
    (stands : parser.At source index)
    (counted : Reading.Counted parser.limit base reading parser.depth)
    (opened : Opened source index reading) :
    ∃ further, index ≤ further ∧ Effect source { parser with depth := base }
      (parser.read reading).1 further (parser.read reading).2 := by
  fun_induction read parser reading generalizing index with
  | case1 parser reading depth error refused =>
    obtain ⟨below, above, named⟩ := Reading.step_error counted refused
    refine ⟨index, Nat.le_refl _, ⟨stands.token, stands.peek, stands.lexer⟩, rfl, by simp, ?_⟩
    intro other same
    obtain rfl := Except.error.inj same
    refine ⟨below, above, ?_⟩
    rcases named with current | ⟨group, member, opener⟩
    · exact ⟨index, Nat.le_refl _, current.trans stands.token⟩
    · rw [opener]
      exact opened group member
  | case2 parser reading depth further taken tree complete =>
    obtain ⟨counted, _⟩ := Reading.step_ok counted taken
    obtain ⟨waiting, value, rfl, _⟩ := Reading.result?_eq_some complete
    refine ⟨index, Nat.le_refl _, ⟨stands.token, stands.peek, stands.lexer⟩, rfl, ?_, by simp⟩
    intro answer _
    exact counted.sum
  | case3 parser reading depth further taken incomplete inductionHypothesis =>
    obtain ⟨counted, groups⟩ := Reading.step_ok counted taken
    have opened : Opened source (index + 1) further := by
      intro group member
      rcases groups group member with earlier | opener
      · obtain ⟨passed, bound, same⟩ := opened group earlier
        exact ⟨passed, Nat.le_succ_of_le bound, same⟩
      · exact ⟨index, Nat.le_succ _, opener.trans stands.token⟩
    have moved : ({ parser with depth } : Parser).advance.At source (index + 1) :=
      At.advance ⟨stands.token, stands.peek, stands.lexer⟩
    obtain ⟨last, forward, effect⟩ := inductionHypothesis moved counted opened
    exact ⟨last, Nat.le_of_succ_le forward, effect.stands, effect.limit, effect.returned,
      effect.raised⟩

theorem last_read (parser : Parser) (reading : Reading) :
    (parser.read reading).2.last = parser.last := by
  fun_induction read parser reading with
  | case1 parser reading depth error refused => rfl
  | case2 parser reading depth further taken tree complete => rfl
  | case3 parser reading depth further taken incomplete inductionHypothesis =>
    exact inductionHypothesis

/-! ### One value -/

section
variable {parser : Parser} {reading further : Reading} {depth : Nat}

/-- What can be read is not the finish. -/
theorem kind_ne_finish_of_ok
    (taken : reading.step parser.limit parser.depth parser.token = (depth, .ok further)) :
    parser.token.kind ≠ .finish := by
  intro finished
  obtain ⟨_, _, refused⟩ := step_finish parser.limit parser.depth reading parser.token finished
  exact absurd (taken.symm.trans refused) (by simp)

end

theorem groups_valueReading (parser : Parser) : parser.valueReading.groups = [] := by
  rw [valueReading]
  split
  · rfl
  · cases parser.last <;> rfl

section
variable {source : String} {index : Nat} {parser : Parser}

/-- A reading without groups starts with the count as it is. -/
theorem read_effect_of_no_groups (stands : parser.At source index) {reading : Reading}
    (none : reading.groups = []) :
    ∃ further, index ≤ further ∧
      Effect source parser (parser.read reading).1 further (parser.read reading).2 := by
  refine read_effect stands ⟨by rw [none]; rfl, Int.le_max_left _ _⟩ ?_
  intro group member
  rw [none] at member
  exact absurd member List.not_mem_nil

theorem readValue_effect (stands : parser.At source index) :
    ∃ further, index ≤ further ∧
      Effect source parser parser.readValue.1 further parser.readValue.2 := by
  rw [readValue_eq_read]
  exact read_effect_of_no_groups stands parser.groups_valueReading

theorem readNumber_effect (stands : parser.At source index) :
    Effect source parser parser.readNumber.1 index parser.readNumber.2 := by
  rw [readNumber]
  split
  · exact .of_still stands (by simp)
  · refine .of_still stands fun error raised => ?_
    rw [← Except.error.inj raised]
    rfl

end

end Parser

end Reckon
