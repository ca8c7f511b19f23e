/-
This file says how the tokens of a source lie over it. Nothing of the source is
lost and nothing is read twice: blanks and lexemes take turns up to the end,
where the finish is.

A lexeme is judged between the character before it and the whole text behind
it, so that it cannot be cut short: `Lexeme` has one case for each way to read
one. `Laid` then follows the reader, with the text passed and the text ahead,
and what holds of every token is shown once by induction on it. A character of
the source is found in the token that covers it (`Laid.covers`), and what that
token looks like says where a run or a sign belongs.
-/

import Reckon.Proofs.Cut

namespace Reckon

/-! ### Places in a source -/

namespace Lexer

/-- What a place knows of a source when this much of it is passed. -/
structure Passed (source passed : List Char) (lexer : Lexer) : Prop where
  parts : source = passed ++ lexer.ahead
  before : lexer.before = passed.getLast?
  position : lexer.position = passed.length
  line : lexer.line = passed.count '\n'

theorem passed_start (source : String) : Passed source.toList [] (start source) :=
  ⟨rfl, rfl, rfl, rfl⟩

variable {source passed : List Char} {lexer : Lexer}

theorem Passed.skip (kept : Passed source passed lexer) (count : Nat) :
    Passed source (passed ++ lexer.ahead.take count) (lexer.skip count) where
  parts := by
    rw [List.append_assoc, kept.parts]
    exact congrArg _ (List.take_append_drop count lexer.ahead).symm
  before := by
    rw [List.getLast?_append, ← kept.before]
    rfl
  position := by
    rw [List.length_append, ← kept.position]
    rfl
  line := by
    rw [List.count_append, ← kept.line]
    rfl

theorem Passed.skipBlanks (kept : Passed source passed lexer) :
    Passed source (passed ++ lexer.ahead.takeWhile isBlank) lexer.skipBlanks := by
  have blanks := kept.skip (lexer.ahead.takeWhile isBlank).length
  rwa [take_takeWhile] at blanks

end Lexer

/-! ### Lexemes -/

section
variable {belongs : Char → Bool}

theorem runEnds_dropWhile (rest : List Char) : RunEnds belongs (rest.dropWhile belongs) := by
  intro next isNext
  have head := List.head?_dropWhile_not belongs rest
  rw [Option.mem_def.mp isNext] at head
  exact head

theorem runEnds_of_any {rest : List Char} (ends : rest.head?.any belongs = false) :
    RunEnds belongs rest := by
  intro next isNext
  rwa [Option.mem_def.mp isNext] at ends

/-- Of two runs at one place the one that ends is the longer one. -/
theorem length_le_of_ends {long short behindLong behindShort : List Char}
    (same : long ++ behindLong = short ++ behindShort)
    (all : ∀ char ∈ long, belongs char = true) (ends : RunEnds belongs behindLong)
    (within : ∀ char ∈ short, belongs char = true) : short.length ≤ long.length := by
  rw [← takeWhile_of_ends all ends, same, List.takeWhile_append_of_pos within,
    List.length_append]
  exact Nat.le_add_right _ _

/-- Two runs at one place that both end are the same. -/
theorem eq_of_ends {first second behindFirst behindSecond : List Char}
    (same : first ++ behindFirst = second ++ behindSecond)
    (all : ∀ char ∈ first, belongs char = true) (ends : RunEnds belongs behindFirst)
    (all' : ∀ char ∈ second, belongs char = true) (ends' : RunEnds belongs behindSecond) :
    first = second := by
  rw [← takeWhile_of_ends all ends, same, takeWhile_of_ends all' ends']

end

open Lexer Numeral

/-- The kind of the token that a run of digits and points becomes, with its sign. -/
def Kind.ofNumeric (run : List Char) : Kind :=
  if accepts run then .number else .illegal

theorem Kind.ofNumeric_cases (run : List Char) :
    Kind.ofNumeric run = .number ∨ Kind.ofNumeric run = .illegal := by
  rw [Kind.ofNumeric]
  split
  · exact .inl rfl
  · exact .inr rfl

/-- How a lexeme is read: the character before it, its characters, the text behind it, and the
kind of its token. -/
inductive Lexeme (before : Option Char) : List Char → List Char → Kind → Prop
  | comparison {run rest : List Char} (some : run ≠ [])
      (all : ∀ char ∈ run, isComparison char = true) (ends : RunEnds isComparison rest) :
      Lexeme before run rest (Kind.ofLexeme run)
  | numeric {run rest : List Char} (some : run ≠ [])
      (all : ∀ char ∈ run, isNumeric char = true) (ends : RunEnds isNumeric rest) :
      Lexeme before run rest (Kind.ofNumeric run)
  | signed {sign : Char} {run rest : List Char} (isSign : isSign sign = true)
      (fresh : before.any isNumeric = false) (some : run ≠ [])
      (all : ∀ char ∈ run, isNumeric char = true) (ends : RunEnds isNumeric rest) :
      Lexeme before (sign :: run) rest (Kind.ofNumeric (sign :: run))
  | single {char : Char} {rest : List Char} (notBlank : isBlank char = false)
      (notComparison : isComparison char = false)
      (begins : beginsNumber before char rest = false) :
      Lexeme before [char] rest (Kind.ofLexeme [char])

section
variable {before : Option Char} {text rest : List Char} {kind : Kind}

theorem Lexeme.ne_nil (lexeme : Lexeme before text rest kind) : text ≠ [] := by
  cases lexeme with
  | comparison some => exact some
  | numeric some => exact some
  | signed => exact List.cons_ne_nil _ _
  | single => exact List.cons_ne_nil _ _

theorem Lexeme.ne_finish (lexeme : Lexeme before text rest kind) : kind ≠ .finish := by
  have numeric (run : List Char) : Kind.ofNumeric run ≠ .finish := by
    rcases Kind.ofNumeric_cases run with number | illegal
    · exact number ▸ Kind.noConfusion
    · exact illegal ▸ Kind.noConfusion
  cases lexeme with
  | comparison => exact Kind.ofLexeme_ne_finish _
  | numeric => exact numeric _
  | signed => exact numeric _
  | single => exact Kind.ofLexeme_ne_finish _

end

/-! ### The lexeme around a character -/

theorem isComparison_apart {char : Char} (comparison : isComparison char = true) :
    isBlank char = false ∧ isNumeric char = false ∧ isSign char = false := by
  simp only [isComparison, Bool.or_eq_true, beq_iff_eq] at comparison
  rcases comparison with ((rfl | rfl) | rfl) | rfl <;> decide

theorem append_cons_eq_singleton {Item : Type} {head tail : List Item} {item other : Item}
    (same : [other] = head ++ item :: tail) : head = [] ∧ other = item ∧ tail = [] := by
  cases head with
  | nil => simpa using same
  | cons next head => simp at same

section
variable {before : Option Char} {text rest : List Char} {kind : Kind}

/-- There is no blank in a lexeme. -/
theorem Lexeme.isBlank_eq_false (lexeme : Lexeme before text rest kind) :
    ∀ char ∈ text, isBlank char = false := by
  cases lexeme with
  | comparison some all => exact fun char member => (isComparison_apart (all char member)).1
  | numeric some all => exact fun char member => (isNumeric_apart (all char member)).1
  | signed isSign fresh some all =>
    exact List.forall_mem_cons.mpr
      ⟨(isSign_apart isSign).1, fun char member => (isNumeric_apart (all char member)).1⟩
  | single notBlank => exact List.forall_mem_singleton.mpr notBlank

/-- Of the text behind it a lexeme sees the first character. -/
theorem Lexeme.of_head {rest' : List Char} (lexeme : Lexeme before text rest kind)
    (same : rest'.head? = rest.head?) : Lexeme before text rest' kind := by
  have runEnds {belongs : Char → Bool} (ends : RunEnds belongs rest) : RunEnds belongs rest' := by
    rw [RunEnds, same]
    exact ends
  cases lexeme with
  | comparison some all ends => exact .comparison some all (runEnds ends)
  | numeric some all ends => exact .numeric some all (runEnds ends)
  | signed isSign fresh some all ends => exact .signed isSign fresh some all (runEnds ends)
  | single notBlank notComparison begins =>
    refine .single notBlank notComparison ?_
    rwa [beginsNumber, same]

/-- A token of the kind of numbers is a numeral. -/
theorem Lexeme.accepts_text (lexeme : Lexeme before text rest kind) (isNumber : kind = .number) :
    accepts text = true := by
  have named (run : List Char) : Kind.ofLexeme run ≠ .number := by
    unfold Kind.ofLexeme
    split <;> simp
  have numeric (run : List Char) (same : Kind.ofNumeric run = .number) :
      Numeral.accepts run = true := by
    unfold Kind.ofNumeric at same
    split at same
    · assumption
    · exact absurd same (by simp)
  cases lexeme with
  | comparison => exact absurd isNumber (named _)
  | numeric => exact numeric _ isNumber
  | signed => exact numeric _ isNumber
  | single => exact absurd isNumber (named _)

/-- A lexeme in front of a text becomes a token. -/
theorem Lexeme.contents_append (lexeme : Lexeme before text rest kind) :
    contents before (text ++ rest) = ⟨kind, text⟩ :: contents text.getLast? rest := by
  have notBlank := lexeme.isBlank_eq_false
  cases lexeme with
  | comparison some all ends =>
    obtain ⟨char, run, rfl⟩ := List.exists_cons_of_ne_nil some
    obtain ⟨first, others⟩ := List.forall_mem_cons.mp all
    refine contents_lexeme (notBlank char List.mem_cons_self) ?_
    rw [List.cons_append, scan_eq, if_pos first, takeWhile_of_ends others ends]
  | numeric some all ends =>
    obtain ⟨char, run, rfl⟩ := List.exists_cons_of_ne_nil some
    obtain ⟨first, others⟩ := List.forall_mem_cons.mp all
    refine contents_lexeme (notBlank char List.mem_cons_self) ?_
    rw [List.cons_append, scan_eq, beginsNumber, first, (isNumeric_apart first).2.1,
      takeWhile_of_ends others ends]
    rfl
  | @signed sign run _ isSign fresh some all ends =>
    obtain ⟨char, run, rfl⟩ := List.exists_cons_of_ne_nil some
    have claimed : signsNumber before sign ((char :: run) ++ rest).head? = true := by
      simp [signsNumber, isSign, fresh, all char List.mem_cons_self]
    refine contents_lexeme (notBlank sign List.mem_cons_self) ?_
    rw [List.cons_append, scan_eq, beginsNumber, claimed, Bool.or_true, (isSign_apart isSign).2.1,
      takeWhile_of_ends all ends]
    rfl
  | single single notComparison begins =>
    rw [beginsNumber, Bool.or_eq_false_iff] at begins
    exact contents_single rest single notComparison begins.1 begins.2

end

section
variable {before : Option Char} {head tail rest : List Char} {char : Char} {kind : Kind}

/-- A comparison sign lies in a run of them. -/
theorem Lexeme.of_comparison (lexeme : Lexeme before (head ++ char :: tail) rest kind)
    (isThis : isComparison char = true) :
    (∀ next ∈ head ++ char :: tail, isComparison next = true) ∧ RunEnds isComparison rest ∧
      kind = Kind.ofLexeme (head ++ char :: tail) := by
  obtain ⟨_, notNumeric, notSign⟩ := isComparison_apart isThis
  have member : char ∈ head ++ char :: tail := List.mem_append_right _ List.mem_cons_self
  generalize text : head ++ char :: tail = whole at lexeme member
  cases lexeme with
  | comparison _ all ends => exact ⟨all, ends, rfl⟩
  | numeric _ all => exact absurd (all char member) (Bool.eq_false_iff.mp notNumeric)
  | signed sign _ _ all =>
    rcases List.mem_cons.mp member with rfl | member
    · exact absurd sign (Bool.eq_false_iff.mp notSign)
    · exact absurd (all char member) (Bool.eq_false_iff.mp notNumeric)
  | single _ notComparison =>
    rw [← List.mem_singleton.mp member] at notComparison
    exact absurd isThis (Bool.eq_false_iff.mp notComparison)

/-- A digit or a point lies in a number, and what follows it there are digits and points. -/
theorem Lexeme.of_numeric (lexeme : Lexeme before (head ++ char :: tail) rest kind)
    (isThis : isNumeric char = true) :
    (∀ next ∈ char :: tail, isNumeric next = true) ∧ RunEnds isNumeric rest := by
  generalize text : head ++ char :: tail = whole at lexeme
  have behind : ∀ next ∈ char :: tail, next ∈ whole := fun next member =>
    text ▸ List.mem_append_right _ member
  cases lexeme with
  | comparison _ all =>
    exact absurd (all char (behind char List.mem_cons_self))
      (Bool.eq_false_iff.mp (isNumeric_apart isThis).2.1)
  | numeric _ all ends => exact ⟨fun next member => all next (behind next member), ends⟩
  | @signed sign run _ isSign _ _ all ends =>
    refine ⟨?_, ends⟩
    cases head with
    | nil =>
      have same : char = sign := by simp_all
      rw [same, (isSign_apart isSign).2.2] at isThis
      exact absurd isThis Bool.false_ne_true
    | cons first head =>
      rw [List.cons_append, List.cons.injEq] at text
      exact fun next member => all next (text.2 ▸ List.mem_append_right _ member)
  | @single single _ _ _ begins =>
    obtain ⟨_, same, _⟩ := append_cons_eq_singleton text.symm
    rw [same, beginsNumber, isThis, Bool.true_or] at begins
    exact absurd begins.symm Bool.false_ne_true

/-- A sign is at the front of a number or a token of its own. -/
theorem Lexeme.of_sign (lexeme : Lexeme before (head ++ char :: tail) rest kind)
    (isThis : isSign char = true) :
    head = [] ∧
      (tail ≠ [] ∧ (∀ next ∈ tail, isNumeric next = true) ∧ before.any isNumeric = false ∧
          kind = Kind.ofNumeric (char :: tail) ∨
        tail = [] ∧ signsNumber before char rest.head? = false ∧ kind = Kind.ofLexeme [char]) := by
  obtain ⟨notBlank, notComparison, notNumeric⟩ := isSign_apart isThis
  generalize text : head ++ char :: tail = whole at lexeme
  have member : char ∈ whole := text ▸ List.mem_append_right _ List.mem_cons_self
  cases lexeme with
  | comparison _ all => exact absurd (all char member) (Bool.eq_false_iff.mp notComparison)
  | numeric _ all => exact absurd (all char member) (Bool.eq_false_iff.mp notNumeric)
  | @signed sign run _ _ fresh some all _ =>
    cases head with
    | nil =>
      rw [List.nil_append, List.cons.injEq] at text
      obtain ⟨rfl, rfl⟩ := text
      exact ⟨rfl, .inl ⟨some, all, fresh, rfl⟩⟩
    | cons first head =>
      rw [List.cons_append, List.cons.injEq] at text
      have inRun : char ∈ run := text.2 ▸ List.mem_append_right _ List.mem_cons_self
      exact absurd (all char inRun) (Bool.eq_false_iff.mp notNumeric)
  | @single single _ _ _ begins =>
    obtain ⟨isHead, rfl, isTail⟩ := append_cons_eq_singleton text.symm
    rw [beginsNumber, notNumeric, Bool.false_or] at begins
    exact ⟨isHead, .inr ⟨isTail, begins, rfl⟩⟩

/-- Any other character that is no blank is a token of its own. -/
theorem Lexeme.of_other (lexeme : Lexeme before (head ++ char :: tail) rest kind)
    (notComparison : isComparison char = false) (notNumeric : isNumeric char = false)
    (notSign : isSign char = false) :
    head = [] ∧ tail = [] ∧ kind = Kind.ofLexeme [char] := by
  generalize text : head ++ char :: tail = whole at lexeme
  have member : char ∈ whole := text ▸ List.mem_append_right _ List.mem_cons_self
  cases lexeme with
  | comparison _ all => exact absurd (all char member) (Bool.eq_false_iff.mp notComparison)
  | numeric _ all => exact absurd (all char member) (Bool.eq_false_iff.mp notNumeric)
  | signed isSign _ _ all =>
    rcases List.mem_cons.mp member with rfl | member
    · exact absurd isSign (Bool.eq_false_iff.mp notSign)
    · exact absurd (all char member) (Bool.eq_false_iff.mp notNumeric)
  | single =>
    obtain ⟨isHead, rfl, isTail⟩ := append_cons_eq_singleton text.symm
    exact ⟨isHead, isTail, rfl⟩

end

/-! ### What the scan takes -/

/-- What the scan takes is a lexeme. -/
theorem lexeme_scan (before : Option Char) {char : Char} (ahead : List Char)
    (notBlank : isBlank char = false) :
    Lexeme before ((char :: ahead).take (scan before (char :: ahead)).2)
      ((char :: ahead).drop (scan before (char :: ahead)).2)
      (scan before (char :: ahead)).1 := by
  have inRun {belongs : Char → Bool} : ∀ next ∈ ahead.takeWhile belongs, belongs next = true :=
    fun next member => List.mem_takeWhile_imp member
  rw [scan_eq]
  by_cases comparison : isComparison char = true
  · rw [if_pos comparison]
    simp only [List.length_cons, List.take_succ_cons, List.drop_succ_cons, take_takeWhile,
      drop_takeWhile]
    exact .comparison (List.cons_ne_nil _ _)
      (List.forall_mem_cons.mpr ⟨comparison, inRun⟩) (runEnds_dropWhile _)
  rw [if_neg comparison]
  by_cases begins : beginsNumber before char ahead = true
  · rw [if_pos begins]
    simp only [List.length_cons, List.take_succ_cons, List.drop_succ_cons, take_takeWhile,
      drop_takeWhile]
    by_cases first : isNumeric char = true
    · exact .numeric (List.cons_ne_nil _ _)
        (List.forall_mem_cons.mpr ⟨first, inRun⟩) (runEnds_dropWhile _)
    · -- A number that does not begin with a digit or a point begins with its sign.
      rw [beginsNumber, Bool.eq_false_iff.mpr first, Bool.false_or] at begins
      simp only [signsNumber, Bool.and_eq_true, Bool.not_eq_true'] at begins
      obtain ⟨⟨sign, follows⟩, fresh⟩ := begins
      refine .signed sign fresh ?_ inRun (runEnds_dropWhile _)
      cases ahead with
      | nil => simp at follows
      | cons next ahead =>
        have next : isNumeric next = true := follows
        rw [List.takeWhile_cons_of_pos next]
        exact List.cons_ne_nil _ _
  · rw [if_neg begins]
    exact .single notBlank (Bool.eq_false_iff.mpr comparison) (Bool.eq_false_iff.mpr begins)

/-! ### Tokens over a text -/

/-- Tokens over the text ahead, when so much is passed: blanks and lexemes take turns, and the
finish stands at the end. -/
inductive Laid : List Char → List Char → List Token → Prop
  | finish {passed blanks : List Char} (blank : ∀ char ∈ blanks, isBlank char = true) :
      Laid passed blanks
        [⟨.finish, [], (passed ++ blanks).length, (passed ++ blanks).count '\n'⟩]
  | token {passed blanks text rest : List Char} {kind : Kind} {others : List Token}
      (blank : ∀ char ∈ blanks, isBlank char = true)
      (lexeme : Lexeme (passed ++ blanks).getLast? text rest kind)
      (behind : Laid (passed ++ blanks ++ text) rest others) :
      Laid passed (blanks ++ (text ++ rest))
        (⟨kind, text, (passed ++ blanks).length, (passed ++ blanks).count '\n'⟩ :: others)

/-- The token ahead of a place that is not the finish is a lexeme. -/
theorem lexeme_next {lexer : Lexer} (more : lexer.next.1.kind ≠ .finish) :
    lexer.skipBlanks.ahead = lexer.next.1.text ++ lexer.next.2.ahead ∧
      Lexeme lexer.skipBlanks.before lexer.next.1.text lexer.next.2.ahead
        lexer.next.1.kind := by
  cases ahead : lexer.skipBlanks.ahead with
  | nil => exact absurd (congrArg (·.1.kind) (next_of_ahead_nil ahead)) more
  | cons char onward =>
    have notBlank : isBlank char = false :=
      runEnds_dropWhile lexer.ahead char (by rw [← ahead_skipBlanks, ahead]; rfl)
    have lexeme := lexeme_scan lexer.skipBlanks.before onward notBlank
    rw [← ahead] at lexeme ⊢
    exact ⟨(List.take_append_drop _ _).symm, lexeme⟩

/-- At the finish nothing is ahead but blanks. -/
theorem ahead_of_finish {lexer : Lexer} (finished : lexer.next.1.kind = .finish) :
    lexer.skipBlanks.ahead = [] := by
  cases ahead : lexer.skipBlanks.ahead with
  | nil => rfl
  | cons char onward =>
    rw [next, tokenHere, ahead] at finished
    exact absurd finished (scan_cons _ char onward).1

/-- The reader lays tokens over the text ahead of it and stops behind all of it. -/
theorem laid_readAll {source passed : List Char} {lexer : Lexer}
    (kept : Passed source passed lexer) :
    Laid passed lexer.ahead lexer.readAll.1 ∧ Passed source source lexer.readAll.2 := by
  have blank (lexer : Lexer) : ∀ char ∈ lexer.ahead.takeWhile isBlank, isBlank char = true :=
    fun char member => List.mem_takeWhile_imp member
  have blanks (lexer : Lexer) :
      lexer.ahead.takeWhile isBlank ++ lexer.skipBlanks.ahead = lexer.ahead := by
    rw [ahead_skipBlanks, List.takeWhile_append_dropWhile]
  fun_induction readAll lexer generalizing passed with
  | case1 lexer found =>
    rename_i finished
    have nothing := ahead_of_finish finished
    have everything := blanks lexer
    rw [nothing, List.append_nil] at everything
    have here := kept.skipBlanks
    have stopped := here.skip 0
    rw [List.take_zero, List.append_nil, everything, ← kept.parts] at stopped
    rw [show found = _ from next_of_ahead_nil nothing]
    refine ⟨?_, stopped⟩
    have laid : Laid passed (lexer.ahead.takeWhile isBlank) _ := .finish (blank lexer)
    rwa [← here.position, ← here.line, everything] at laid
  | case2 lexer found more others =>
    rename_i inductionHypothesis
    have here := kept.skipBlanks
    obtain ⟨parts, lexeme⟩ := lexeme_next more
    have onward := here.skip (scan lexer.skipBlanks.before lexer.skipBlanks.ahead).2
    obtain ⟨behind, finish⟩ := inductionHypothesis onward
    refine ⟨?_, finish⟩
    rw [here.before] at lexeme
    have laid := Laid.token (blank lexer) lexeme behind
    rw [← parts, blanks, ← here.position, ← here.line] at laid
    exact laid

/-! ### What holds of every token -/

/-- A token stands in a text behind one part of it and before another. -/
structure Token.Stands (text before rest : List Char) (token : Token) : Prop where
  parts : text = before ++ (token.text ++ rest)
  position : token.position = before.length
  line : token.line = before.count '\n'
  lexeme : Lexeme before.getLast? token.text rest token.kind

section
variable {passed ahead : List Char} {stream : List Token}

theorem Laid.stands (laid : Laid passed ahead stream) :
    ∀ token ∈ stream, token.kind ≠ .finish →
      ∃ before rest, token.Stands (passed ++ ahead) before rest := by
  induction laid with
  | finish blank =>
    intro token member more
    rw [List.mem_singleton.mp member] at more
    exact absurd rfl more
  | @token passed blanks text rest kind others blank lexeme behind inductionHypothesis =>
    intro token member more
    have parts : passed ++ (blanks ++ (text ++ rest)) = passed ++ blanks ++ (text ++ rest) :=
      (List.append_assoc _ _ _).symm
    rcases List.mem_cons.mp member with rfl | member
    · exact ⟨passed ++ blanks, rest, parts, rfl, rfl, lexeme⟩
    · rw [parts, ← List.append_assoc]
      exact inductionHypothesis token member more

theorem Laid.ordered (laid : Laid passed ahead stream) :
    (∀ token ∈ stream, passed.length ≤ token.position) ∧
      stream.Pairwise fun first second =>
        first.position + first.text.length ≤ second.position := by
  induction laid with
  | finish blank =>
    refine ⟨fun token member => ?_, List.pairwise_singleton _ _⟩
    rw [List.mem_singleton.mp member, List.length_append]
    exact Nat.le_add_right _ _
  | token blank lexeme behind inductionHypothesis =>
    obtain ⟨onward, ordered⟩ := inductionHypothesis
    simp only [List.length_append] at onward
    refine ⟨fun token member => ?_, List.pairwise_cons.mpr ⟨fun token member => ?_, ordered⟩⟩
    · rcases List.mem_cons.mp member with rfl | member
      · rw [List.length_append]
        exact Nat.le_add_right _ _
      · exact Nat.le_trans (by omega) (onward token member)
    · rw [List.length_append]
      exact onward token member

theorem Laid.finished (laid : Laid passed ahead stream) :
    ∃ words, (∀ word ∈ words, word.kind ≠ .finish) ∧ stream = words ++
      [⟨.finish, [], (passed ++ ahead).length, (passed ++ ahead).count '\n'⟩] := by
  induction laid with
  | finish blank => exact ⟨[], List.forall_mem_nil _, rfl⟩
  | @token passed blanks text rest kind others blank lexeme behind inductionHypothesis =>
    obtain ⟨words, more, parts⟩ := inductionHypothesis
    have whole : passed ++ blanks ++ text ++ rest = passed ++ (blanks ++ (text ++ rest)) := by
      rw [List.append_assoc, List.append_assoc]
    rw [whole] at parts
    exact ⟨⟨kind, text, (passed ++ blanks).length, (passed ++ blanks).count '\n'⟩ :: words,
      List.forall_mem_cons.mpr ⟨lexeme.ne_finish, more⟩, congrArg _ parts⟩

/-- Two ways to split a list in two around a member. -/
theorem split_cons {Item : Type} {first second front onward : List Item} {item : Item}
    (parts : first ++ second = front ++ item :: onward) :
    (∃ tail, first = front ++ item :: tail ∧ onward = tail ++ second) ∨
      ∃ head, front = first ++ head ∧ second = head ++ item :: onward := by
  rcases List.append_eq_append_iff.mp parts with
    ⟨head, isFront, isSecond⟩ | ⟨tail, isFirst, isOnward⟩
  · exact .inr ⟨head, isFront, isSecond⟩
  · cases tail with
    | nil => exact .inr ⟨[], by simpa using isFirst.symm, isOnward.symm⟩
    | cons next tail =>
      rw [List.cons_append, List.cons.injEq] at isOnward
      exact .inl ⟨tail, by rw [isFirst, isOnward.1], isOnward.2⟩

/-- A character that is no blank lies in one of the tokens. -/
theorem Laid.covers (laid : Laid passed ahead stream) {front onward : List Char} {char : Char}
    (parts : ahead = front ++ char :: onward) (notBlank : isBlank char = false) :
    ∃ start head tail rest kind,
      ⟨kind, head ++ char :: tail, start.length, start.count '\n'⟩ ∈ stream ∧
        Lexeme start.getLast? (head ++ char :: tail) rest kind ∧
        passed ++ front = start ++ head ∧ onward = tail ++ rest := by
  induction laid generalizing front with
  | @finish passed blanks blank =>
    have isBlank := blank char (by rw [parts]; exact List.mem_append_right _ List.mem_cons_self)
    exact absurd isBlank (Bool.eq_false_iff.mp notBlank)
  | @token passed blanks text rest kind others blank lexeme behind inductionHypothesis =>
    rcases split_cons parts with ⟨tail, inBlanks, _⟩ | ⟨head, rfl, within⟩
    · have isBlank := blank char
        (by rw [inBlanks]; exact List.mem_append_right _ List.mem_cons_self)
      exact absurd isBlank (Bool.eq_false_iff.mp notBlank)
    · rcases split_cons within with ⟨tail, rfl, isOnward⟩ | ⟨further, rfl, behindText⟩
      · exact ⟨passed ++ blanks, head, tail, rest, kind, List.mem_cons_self, lexeme,
          (List.append_assoc _ _ _).symm, isOnward⟩
      · obtain ⟨start, head, tail, rest', kind', member, lexeme', isFront, isOnward⟩ :=
          inductionHypothesis behindText
        refine ⟨start, head, tail, rest', kind', List.mem_cons_of_mem _ member, lexeme', ?_,
          isOnward⟩
        rw [← isFront, List.append_assoc, List.append_assoc]

end

/-! ### The partition -/

/-- The token covers the source from one index up to another. -/
def Token.Covers (token : Token) (start stop : Nat) : Prop :=
  token.position ≤ start ∧ stop ≤ token.position + token.text.length

/-- A sign between these texts belongs to a number: a digit or a point stands right behind it and
none stands right before it. -/
def Claimed (before rest : List Char) : Prop :=
  rest.head?.any isNumeric = true ∧ before.getLast?.any isNumeric = false

section
variable {source : String}

theorem laid_tokens (source : String) : Laid [] source.toList (tokens source) :=
  (laid_readAll (passed_start source)).1

theorem words_finished (source : String) :
    (∀ word ∈ words source, word.kind ≠ .finish) ∧ tokens source = words source ++
      [⟨.finish, [], source.length, source.toList.count '\n'⟩] := by
  obtain ⟨others, more, parts⟩ := (laid_tokens source).finished
  have same : words source = others := by rw [words, parts, List.dropLast_concat]
  rw [same]
  exact ⟨more, parts⟩

theorem mem_words {token : Token} :
    token ∈ words source ↔ token ∈ tokens source ∧ token.kind ≠ .finish := by
  obtain ⟨others, parts⟩ := words_finished source
  rw [parts, List.mem_append, List.mem_singleton]
  constructor
  · exact fun member => ⟨.inl member, others token member⟩
  · rintro ⟨member | rfl, more⟩
    · exact member
    · exact absurd rfl more

theorem exists_stands {word : Token} (member : word ∈ words source) :
    ∃ before rest, word.Stands source.toList before rest := by
  obtain ⟨inTokens, more⟩ := mem_words.mp member
  exact (laid_tokens source).stands word inTokens more

/-- The word around a character that is no blank. -/
theorem exists_word {before onward : List Char} {char : Char}
    (parts : source.toList = before ++ char :: onward) (notBlank : isBlank char = false) :
    ∃ start head tail rest kind,
      ⟨kind, head ++ char :: tail, start.length, start.count '\n'⟩ ∈ words source ∧
        Lexeme start.getLast? (head ++ char :: tail) rest kind ∧
        before = start ++ head ∧ onward = tail ++ rest := by
  obtain ⟨start, head, tail, rest, kind, member, lexeme, places⟩ :=
    (laid_tokens source).covers parts notBlank
  exact ⟨start, head, tail, rest, kind, mem_words.mpr ⟨member, lexeme.ne_finish⟩, lexeme, places⟩

/-- Whether a sign belongs to a number can be seen on the lexeme that it begins. -/
theorem Lexeme.sign_cases {before tail rest : List Char} {sign : Char} {kind : Kind}
    (lexeme : Lexeme before.getLast? (sign :: tail) rest kind) (isThis : isSign sign = true) :
    (tail ≠ [] ∧ Claimed before (tail ++ rest) ∧ (∀ char ∈ tail, isNumeric char = true) ∧
        kind = Kind.ofNumeric (sign :: tail)) ∨
      (tail = [] ∧ ¬ Claimed before (tail ++ rest) ∧ kind = Kind.ofLexeme [sign]) := by
  rw [← List.nil_append (sign :: tail)] at lexeme
  rcases (lexeme.of_sign isThis).2 with ⟨some, all, fresh, isKind⟩ | ⟨rfl, unclaimed, isKind⟩
  · refine .inl ⟨some, ⟨?_, fresh⟩, all, isKind⟩
    obtain ⟨next, tail, rfl⟩ := List.exists_cons_of_ne_nil some
    exact all next List.mem_cons_self
  · refine .inr ⟨rfl, fun claimed => ?_, isKind⟩
    have follows : rest.head?.any isNumeric = true := claimed.1
    rw [signsNumber, isThis, claimed.2, follows] at unclaimed
    exact absurd unclaimed (by decide)

/-- A sign is the first character of a number or a token of its own, according to its
neighbours. -/
theorem word_of_sign {before rest : List Char} {sign : Char}
    (parts : source.toList = before ++ sign :: rest) (isThis : isSign sign = true) :
    (Claimed before rest ∧ ∃ run, run ≠ [] ∧ (∀ char ∈ run, isNumeric char = true) ∧
        ⟨Kind.ofNumeric (sign :: run), sign :: run, before.length, before.count '\n'⟩ ∈
          words source) ∨
      (¬ Claimed before rest ∧
        ⟨Kind.ofLexeme [sign], [sign], before.length, before.count '\n'⟩ ∈ words source) := by
  obtain ⟨start, head, tail, behind, kind, member, lexeme, rfl, rfl⟩ :=
    exists_word parts (isSign_apart isThis).1
  obtain ⟨rfl, _⟩ := lexeme.of_sign isThis
  rw [List.append_nil]
  rcases lexeme.sign_cases isThis with ⟨some, claimed, all, rfl⟩ | ⟨rfl, unclaimed, rfl⟩
  · exact .inl ⟨claimed, tail, some, all, member⟩
  · exact .inr ⟨unclaimed, member⟩

/-- A longer token that begins with a sign is a number with its sign. -/
theorem claimed_of_word {before rest : List Char} {sign : Char} {token : Token}
    (parts : source.toList = before ++ sign :: rest) (isThis : isSign sign = true)
    (member : token ∈ words source) (here : token.position = before.length)
    (long : 1 < token.text.length) : Claimed before rest := by
  obtain ⟨start, behind, stands⟩ := exists_stands member
  have same := parts.symm.trans stands.parts
  obtain ⟨rfl, onward⟩ := List.append_inj same (here.symm.trans stands.position)
  have lexeme := stands.lexeme
  obtain ⟨first, tail, isText⟩ := List.exists_cons_of_ne_nil lexeme.ne_nil
  rw [isText] at lexeme long onward
  rw [List.cons_append, List.cons.injEq] at onward
  obtain ⟨rfl, rfl⟩ := onward
  rcases lexeme.sign_cases isThis with ⟨_, claimed, _⟩ | ⟨rfl, _⟩
  · exact claimed
  · exact absurd long (Nat.lt_irrefl 1)

/-- What a token covers around a place in it. -/
theorem covers_around {start head tail : List Char} {char : Char} {kind : Kind} {count : Nat}
    (within : count ≤ (char :: tail).length) :
    Token.Covers ⟨kind, head ++ char :: tail, start.length, start.count '\n'⟩
      (start ++ head).length ((start ++ head).length + count) := by
  constructor
  · rw [List.length_append]
    exact Nat.le_add_right _ _
  · show _ ≤ start.length + (head ++ char :: tail).length
    rw [List.length_append, List.length_append]
    omega

/-- A run of digits and points lies within one token. -/
theorem exists_word_of_numeric {before run rest : List Char}
    (parts : source.toList = before ++ run ++ rest) (some : run ≠ [])
    (all : ∀ char ∈ run, isNumeric char = true) :
    ∃ token ∈ words source, token.Covers before.length (before.length + run.length) := by
  obtain ⟨char, run, rfl⟩ := List.exists_cons_of_ne_nil some
  have isThis := all char List.mem_cons_self
  rw [List.append_assoc, List.cons_append] at parts
  obtain ⟨start, head, tail, behind, kind, member, lexeme, rfl, isRest⟩ :=
    exists_word parts (isNumeric_apart isThis).1
  obtain ⟨inToken, ends⟩ := lexeme.of_numeric isThis
  exact ⟨_, member, covers_around
    (length_le_of_ends (congrArg (List.cons char) isRest.symm) inToken ends all)⟩

/-- A whole run of comparison signs is one token. -/
theorem word_of_comparison {before run rest : List Char}
    (parts : source.toList = before ++ run ++ rest) (some : run ≠ [])
    (all : ∀ char ∈ run, isComparison char = true)
    (begins : before.getLast?.any isComparison = false)
    (ends : rest.head?.any isComparison = false) :
    ⟨Kind.ofLexeme run, run, before.length, before.count '\n'⟩ ∈ words source := by
  obtain ⟨char, run, rfl⟩ := List.exists_cons_of_ne_nil some
  have isThis := all char List.mem_cons_self
  rw [List.append_assoc, List.cons_append] at parts
  obtain ⟨start, head, tail, behind, kind, member, lexeme, rfl, isRest⟩ :=
    exists_word parts (isComparison_apart isThis).1
  obtain ⟨inToken, ends', rfl⟩ := lexeme.of_comparison isThis
  have nothing : head = [] := by
    rcases List.eq_nil_or_concat head with nothing | ⟨init, last, isHead⟩
    · exact nothing
    · rw [List.concat_eq_append] at isHead
      subst isHead
      have isLast : isComparison last = true := inToken last (by simp)
      rw [← List.append_assoc, List.getLast?_concat, Option.any_some, isLast] at begins
      exact absurd begins.symm Bool.false_ne_true
  subst nothing
  have same : char :: tail = char :: run :=
    eq_of_ends (congrArg (List.cons char) isRest.symm) inToken ends' all (runEnds_of_any ends)
  rw [List.nil_append, same] at member
  rw [List.append_nil]
  exact member

/-- Any other character that is no blank is a token of its own. -/
theorem word_of_other {before rest : List Char} {char : Char}
    (parts : source.toList = before ++ char :: rest) (notBlank : isBlank char = false)
    (notSign : isSign char = false) (notNumeric : isNumeric char = false)
    (notComparison : isComparison char = false) :
    ⟨Kind.ofLexeme [char], [char], before.length, before.count '\n'⟩ ∈ words source := by
  obtain ⟨start, head, tail, behind, kind, member, lexeme, rfl, _⟩ := exists_word parts notBlank
  obtain ⟨rfl, rfl, rfl⟩ := lexeme.of_other notComparison notNumeric notSign
  rw [List.append_nil]
  exact member

/-- The kind of a sign that no number claims is that of its operation. -/
theorem exists_operator {sign : Char} (isThis : isSign sign = true) :
    ∃ operator : Operator, operator.symbol.toList = [sign] ∧
      Kind.ofLexeme [sign] = .operator operator := by
  simp only [isSign, Bool.or_eq_true, beq_iff_eq] at isThis
  rcases isThis with rfl | rfl
  · exact ⟨.sum, rfl, rfl⟩
  · exact ⟨.difference, rfl, rfl⟩

end

/-- How the tokens of a source lie over it. Places are given by the text before them. -/
structure Partition (source : String) : Prop where
  lexeme : ∀ token ∈ words source, token.text ≠ [] ∧ token.lexeme.toList = token.text ∧
    ∃ before rest, source.toList = before ++ token.text ++ rest ∧
      token.position = before.length ∧ token.line = before.count '\n'
  /-- One token begins behind the end of the other. -/
  ordered : (words source).Pairwise fun first second =>
    first.position + first.text.length ≤ second.position
  blank : ∀ before char rest, source.toList = before ++ char :: rest →
    char ∈ [' ', '\t', '\n', '\r'] ∨
      ∃ token ∈ words source, token.Covers before.length (before.length + 1)
  kind : ∀ token ∈ words source, token.kind ≠ .finish
  finish : tokens source =
    words source ++ [⟨.finish, [], source.length, source.toList.count '\n'⟩]
  /-- Behind the last token all line ends are counted. -/
  lines : (Lexer.start source).readAll.2.line = source.toList.count '\n'
  sign : ∀ before sign rest, source.toList = before ++ sign :: rest → isSign sign = true →
    ((∃ token ∈ words source, token.position = before.length ∧ 1 < token.text.length ∧
        (token.kind = .number ∨ token.kind = .illegal)) ↔ Claimed before rest)
  claimed : ∀ before sign rest, source.toList = before ++ sign :: rest → isSign sign = true →
    Claimed before rest → ∃ run, run ≠ [] ∧ (∀ char ∈ run, isNumeric char = true) ∧
      ⟨Kind.ofNumeric (sign :: run), sign :: run, before.length, before.count '\n'⟩ ∈
        words source
  unclaimed : ∀ before sign rest, source.toList = before ++ sign :: rest → isSign sign = true →
    ¬ Claimed before rest → ∃ operator, operator.symbol.toList = [sign] ∧
      ⟨.operator operator, [sign], before.length, before.count '\n'⟩ ∈ words source
  /-- The run need not be maximal. -/
  numeric : ∀ before run rest, source.toList = before ++ run ++ rest → run ≠ [] →
    (∀ char ∈ run, isNumeric char = true) →
      ∃ token ∈ words source, token.Covers before.length (before.length + run.length)
  comparison : ∀ before run rest, source.toList = before ++ run ++ rest → run ≠ [] →
    (∀ char ∈ run, isComparison char = true) →
    before.getLast?.any isComparison = false → rest.head?.any isComparison = false →
      ⟨Kind.ofLexeme run, run, before.length, before.count '\n'⟩ ∈ words source
  single : ∀ before char rest, source.toList = before ++ char :: rest →
    isBlank char = false → isSign char = false → isNumeric char = false →
    isComparison char = false →
      ⟨Kind.ofLexeme [char], [char], before.length, before.count '\n'⟩ ∈ words source

theorem tokens_partition (source : String) : Partition source where
  lexeme := by
    intro token member
    obtain ⟨inTokens, more⟩ := mem_words.mp member
    obtain ⟨before, rest, stands⟩ := (laid_tokens source).stands token inTokens more
    refine ⟨stands.lexeme.ne_nil, ?_, before, rest, ?_, stands.position, stands.line⟩
    · rw [Token.lexeme, if_neg more, String.toList_ofList]
    · rw [List.append_assoc]
      exact stands.parts
  ordered := (laid_tokens source).ordered.2.sublist (List.dropLast_sublist _)
  blank := by
    intro before char rest parts
    cases blank : isBlank char with
    | true => exact .inl (by simpa [isBlank, or_assoc] using blank)
    | false =>
      obtain ⟨start, head, tail, behind, kind, member, _, rfl, _⟩ := exists_word parts blank
      exact .inr ⟨_, member, covers_around (Nat.succ_le_succ (Nat.zero_le _))⟩
  kind := (words_finished source).1
  finish := (words_finished source).2
  lines := (laid_readAll (passed_start source)).2.line
  sign := by
    intro before sign rest parts isThis
    constructor
    · rintro ⟨token, member, here, long, _⟩
      exact claimed_of_word parts isThis member here long
    · intro claimed
      rcases word_of_sign parts isThis with ⟨_, run, some, _, member⟩ | ⟨unclaimed, _⟩
      · exact ⟨_, member, rfl, Nat.succ_lt_succ (List.length_pos_iff.mpr some),
          Kind.ofNumeric_cases _⟩
      · exact absurd claimed unclaimed
  claimed := by
    intro before sign rest parts isThis claimed
    rcases word_of_sign parts isThis with ⟨_, found⟩ | ⟨unclaimed, _⟩
    · exact found
    · exact absurd claimed unclaimed
  unclaimed := by
    intro before sign rest parts isThis unclaimed
    obtain ⟨operator, symbol, kind⟩ := exists_operator isThis
    rcases word_of_sign parts isThis with ⟨claimed, _⟩ | ⟨_, member⟩
    · exact absurd claimed unclaimed
    · rw [kind] at member
      exact ⟨operator, symbol, member⟩
  numeric := fun _ _ _ parts some all => exists_word_of_numeric parts some all
  comparison := fun _ _ _ parts some all begins ends =>
    word_of_comparison parts some all begins ends
  single := fun _ _ _ parts notBlank notSign notNumeric notComparison =>
    word_of_other parts notBlank notSign notNumeric notComparison

end Reckon
