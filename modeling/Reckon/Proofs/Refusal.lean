/-
This file says at which token an expression is refused.

The machine stops at the first token that its reading refuses. What it has read
until then can always be completed: with a number if an operand is to come, and
with the closers of the groups that are open. What it has read with the refused
token cannot, whatever follows. So an error stands at the first token of the
source that no accepted list of tokens goes on with, and it depends on nothing
behind that token.

The error names the refused token, but for an empty group, where it names the
opener and the closer right behind it is refused.
-/

import Mathlib.Data.List.Basic
import Reckon.Proofs.Cut

namespace Reckon

/-- A stream that starts with some tokens and one more has the last of them as its finish, or goes
on behind it. -/
theorem Finished.cases_starts {stream words before : List Token} {finish token : Token}
    (finished : Finished stream words finish) (starts : before ++ [token] <+: stream) :
    (words = before ∧ finish = token) ∨ ∃ rest, words = before ++ token :: rest := by
  obtain ⟨rest, parts⟩ := starts
  rw [finished.parts] at parts
  rcases List.eq_nil_or_concat rest with rfl | ⟨others, last, rfl⟩
  · rw [List.append_nil] at parts
    obtain ⟨same, ends⟩ := List.append_inj' parts rfl
    exact .inl ⟨same.symm, (List.singleton_inj.mp ends).symm⟩
  · rw [List.concat_eq_append, ← List.append_assoc, List.append_assoc before] at parts
    exact .inr ⟨others, (List.append_inj' parts rfl).1.symm⟩

namespace Reading

/-! ### The token that is refused -/

/-- The machine comes from one reading to another over some tokens. -/
inductive Comes (limit : Int) : Reading → List Token → Reading → Prop
  | here (reading : Reading) : Comes limit reading [] reading
  | on {reading further last : Reading} {token : Token} {others : List Token}
    (taken : reading.next limit token = .ok further) (onward : Comes limit further others last) :
    Comes limit reading (token :: others) last

/-- A reading refuses a token, or the finish. -/
inductive Refuses (limit : Int) (reading : Reading) (token : Token) (error : ParseError) : Prop
  | word (more : token.kind ≠ .finish) (refused : reading.next limit token = .error error)
  | finish (finished : token.kind = .finish) (refused : reading.close token = .error error)

section
variable {limit : Int} {reading last : Reading} {finish refused : Token}
  {stream words before others : List Token} {error : ParseError}

/-- What was read before makes no difference to what follows. -/
theorem Comes.run (comes : Comes limit reading before last) (finish : Token) (rest : List Token) :
    reading.run limit finish (before ++ rest) = last.run limit finish rest := by
  induction comes with
  | here reading => rfl
  | on taken onward inductionHypothesis =>
    rw [List.cons_append, run_cons_ok _ taken, inductionHypothesis]

/-- A run fails where it comes to a token that is refused. -/
theorem exists_refused (finished : Finished stream words finish)
    (failed : reading.run limit finish words = .error error) :
    ∃ before refused others last, stream = before ++ refused :: others ∧
      Comes limit reading before last ∧ Refuses limit last refused error := by
  rw [finished.parts]
  induction words generalizing reading stream with
  | nil => exact ⟨[], finish, [], reading, rfl, .here reading, .finish finished.kind failed⟩
  | cons word words inductionHypothesis =>
    have more := finished.others word List.mem_cons_self
    cases taken : reading.next limit word with
    | error other =>
      rw [run_cons_error words taken] at failed
      obtain rfl := Except.error.inj failed
      exact ⟨[], word, words ++ [finish], reading, rfl, .here reading, .word more taken⟩
    | ok further =>
      rw [run_cons_ok words taken] at failed
      obtain ⟨before, refused, others, last, parts, comes, refuses⟩ := inductionHypothesis
        ⟨rfl, finished.kind, fun other member => finished.others other (.tail _ member)⟩ failed
      exact ⟨word :: before, refused, others, last, congrArg _ parts, .on taken comes, refuses⟩

/-- A run fails where a token is refused, whatever follows. -/
theorem run_of_refused (finished : Finished stream words finish)
    (comes : Comes limit reading before last) (refuses : Refuses limit last refused error)
    (starts : before ++ [refused] <+: stream) :
    reading.run limit finish words = .error error := by
  rcases finished.cases_starts starts with ⟨rfl, rfl⟩ | ⟨rest, rfl⟩
  · have same := comes.run finish []
    rw [List.append_nil] at same
    rw [same]
    cases refuses with
    | word more refused => exact absurd finished.kind more
    | finish finished refused => exact refused
  · rw [comes.run]
    cases refuses with
    | word more refused => exact run_cons_error rest refused
    | finish ends refused =>
      exact absurd ends (finished.others _ (List.mem_append_right _ List.mem_cons_self))

end

/-! ### The token that is named -/

section
variable {limit : Int} {reading last : Reading} {token : Token} {error : ParseError}

/-- What an error has to do with the token that is refused. Only where a group is closed before its
first operand the error names another token, the opener of the group. -/
inductive Names (reading : Reading) (token : Token) (error : ParseError) : Prop
  | refused (other : error.cause ≠ .emptyGroup) (same : error.token = token)
  | opener {group : OpenGroup} {groups : List OpenGroup}
    (empty : reading = ⟨group :: groups, .operand []⟩) (cause : error.cause = .emptyGroup)
    (same : error.token = group.opener) (closes : token.kind = .closing group.bracket)

/-- What a step has to do with the token that it refuses. -/
theorem names_of_steps {depth depth' : Nat}
    (steps : Steps limit depth token reading (depth', .error error)) :
    error.cause ≠ .notAGroup ∧ Names reading token error := by
  cases steps with
  | nested _ _ | unclosed _ _ => exact ⟨by simp, .refused (by simp) rfl⟩
  | empty closes => exact ⟨by simp, .opener rfl rfl rfl closes⟩
  | noOperand _ _ _ =>
    rcases cause_refuse .operandExpected token with same | same <;>
      exact ⟨by simp [same], .refused (by simp [same]) rfl⟩
  | noOperator _ _ =>
    rcases cause_refuse .operatorExpected token with same | same <;>
      exact ⟨by simp [same], .refused (by simp [same]) rfl⟩

theorem Refuses.names (refuses : Refuses limit reading token error) :
    error.cause ≠ .notAGroup ∧ Names reading token error := by
  cases refuses with
  | finish finished refused =>
    unfold close at refused
    split at refused <;> simp only [Except.error.injEq, reduceCtorEq] at refused <;>
      subst refused <;> exact ⟨by simp, .refused (by simp) rfl⟩
  | word more refused =>
    rcases next_cases refused with ⟨_, steps⟩ | ⟨_, _, _, _, rfl, opens, steps⟩
    · exact names_of_steps steps
    · -- No group is open, so none is closed before its first operand.
      obtain ⟨other, refused | ⟨empty, _, _, _⟩⟩ := names_of_steps steps
      · exact ⟨other, .refused ‹_› ‹_›⟩
      · simp [atOperand] at empty

/-- Only an opener makes a group that has nothing in it yet. -/
theorem opener_of_next {group : OpenGroup} {groups : List OpenGroup}
    (taken : reading.next limit token = .ok ⟨group :: groups, .operand []⟩) :
    group.opener = token ∧ token.kind = .opening group.bracket := by
  obtain ⟨outer, stage⟩ := reading
  have operand {outer : List OpenGroup} {waiting : Waiting}
      (taken : next limit ⟨outer, .operand waiting⟩ token = .ok ⟨group :: groups, .operand []⟩) :
      group.opener = token ∧ token.kind = .opening group.bracket := by
    rcases next_operand_cases taken with ⟨_, isOperator⟩ | ⟨bracket, opens, _, isOperand⟩
    · simp at isOperator
    · simp only [mk.injEq, List.cons.injEq] at isOperand
      rw [isOperand.1.1]
      exact ⟨rfl, opens⟩
  cases stage with
  | operand waiting => exact operand taken
  | operator waiting value =>
    rcases next_operator_cases taken with
      ⟨operator, operates⟩ | ⟨closed, inner, rfl, closes⟩ | ⟨rfl, bracket, opens, _⟩
    · rw [next_operator operates] at taken
      split at taken <;> simp at taken
    · rw [next_closing closes] at taken
      simp at taken
    · rw [next_anew opens] at taken
      exact operand taken

/-- A group that has nothing in it yet was opened by the token just read. -/
theorem Comes.opener {before : List Token} {group : OpenGroup} {groups : List OpenGroup}
    (comes : Comes limit reading before last) (empty : last = ⟨group :: groups, .operand []⟩) :
    (before = [] ∧ reading = last) ∨
      ∃ earlier, before = earlier ++ [group.opener] ∧
        group.opener.kind = .opening group.bracket := by
  induction comes with
  | here reading => exact .inl ⟨rfl, rfl⟩
  | @on reading further last token others taken onward inductionHypothesis =>
    rcases inductionHypothesis empty with ⟨rfl, rfl⟩ | ⟨earlier, rfl, opens⟩
    · rw [empty] at taken
      obtain ⟨rfl, opens⟩ := opener_of_next taken
      exact .inr ⟨[], rfl, opens⟩
    · exact .inr ⟨token :: earlier, rfl, opens⟩

end

/-! ### What is missing -/

/-- The kinds of the tokens that close some groups. -/
def closers (groups : List OpenGroup) : List Kind :=
  groups.map fun group => .closing group.bracket

/-- The kinds of the tokens that complete a reading: a number where an operand is to come, and the
closers of the open groups. -/
def missing (reading : Reading) : List Kind :=
  match reading.stage with
  | .operand _ => .number :: closers reading.groups
  | .operator _ _ => closers reading.groups

section
variable {limit : Int} {finish : Token}

theorem run_closers {groups : List OpenGroup} {waiting : Waiting} {value : Expression}
    {words : List Token} (closing : words.map Token.kind = closers groups) :
    ∃ tree, run limit finish ⟨groups, .operator waiting value⟩ words = .ok tree := by
  induction groups generalizing waiting value words with
  | nil =>
    obtain rfl := List.map_eq_nil_iff.mp closing
    exact ⟨waiting.fill value, rfl⟩
  | cons group groups inductionHypothesis =>
    obtain ⟨word, words, rfl, closes, closing⟩ := List.map_eq_cons_iff.mp closing
    rw [run_cons_ok words (next_closing closes)]
    exact inductionHypothesis closing

/-- What is missing completes a reading. -/
theorem run_missing {reading : Reading} {words : List Token}
    (complete : words.map Token.kind = reading.missing) :
    ∃ tree, reading.run limit finish words = .ok tree := by
  obtain ⟨groups, stage⟩ := reading
  cases stage with
  | operand waiting =>
    obtain ⟨word, words, rfl, isNumber, closing⟩ := List.map_eq_cons_iff.mp complete
    rw [run_cons_ok words (next_number isNumber)]
    exact run_closers closing
  | operator waiting value => exact run_closers complete

end

/-- A text of what is missing. -/
def completion (reading : Reading) : List Char :=
  match reading.stage with
  | .operand _ => '1' :: reading.groups.map fun group => group.bracket.closer
  | .operator _ _ => reading.groups.map fun group => group.bracket.closer

/-- A closer is a token of its own wherever it stands. -/
theorem closer_apart (bracket : Bracket) :
    Lexer.isBlank bracket.closer = false ∧ Lexer.isComparison bracket.closer = false ∧
      Numeral.isNumeric bracket.closer = false ∧ Kind.ofLexeme [bracket.closer] = .closing bracket ∧
      Numeral.isSign bracket.closer = false := by
  cases bracket <;> decide

theorem kinds_closers (before : Option Char) (groups : List OpenGroup) :
    (contents before (groups.map fun group => group.bracket.closer)).map Content.kind =
      closers groups ++ [.finish] := by
  induction groups generalizing before with
  | nil =>
    rw [List.map_nil, contents_nil]
    rfl
  | cons group groups inductionHypothesis =>
    obtain ⟨notBlank, notComparison, notNumeric, closes, notSign⟩ := closer_apart group.bracket
    rw [List.map_cons, contents_single _ notBlank notComparison notNumeric
      (by rw [Lexer.signsNumber, notSign, Bool.false_and, Bool.false_and]), closes, List.map_cons,
      inductionHypothesis]
    rfl

theorem kinds_completion (reading : Reading) :
    (contents (some ' ') reading.completion).map Content.kind = reading.missing ++ [.finish] := by
  obtain ⟨groups, stage⟩ := reading
  cases stage with
  | operand waiting =>
    have stops : Stops (groups.map fun group => group.bracket.closer) := by
      cases groups with
      | nil => exact fun next isNext => absurd isNext (by simp)
      | cons group groups =>
        intro next isNext
        obtain rfl := Option.some.inj isNext
        exact (closer_apart group.bracket).2.2.1
    show (contents (some ' ') (['1'] ++ groups.map fun group => group.bracket.closer)).map
      Content.kind = _
    rw [contents_numeral _ (by decide) (by decide) stops, List.map_cons, kinds_closers]
    rfl
  | operator waiting value => exact kinds_closers _ _

end Reading

/-! ### Accepted tokens -/

/-- A list of tokens is accepted if it ends with its only finish and the machine gets through. -/
def Accepted (limit : Int) (stream : List Token) : Prop :=
  ∃ words finish tree, Finished stream words finish ∧
    Reading.atOperand.run limit finish words = .ok tree

/-- The tokens of a source are accepted if the source is. -/
theorem accepted_tokens (source : String) (limit : Int) :
    Accepted limit (tokens source) ↔ ∃ tree, parse source limit = .ok tree := by
  obtain ⟨finish, finished, run⟩ := parse_eq_run source limit
  rw [run]
  constructor
  · rintro ⟨words', finish', tree, finished', accepted⟩
    obtain ⟨rfl, sameFinish⟩ := List.append_inj' (finished'.parts.symm.trans finished.parts) rfl
    obtain rfl := List.singleton_inj.mp sameFinish
    exact ⟨tree, accepted⟩
  · rintro ⟨tree, accepted⟩
    exact ⟨words source, finish, tree, finished, accepted⟩

/-- What was read of a source without an error can be completed to a source that is accepted. -/
theorem exists_completed {source : String} {limit : Int} {before others : List Token}
    {refused : Token} {last : Reading} (parts : tokens source = before ++ refused :: others)
    (comes : Reading.Comes limit .atOperand before last) :
    ∃ other tree, parse other limit = .ok tree ∧ before <+: tokens other := by
  have within : before.length < (Lexer.start source).readAll.1.length := by
    rw [show (Lexer.start source).readAll.1 = _ from parts, List.length_append]
    simp
  obtain ⟨front, _, place, _, cut⟩ := Lexer.readAll_facing within
  -- A blank parts what was read from what is missing.
  let other := String.ofList (front ++ ' ' :: last.completion)
  let added := (place.facing (' ' :: last.completion)).readAll.1
  have all : tokens other = before ++ added := by
    have taken : (tokens source).take before.length = before := by rw [parts, List.take_left]
    have start : Lexer.start other =
        (Lexer.start source).facing (front ++ ' ' :: last.completion) := by
      simp [Lexer.start, Lexer.facing, other]
    rw [tokens, start, cut]
    exact congrArg (· ++ added) taken
  have kinds : added.map Token.kind = last.missing ++ [.finish] := by
    have same : added.map Token.content = contents (some ' ') last.completion := by
      rw [contents_readAll]
      exact contents_blank place.before last.completion (by decide)
    rw [← Reading.kinds_completion, ← same, List.map_map]
    rfl
  obtain ⟨finish, finished, run⟩ := parse_eq_run other limit
  have completed : words other = before ++ added.dropLast := by
    have some : added ≠ [] := by
      intro none
      rw [none] at kinds
      simp at kinds
    rw [words, all, List.dropLast_append_of_ne_nil some]
  have complete : added.dropLast.map Token.kind = last.missing := by
    rw [List.map_dropLast, kinds, List.dropLast_concat]
  obtain ⟨tree, accepted⟩ := Reading.run_missing complete
  refine ⟨other, tree, ?_, ?_⟩
  · rw [run, completed, comes.run, accepted]
  · rw [all]
    exact List.prefix_append _ _

/-! ### The first refused token -/

/-- Where an error stands in a list of tokens: at the token it names, or for an empty group behind
it. -/
def ParseError.index (error : ParseError) (stream : List Token) : Nat :=
  stream.idxOf error.token + if error.cause = .emptyGroup then 1 else 0

/-- The token at an index is the first that the source cannot go on with. The tokens before it begin
an accepted source, and with it they begin no accepted list; any source that begins with them and it
has the same error. -/
structure FirstRefused (source : String) (limit : Int) (error : ParseError) (index : Nat) :
    Prop where
  known : error.cause ≠ .notAGroup
  token : error.cause ≠ .emptyGroup → (tokens source)[index]? = some error.token
  closer : error.cause = .emptyGroup → ∃ opener bracket closer, index = opener + 1 ∧
    (tokens source)[opener]? = some error.token ∧ error.token.kind = .opening bracket ∧
    (tokens source)[index]? = some closer ∧ closer.kind = .closing bracket
  completable : ∃ other tree, parse other limit = .ok tree ∧
    (tokens source).take index <+: tokens other
  hopeless : ∀ stream, (tokens source).take (index + 1) <+: stream → ¬ Accepted limit stream
  same : ∀ other, (tokens source).take (index + 1) <+: tokens other →
    parse other limit = .error error

theorem idxOf_of_nodup {before others : List Token} {token : Token}
    (nodup : (before ++ token :: others).Nodup) :
    (before ++ token :: others).idxOf token = before.length := by
  have fresh : token ∉ before := fun member =>
    (List.nodup_append.mp nodup).2.2 token member token List.mem_cons_self rfl
  rw [List.idxOf_append_of_notMem fresh, List.idxOf_cons_self, Nat.add_zero]

theorem getElem?_of_parts {stream before others : List Token} {token : Token}
    (parts : stream = before ++ token :: others) : stream[before.length]? = some token := by
  rw [parts, List.getElem?_append_right (Nat.le_refl _), Nat.sub_self, List.getElem?_cons_zero]

/-- Where the error stands is where the machine stops. -/
theorem index_of_names {limit : Int} {error : ParseError} {stream before others : List Token}
    {refused : Token} {last : Reading} (nodup : stream.Nodup)
    (parts : stream = before ++ refused :: others)
    (comes : Reading.Comes limit .atOperand before last) (names : last.Names refused error) :
    error.index stream = before.length ∧
      (error.cause ≠ .emptyGroup → stream[before.length]? = some error.token) ∧
      (error.cause = .emptyGroup → ∃ opener bracket closer, before.length = opener + 1 ∧
        stream[opener]? = some error.token ∧ error.token.kind = .opening bracket ∧
        stream[before.length]? = some closer ∧ closer.kind = .closing bracket) := by
  have here := getElem?_of_parts parts
  cases names with
  | refused other same =>
    refine ⟨?_, fun _ => by rw [same]; exact here, fun cause => absurd cause other⟩
    rw [ParseError.index, if_neg other, same, Nat.add_zero, parts]
    exact idxOf_of_nodup (parts ▸ nodup)
  | @opener group groups empty cause same closes =>
    rcases comes.opener empty with ⟨_, start⟩ | ⟨earlier, rfl, opens⟩
    · -- At the start no group is open.
      rw [empty] at start
      simp [Reading.atOperand] at start
    · rw [List.append_assoc, List.singleton_append] at parts
      have opener := getElem?_of_parts parts
      refine ⟨?_, fun other => absurd cause other, fun _ =>
        ⟨earlier.length, group.bracket, refused, List.length_append, ?_, ?_, here, closes⟩⟩
      · rw [ParseError.index, if_pos cause, same, List.length_append, parts,
          idxOf_of_nodup (parts ▸ nodup)]
        rfl
      · rw [same, opener]
      · rw [same, opens]

/-- An error is at the first token that cannot be gone on with. -/
theorem firstRefused_of_parse {source : String} {limit : Int} {error : ParseError}
    (failed : parse source limit = .error error) :
    FirstRefused source limit error (error.index (tokens source)) := by
  obtain ⟨finish, finished, run⟩ := parse_eq_run source limit
  rw [run] at failed
  obtain ⟨before, refused, others, last, parts, comes, refuses⟩ :=
    Reading.exists_refused finished failed
  obtain ⟨known, names⟩ := refuses.names
  obtain ⟨index, token, closer⟩ := index_of_names (nodup_tokens source) parts comes names
  have taken : (tokens source).take before.length = before := by rw [parts, List.take_left]
  have taken' : (tokens source).take (before.length + 1) = before ++ [refused] := by
    rw [parts, List.take_length_add_append]
    rfl
  rw [index]
  refine ⟨known, token, closer, ?_, ?_, ?_⟩
  · rw [taken]
    exact exists_completed parts comes
  · rw [taken']
    rintro stream starts ⟨words, finish, tree, finished, accepted⟩
    rw [Reading.run_of_refused finished comes refuses starts] at accepted
    exact absurd accepted (by simp)
  · rw [taken']
    intro other starts
    obtain ⟨finish, finished, run⟩ := parse_eq_run other limit
    rw [run]
    exact Reading.run_of_refused finished comes refuses starts

/-- The closer is refused in `2 * ()`, and the error names the opener. -/
theorem parse_two_times_empty_group :
    parse "2 * ()" 1 = .error ⟨.emptyGroup, ⟨.opening .round, ['('], 4, 0⟩⟩ ∧
      FirstRefused "2 * ()" 1 ⟨.emptyGroup, ⟨.opening .round, ['('], 4, 0⟩⟩ 3 := by
  have stream : tokens "2 * ()" =
      [⟨.number, ['2'], 0, 0⟩, ⟨.operator .product, ['*'], 2, 0⟩, ⟨.opening .round, ['('], 4, 0⟩,
        ⟨.closing .round, [')'], 5, 0⟩, ⟨.finish, [], 6, 0⟩] := by
    decide +kernel
  have failed : parse "2 * ()" 1 = .error ⟨.emptyGroup, ⟨.opening .round, ['('], 4, 0⟩⟩ := by
    obtain ⟨finish, _, run⟩ := parse_eq_run "2 * ()" 1
    rw [run, words, stream]
    rfl
  have index : (⟨.emptyGroup, ⟨.opening .round, ['('], 4, 0⟩⟩ : ParseError).index
      (tokens "2 * ()") = 3 := by
    rw [stream]
    decide
  have first := firstRefused_of_parse failed
  rw [index] at first
  exact ⟨failed, first⟩

end Reckon
