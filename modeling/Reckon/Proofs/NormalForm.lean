/-
This file says that a source can be written with one blank between any two of
its tokens and nothing else between them, and is read as before.

A blank ends every run, and a sign behind a blank is judged by what follows it
as it was before: it had no number before it where it was the sign of one, and
where it was a token of its own a blank now parts it from what comes. So every
lexeme is a lexeme between blanks. The tokens then stand at other places, and
the machine that reads them asks for a place nowhere but in its errors.
-/

import Mathlib.Data.List.Forall2
import Reckon.Proofs.Partition

namespace Reckon

open Lexer Numeral

/-! ### Lexemes between blanks -/

section
variable {before before' : Option Char} {text rest rest' : List Char} {kind : Kind}

/-- The text is at its end or goes on with a blank. -/
def Pauses (rest : List Char) : Prop :=
  ∀ next ∈ rest.head?, isBlank next = true

theorem Pauses.runEnds {belongs : Char → Bool} (pauses : Pauses rest)
    (solid : ∀ {char}, belongs char = true → isBlank char = false) : RunEnds belongs rest := by
  intro next isNext
  have blank := pauses next isNext
  refine Bool.eq_false_iff.mpr fun isThis => ?_
  rw [solid isThis] at blank
  exact Bool.false_ne_true blank

theorem Pauses.any_isNumeric (pauses : Pauses rest) : rest.head?.any isNumeric = false := by
  rw [Option.any_eq_false]
  exact pauses.runEnds fun isThis => (isNumeric_apart isThis).1

/-- A lexeme is one wherever nothing numeric is right before it and a blank right behind it. -/
theorem Lexeme.between (lexeme : Lexeme before text rest kind)
    (fresh : before'.any isNumeric = false) (pauses : Pauses rest') :
    Lexeme before' text rest' kind := by
  have numericEnds := pauses.runEnds fun isThis => (isNumeric_apart isThis).1
  cases lexeme with
  | comparison some all =>
    exact .comparison some all (pauses.runEnds fun isThis => (isComparison_apart isThis).1)
  | numeric some all => exact .numeric some all numericEnds
  | signed isSign _ some all => exact .signed isSign fresh some all numericEnds
  | single notBlank notComparison begins =>
    refine .single notBlank notComparison ?_
    rw [beginsNumber, Bool.or_eq_false_iff] at begins ⊢
    exact ⟨begins.1, by simp [signsNumber, pauses.any_isNumeric]⟩

end

/-- The tokens of texts with a blank between any two of them, each of which is a lexeme
somewhere. -/
theorem contents_intercalate (before : Option Char) (fresh : before.any isNumeric = false)
    (lexemes : List Content)
    (read : ∀ content ∈ lexemes, ∃ before rest, Lexeme before content.text rest content.kind) :
    contents before ([' '].intercalate (lexemes.map Content.text)) =
      lexemes ++ [⟨.finish, []⟩] := by
  induction lexemes generalizing before with
  | nil => exact contents_nil before
  | cons content lexemes inductionHypothesis =>
    obtain ⟨⟨_, _, lexeme⟩, others⟩ := List.forall_mem_cons.mp read
    cases lexemes with
    | nil =>
      have alone : Lexeme before content.text [] content.kind :=
        lexeme.between fresh fun _ isNext => absurd isNext (by simp)
      rw [List.map_singleton, List.intercalate_singleton]
      have last := alone.contents_append
      rwa [List.append_nil, contents_nil] at last
    | cons further lexemes =>
      have apart : Lexeme before content.text
          (' ' :: [' '].intercalate ((further :: lexemes).map Content.text)) content.kind :=
        lexeme.between fresh fun _ isNext => Option.some.inj isNext ▸ rfl
      have joined : [' '].intercalate ((content :: further :: lexemes).map Content.text) =
          content.text ++ ' ' :: [' '].intercalate ((further :: lexemes).map Content.text) := by
        rw [List.map_cons, List.map_cons, List.intercalate_cons_cons, List.append_assoc]
        rfl
      rw [joined, apart.contents_append, contents_blank _ _ (by decide),
        inductionHypothesis (some ' ') rfl others]
      rfl

/-! ### Reading without places -/

/-- A token with these contents, as it would be at the start of a source. -/
def Content.unplaced (content : Content) : Token :=
  ⟨content.kind, content.text, 0, 0⟩

def Token.unplaced (token : Token) : Token :=
  token.content.unplaced

@[simp] theorem Token.kind_unplaced (token : Token) : token.unplaced.kind = token.kind := rfl

def ParseError.unplaced (error : ParseError) : ParseError :=
  ⟨error.cause, error.token.unplaced⟩

/-- An outcome with an error that names no place. -/
def unplacedOutcome {Answer : Type} (forget : Answer → Answer) :
    Except ParseError Answer → Except ParseError Answer
  | .ok answer => .ok (forget answer)
  | .error error => .error error.unplaced

def OpenGroup.unplaced (group : OpenGroup) : OpenGroup :=
  { group with opener := group.opener.unplaced }

namespace Reading

def unplaced (reading : Reading) : Reading :=
  ⟨reading.groups.map OpenGroup.unplaced, reading.stage⟩

variable (limit : Int) (depth : Nat) (groups : List OpenGroup) (waiting : Waiting)

theorem readOperand_unplaced (token : Token) :
    (readOperand limit depth (groups.map OpenGroup.unplaced) waiting token.unplaced).2 =
      unplacedOutcome unplaced (readOperand limit depth groups waiting token).2 := by
  obtain ⟨kind, text, position, line⟩ := token
  cases kind with
  | opening bracket =>
    simp only [readOperand, Token.kind_unplaced]
    split <;> rfl
  | _ => rfl

theorem readOperator_unplaced (value : Expression) (token : Token) :
    (readOperator depth (groups.map OpenGroup.unplaced) waiting value token.unplaced).2 =
      unplacedOutcome unplaced (readOperator depth groups waiting value token).2 := by
  obtain ⟨kind, text, position, line⟩ := token
  cases kind with
  | operator operator =>
    simp only [readOperator, Token.kind_unplaced]
    split <;> rfl
  | _ => rfl

theorem step_unplaced (reading : Reading) (token : Token) :
    (reading.unplaced.step limit depth token.unplaced).2 =
      unplacedOutcome unplaced (reading.step limit depth token).2 := by
  obtain ⟨groups, stage⟩ := reading
  match groups, stage with
  | [], .operand [] | [], .operand (_ :: _) | _ :: _, .operand (_ :: _) =>
    exact readOperand_unplaced limit depth _ _ token
  | [], .operator waiting value => exact readOperator_unplaced depth [] waiting value token
  | group :: groups, .operand [] =>
    by_cases closes : token.kind = .closing group.bracket
    · simp [step, unplaced, unplacedOutcome, ParseError.unplaced, OpenGroup.unplaced, closes]
    by_cases finishes : token.kind = .finish
    · simp [step, unplaced, unplacedOutcome, ParseError.unplaced, OpenGroup.unplaced, finishes]
    simpa [step, unplaced, OpenGroup.unplaced, closes, finishes] using
      readOperand_unplaced limit depth (group :: groups) [] token
  | group :: groups, .operator waiting value =>
    by_cases closes : token.kind = .closing group.bracket
    · simp [step, unplaced, unplacedOutcome, OpenGroup.unplaced, closes]
    by_cases finishes : token.kind = .finish
    · simp [step, unplaced, unplacedOutcome, ParseError.unplaced, OpenGroup.unplaced, finishes]
    simpa [step, unplaced, OpenGroup.unplaced, closes, finishes] using
      readOperator_unplaced depth (group :: groups) waiting value token

theorem next_unplaced (reading : Reading) (token : Token) :
    reading.unplaced.next limit token.unplaced =
      unplacedOutcome unplaced (reading.next limit token) := by
  have stepped := step_unplaced limit reading.groups.length reading token
  have sameDepth : reading.unplaced.groups.length = reading.groups.length := List.length_map _
  obtain ⟨groups, stage⟩ := reading
  match groups, stage with
  | [], .operator waiting value =>
    cases kind : token.kind with
    | opening bracket =>
      simpa [next, unplaced, kind] using readOperand_unplaced limit 0 [] [] token
    | _ => simpa [next, unplaced, kind] using stepped
  | [], .operand _ => exact stepped
  | group :: groups, stage =>
    rw [next_eq_step fun none => absurd none (List.cons_ne_nil _ _),
      next_eq_step fun none => absurd none (List.cons_ne_nil _ _), sameDepth]
    exact stepped

theorem close_unplaced (reading : Reading) (finish : Token) :
    reading.unplaced.close finish.unplaced = unplacedOutcome id (reading.close finish) := by
  obtain ⟨groups, stage⟩ := reading
  match groups, stage with
  | [], .operand [] | [], .operand (_ :: _) | _ :: _, .operand (_ :: _) | [], .operator _ _
  | _ :: _, .operand [] | _ :: _, .operator _ _ => rfl

theorem run_unplaced (finish : Token) (reading : Reading) (words : List Token) :
    reading.unplaced.run limit finish.unplaced (words.map Token.unplaced) =
      unplacedOutcome id (reading.run limit finish words) := by
  induction words generalizing reading with
  | nil => exact close_unplaced reading finish
  | cons word words inductionHypothesis =>
    rw [List.map_cons, run_cons, run_cons, next_unplaced]
    cases reading.next limit word with
    | error error => rfl
    | ok further => exact inductionHypothesis further

end Reading

/-! ### Sources with the same contents -/

theorem ParseError.detail_unplaced (error : ParseError) :
    error.unplaced.detail = error.detail := by
  obtain ⟨cause, token⟩ := error
  cases cause <;> rfl

/-- Two outcomes that differ at most in the place of the error. -/
inductive SameOutcome : Except ParseError Expression → Except ParseError Expression → Prop
  | tree (tree : Expression) : SameOutcome (.ok tree) (.ok tree)
  | error {first second : ParseError} (cause : first.cause = second.cause)
      (content : first.token.content = second.token.content)
      (detail : first.detail = second.detail) : SameOutcome (.error first) (.error second)

theorem sameOutcome_of_unplaced {first second : Except ParseError Expression}
    (same : unplacedOutcome id first = unplacedOutcome id second) : SameOutcome first second := by
  cases first with
  | ok tree =>
    cases second with
    | ok tree' =>
      obtain rfl : tree = tree' := Except.ok.inj same
      exact .tree tree
    | error error => cases same
  | error error =>
    cases second with
    | ok tree => cases same
    | error error' =>
      have errors : error.unplaced = error'.unplaced := Except.error.inj same
      have cause : error.unplaced.cause = error'.unplaced.cause := by rw [errors]
      have content : error.unplaced.token.content = error'.unplaced.token.content := by rw [errors]
      refine .error cause content ?_
      rw [← error.detail_unplaced, errors, error'.detail_unplaced]

section
variable {first second : String}

theorem map_content_words
    (same : (tokens first).map Token.content = (tokens second).map Token.content) :
    (words first).map Token.content = (words second).map Token.content := by
  rw [words, words, List.map_dropLast, List.map_dropLast, same]

/-- Sources whose tokens have the same contents are read in the same way. -/
theorem sameOutcome_of_contents
    (same : (tokens first).map Token.content = (tokens second).map Token.content) (limit : Int) :
    SameOutcome (parse first limit) (parse second limit) := by
  obtain ⟨finish, finished, run⟩ := parse_eq_run first limit
  obtain ⟨finish', finished', run'⟩ := parse_eq_run second limit
  have parts := same
  rw [finished.parts, finished'.parts, List.map_append, List.map_append] at parts
  obtain ⟨sameWords, sameFinish⟩ := List.append_inj' parts rfl
  have words : (words first).map Token.unplaced = (words second).map Token.unplaced := by
    have placed := congrArg (List.map Content.unplaced) sameWords
    rwa [List.map_map, List.map_map] at placed
  have finishes : finish.unplaced = finish'.unplaced :=
    congrArg Content.unplaced (List.singleton_inj.mp sameFinish)
  refine sameOutcome_of_unplaced ?_
  rw [run, run', ← Reading.run_unplaced, ← Reading.run_unplaced, words, finishes]

end

/-! ### The normal form -/

/-- The words of a source with a single blank between any two of them. -/
def normalForm (source : String) : String :=
  " ".intercalate ((words source).map Token.lexeme)

theorem toList_normalForm (source : String) :
    (normalForm source).toList =
      [' '].intercalate (((words source).map Token.content).map Content.text) := by
  rw [normalForm, String.toList_intercalate, List.map_map, List.map_map]
  refine congrArg _ (List.map_congr_left fun word member => ?_)
  show (Token.lexeme word).toList = word.text
  rw [Token.lexeme, if_neg ((words_finished source).1 word member), String.toList_ofList]

theorem contents_normalForm (source : String) :
    (tokens (normalForm source)).map Token.content = (tokens source).map Token.content := by
  have read : ∀ content ∈ (words source).map Token.content,
      ∃ before rest, Lexeme before content.text rest content.kind := by
    intro content member
    obtain ⟨word, inWords, rfl⟩ := List.mem_map.mp member
    obtain ⟨before, rest, stands⟩ := exists_stands inWords
    exact ⟨_, rest, stands.lexeme⟩
  have between := contents_intercalate none rfl _ read
  rw [← toList_normalForm] at between
  rw [(words_finished source).2, List.map_append]
  exact between

theorem normalForm_idempotent (source : String) :
    normalForm (normalForm source) = normalForm source := by
  refine String.toList_injective ?_
  rw [toList_normalForm, toList_normalForm, map_content_words (contents_normalForm source)]

/-- Two tokens that differ at most in their places. -/
structure Token.Matches (first second : Token) : Prop where
  kind : first.kind = second.kind
  text : first.text = second.text
  value : first.value = second.value
  lexeme : first.lexeme = second.lexeme

theorem matches_of_content {first second : Token} (same : first.content = second.content) :
    first.Matches second := by
  obtain ⟨kind, text, position, line⟩ := first
  obtain ⟨kind', text', position', line'⟩ := second
  obtain ⟨rfl, rfl⟩ := Content.mk.inj same
  exact ⟨rfl, rfl, rfl, rfl⟩

/-- With one blank between any two words a source has the same tokens but for their places, and the
same outcome under any limit. To write it so once more changes nothing. -/
theorem normalForm_reads (source : String) :
    List.Forall₂ Token.Matches (tokens (normalForm source)) (tokens source) ∧
    normalForm (normalForm source) = normalForm source ∧
    ∀ limit : Int, SameOutcome (parse (normalForm source) limit) (parse source limit) := by
  have same := contents_normalForm source
  refine ⟨?_, normalForm_idempotent source, sameOutcome_of_contents same⟩
  rw [← List.forall₂_eq_eq_eq, List.forall₂_map_left_iff, List.forall₂_map_right_iff] at same
  exact same.imp fun _ _ => matches_of_content

end Reckon
