/-
This file reads the tree of an expression from its tokens.

The reader sees two tokens, the current one and the one after it, and leaves
the current one on the last token of what it has read. When something is wrong
it stops where it stands, and the next call goes on from there; groups that
were open then still count against the limit. At the top level a group that
follows a complete value takes its place.

The limit is all that bounds the nesting of groups here. That a machine may run
out of stack before a large limit is reached is not modelled.
-/

import Reckon.Journal
import Reckon.Parser.Reading
import Reckon.Token.Lexer

namespace Reckon

/-- A reader of one source: the place behind the two tokens it sees, how deep groups may nest,
how many count as open, and the last complete value at the top level. -/
structure Parser where
  source : String
  lexer : Lexer
  token : Token
  peek : Token
  limit : Int
  depth : Nat
  last : Option Expression

namespace Parser

/-- How deep groups may nest if nothing else is said. -/
def defaultLimit : Int := 128

def start (source : String) (limit : Int) : Parser :=
  let first := (Lexer.start source).next
  let second := first.2.next
  { source, lexer := second.2, token := first.1, peek := second.1, limit, depth := 0, last := none }

/-- Moves to the next token. -/
def advance (parser : Parser) : Parser :=
  let found := parser.lexer.next
  { parser with token := parser.peek, peek := found.1, lexer := found.2 }

/-! ### Progress -/

/-- What a token adds to the tokens to come. The finish adds nothing. -/
def weight (token : Token) : Nat :=
  if token.kind = .finish then 0 else 1

/-- A bound on the tokens to come. -/
def remaining (parser : Parser) : Nat :=
  weight parser.token + weight parser.peek + parser.lexer.ahead.length

theorem weight_next (lexer : Lexer) :
    weight lexer.next.1 + lexer.next.2.ahead.length ≤ lexer.ahead.length := by
  unfold weight
  split
  · simpa using lexer.next_not_longer
  · have shorter := lexer.next_shorter ‹_›
    omega

/-- Moving on takes the current token off the tokens to come. -/
theorem remaining_advance_le (parser : Parser) :
    parser.advance.remaining + weight parser.token ≤ parser.remaining := by
  have bound := weight_next parser.lexer
  simp only [remaining, advance]
  omega

theorem remaining_advance_lt (parser : Parser) (more : parser.token.kind ≠ .finish) :
    parser.advance.remaining < parser.remaining := by
  have bound := parser.remaining_advance_le
  simp only [weight, more, if_false] at bound
  omega

/-- Nothing can be read from the finish. -/
theorem step_finish (limit : Int) (depth : Nat) (reading : Reading) (token : Token)
    (finished : token.kind = .finish) :
    ∃ depth' error, reading.step limit depth token = (depth', .error error) := by
  rcases outcome : reading.step limit depth token with ⟨depth', error | further⟩
  · exact ⟨depth', error, rfl⟩
  · cases Reading.steps_of_eq outcome <;> simp_all

/-! ### Reading -/

/-- Goes on with a reading, token by token, until its tree is there. -/
def read (parser : Parser) (reading : Reading) : Except ParseError Expression × Parser :=
  match _ : reading.step parser.limit parser.depth parser.token with
  | (depth, .error error) => (.error error, { parser with depth })
  | (depth, .ok further) =>
    match further.result? parser.peek with
    | some tree => (.ok tree, { parser with depth })
    | none => { parser with depth }.advance.read further
termination_by parser.remaining
decreasing_by
  refine remaining_advance_lt { parser with depth } fun finished => ?_
  rename_i outcome
  obtain ⟨_, _, refused⟩ := step_finish parser.limit parser.depth reading parser.token finished
  simp [refused] at outcome

/-- Reads the number that is the current token. -/
def readNumber (parser : Parser) : Except ParseError Expression × Parser :=
  if parser.token.kind = .number then (.ok (.leaf parser.token.value), parser)
  else (.error (Reading.refuse .operandExpected parser.token), parser)

def isGroupStart (parser : Parser) : Bool :=
  match parser.token.kind with
  | .opening _ => true
  | _ => false

/-- Reads the group that the current token opens. -/
def readGroup (parser : Parser) : Except ParseError Expression × Parser :=
  if parser.isGroupStart then parser.read .atOperand
  else (.error ⟨.notAGroup, parser.token⟩, parser)

/-- Reads an operator and its right operand behind a value, or a number if there is no value. -/
def readBehind (parser : Parser) : Option Expression → Except ParseError Expression × Parser
  | none => parser.readNumber
  | some value => parser.read (.after value)

/-- Goes on behind the last value at the top level. -/
def readExpression (parser : Parser) : Except ParseError Expression × Parser :=
  parser.readBehind parser.last

/-- Reads the next value at the top level. -/
def readValue (parser : Parser) : Except ParseError Expression × Parser :=
  if parser.isGroupStart then parser.readGroup else parser.readExpression

/-- What has been read ends with its last token, which is not the finish, and no token comes
back. -/
theorem read_progress {parser rest : Parser} {reading : Reading} {tree : Expression}
    (outcome : parser.read reading = (.ok tree, rest)) :
    rest.token.kind ≠ .finish ∧ rest.remaining ≤ parser.remaining := by
  fun_induction read parser reading with
  | case1 parser reading depth error stepped => simp at outcome
  | case2 parser reading depth further stepped result done =>
    obtain ⟨_, rfl⟩ := Prod.mk.inj outcome
    refine ⟨fun finished => ?_, Nat.le_refl _⟩
    obtain ⟨_, _, refused⟩ := step_finish parser.limit parser.depth reading parser.token finished
    simp [refused] at stepped
  | case3 parser reading depth further stepped more inductionHypothesis =>
    obtain ⟨notFinished, notMore⟩ := inductionHypothesis outcome
    refine ⟨notFinished, Nat.le_trans notMore ?_⟩
    have bound := remaining_advance_le { parser with depth }
    exact Nat.le_trans (Nat.le_add_right _ _) bound

theorem readNumber_progress {parser rest : Parser} {tree : Expression}
    (outcome : parser.readNumber = (.ok tree, rest)) :
    rest.token.kind ≠ .finish ∧ rest.remaining ≤ parser.remaining := by
  unfold readNumber at outcome
  split at outcome
  · obtain ⟨_, rfl⟩ := Prod.mk.inj outcome
    simp_all
  · simp at outcome

theorem readValue_progress {parser rest : Parser} {tree : Expression}
    (outcome : parser.readValue = (.ok tree, rest)) :
    rest.token.kind ≠ .finish ∧ rest.remaining ≤ parser.remaining := by
  unfold readValue readGroup readExpression readBehind at outcome
  split at outcome
  · exact read_progress outcome
  · split at outcome
    · exact readNumber_progress outcome
    · exact read_progress outcome

/-- Reads values up to the finish and keeps the latest. The answer is the error that stopped the
reader, if one did. -/
def readToFinish (parser : Parser) : Option ParseError × Parser :=
  if parser.token.kind = .finish then (none, parser)
  else
    match _ : parser.readValue with
    | (.error error, rest) => (some error, rest)
    | (.ok tree, rest) => { rest with last := some tree }.advance.readToFinish
termination_by parser.remaining
decreasing_by
  rename_i outcome
  obtain ⟨notFinished, notMore⟩ := readValue_progress outcome
  exact Nat.lt_of_lt_of_le
    (remaining_advance_lt { rest with last := some tree } notFinished) notMore

/-! ### The whole input -/

/-- The logger of the journal's records about parsing. -/
def logger : String := "numtree.expressions.parser"

/-- What a call leaves: its outcome, the reader where it stopped, and the records it wrote. -/
structure Report where
  outcome : Except ParseError Expression
  parser : Parser
  records : List Journal.Record

/-- Reads the rest of the input and answers with its last value. An error on the way is written
to the journal, and so is the value; that the input held no value is not. -/
def parse (parser : Parser) : Report :=
  match parser.readToFinish with
  | (some error, rest) =>
    ⟨.error error, rest, [⟨Journal.debug, logger,
      "Parse failed for " ++ Text.quoted parser.source ++ ": " ++ error.message⟩]⟩
  | (none, rest) =>
    match rest.last with
    | none => ⟨.error ⟨.emptyInput, rest.token⟩, rest, []⟩
    | some tree =>
      ⟨.ok tree, rest, [⟨Journal.debug, logger,
        "Parsed " ++ Text.quoted parser.source ++ " (height " ++ toString tree.height ++ ")"⟩]⟩

end Parser

/-- The tree of a source in which groups nest no deeper than a limit. -/
def parse (source : String) (limit : Int) : Except ParseError Expression :=
  (Parser.start source limit).parse.outcome

end Reckon
