/-
This file splits a source into tokens.

Blanks separate tokens and are dropped. A run of comparison signs is one
token, a run of digits and points is one token, and every other character is a
token of its own. A sign right before a digit or a point belongs to the
number, unless a digit or a point stands right before the sign: `10-5` is a
difference and `10 -5` is two numbers. Nothing is refused here; what fits no
rule becomes an illegal token.
-/

import Reckon.Token

namespace Reckon

/-- A place in a source: the character just passed, the characters ahead, and how many
characters and line ends were passed. -/
structure Lexer where
  before : Option Char
  ahead : List Char
  position : Nat
  line : Nat

namespace Lexer

/-- The start of a source. -/
def start (source : String) : Lexer :=
  ⟨none, source.toList, 0, 0⟩

/-! ### Characters -/

def isBlank (char : Char) : Bool :=
  char == ' ' || char == '\t' || char == '\n' || char == '\r'

def isComparison (char : Char) : Bool :=
  char == '=' || char == '<' || char == '>' || char == '~'

/-- Whether a character is the sign of a number, given its two neighbours. -/
def signsNumber (before : Option Char) (char : Char) (after : Option Char) : Bool :=
  Numeral.isSign char && after.any Numeral.isNumeric && !before.any Numeral.isNumeric

/-! ### One token -/

/-- The kind of the token at the front of a text and how many characters it covers. The text
starts with no blank. -/
def scan (before : Option Char) : List Char → Kind × Nat
  | [] => (.finish, 0)
  | char :: rest =>
    if isComparison char then
      let run := char :: rest.takeWhile isComparison
      (Kind.ofLexeme run, run.length)
    else if Numeral.isNumeric char || signsNumber before char rest.head? then
      let run := char :: rest.takeWhile Numeral.isNumeric
      (if Numeral.accepts run then .number else .illegal, run.length)
    else (Kind.ofLexeme [char], 1)

/-- The place so many characters further on. -/
def skip (lexer : Lexer) (count : Nat) : Lexer :=
  let passed := lexer.ahead.take count
  { before := passed.getLast?.or lexer.before
    ahead := lexer.ahead.drop count
    position := lexer.position + passed.length
    line := lexer.line + passed.count '\n' }

/-- The place behind the blanks ahead. -/
def skipBlanks (lexer : Lexer) : Lexer :=
  lexer.skip (lexer.ahead.takeWhile isBlank).length

/-- The token at a place that is not blank. -/
def tokenHere (lexer : Lexer) : Token :=
  let found := scan lexer.before lexer.ahead
  ⟨found.1, lexer.ahead.take found.2, lexer.position, lexer.line⟩

/-- The next token and the place behind it. At the end of the source this is the finish, however
often it is asked for. -/
def next (lexer : Lexer) : Token × Lexer :=
  let place := lexer.skipBlanks
  (place.tokenHere, place.skip (scan place.before place.ahead).2)

/-! ### All tokens -/

theorem length_skip_le (lexer : Lexer) (count : Nat) :
    (lexer.skip count).ahead.length ≤ lexer.ahead.length := by
  simp [skip]

/-- A token other than the finish takes at least one character. -/
theorem next_shorter (lexer : Lexer) (more : lexer.next.1.kind ≠ .finish) :
    lexer.next.2.ahead.length < lexer.ahead.length := by
  have blanks := length_skip_le lexer (lexer.ahead.takeWhile isBlank).length
  simp only [next, tokenHere, skipBlanks] at more ⊢
  generalize lexer.skip (lexer.ahead.takeWhile isBlank).length = place at more blanks ⊢
  match ahead : place.ahead with
  | [] => simp [scan, ahead] at more
  | char :: rest =>
    have positive : 0 < (scan place.before (char :: rest)).2 := by
      simp only [scan]
      split
      · simp
      · split <;> simp
    simp only [skip, ahead, List.length_drop, List.length_cons] at blanks ⊢
    omega

/-- Any token takes at least no characters back. -/
theorem next_not_longer (lexer : Lexer) : lexer.next.2.ahead.length ≤ lexer.ahead.length :=
  Nat.le_trans (length_skip_le _ _) (length_skip_le _ _)

/-- The tokens from a place on, up to and with the finish, and the place behind them. -/
def readAll (lexer : Lexer) : List Token × Lexer :=
  let found := lexer.next
  if found.1.kind = .finish then ([found.1], found.2)
  else
    let others := found.2.readAll
    (found.1 :: others.1, others.2)
termination_by lexer.ahead.length
decreasing_by exact next_shorter lexer ‹_›

end Lexer

/-- The tokens of a source, up to and with the finish. -/
def tokens (source : String) : List Token :=
  (Lexer.start source).readAll.1

end Reckon
