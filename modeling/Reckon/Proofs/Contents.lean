/-
This file says what the tokens of a text are, their places left out. What a
token is depends on the text ahead and on the one character before it, and
nothing else: `contents_readAll` says so, and everything after it is in terms
of these two.

A text is taken apart from the left. A blank is passed over, and a lexeme at the
front becomes a token if the scan stops right behind it. Where a lexeme stops is
decided by the character that follows, so the statements are about a lexeme in
front of any rest that does not go on with it.
-/

import Reckon.Proofs.Grammar
import Reckon.Proofs.Run

namespace Reckon

/-! ### Tokens without their places -/

/-- The kind of a token and the characters it covers. -/
structure Content where
  kind : Kind
  text : List Char
deriving DecidableEq

def Token.content (token : Token) : Content :=
  ⟨token.kind, token.text⟩

/-- The terminal of a token with these contents. -/
def Content.terminal (content : Content) : Terminal :=
  (⟨content.kind, content.text, 0, 0⟩ : Token).terminal

/-- The contents of the tokens of a text, up to and with the finish. -/
def contents (before : Option Char) (ahead : List Char) : List Content :=
  (Lexer.mk before ahead 0 0).readAll.1.map Token.content

/-! ### What a token depends on -/

theorem take_takeWhile (belongs : Char → Bool) (text : List Char) :
    text.take (text.takeWhile belongs).length = text.takeWhile belongs :=
  (List.prefix_iff_eq_take.mp (List.takeWhile_prefix belongs)).symm

theorem drop_takeWhile (belongs : Char → Bool) (text : List Char) :
    text.drop (text.takeWhile belongs).length = text.dropWhile belongs := by
  have parts : text.takeWhile belongs ++ text.dropWhile belongs = text :=
    List.takeWhile_append_dropWhile
  exact (congrArg (List.drop _) parts.symm).trans List.drop_left

namespace Lexer

/-- Two places have the same character before them and the same text ahead. -/
structure Alike (first second : Lexer) : Prop where
  before : first.before = second.before
  ahead : first.ahead = second.ahead

variable {first second : Lexer}

theorem Alike.skip (alike : Alike first second) (count : Nat) :
    Alike (first.skip count) (second.skip count) := by
  constructor
  · show (first.ahead.take count).getLast?.or first.before = _
    rw [alike.before, alike.ahead]
    rfl
  · exact congrArg (List.drop count) alike.ahead

theorem Alike.skipBlanks (alike : Alike first second) :
    Alike first.skipBlanks second.skipBlanks := by
  rw [Lexer.skipBlanks, Lexer.skipBlanks, alike.ahead]
  exact alike.skip _

/-- The next token depends on the place behind the blanks. -/
theorem Alike.next (alike : Alike first.skipBlanks second.skipBlanks) :
    first.next.1.content = second.next.1.content ∧ Alike first.next.2 second.next.2 := by
  constructor
  · show Content.mk (scan first.skipBlanks.before first.skipBlanks.ahead).1
      (first.skipBlanks.ahead.take (scan first.skipBlanks.before first.skipBlanks.ahead).2) = _
    rw [alike.before, alike.ahead]
    rfl
  · show Alike (first.skipBlanks.skip (scan first.skipBlanks.before first.skipBlanks.ahead).2) _
    rw [alike.before, alike.ahead]
    exact alike.skip _

theorem Alike.readAll (alike : Alike first.skipBlanks second.skipBlanks) :
    first.readAll.1.map Token.content = second.readAll.1.map Token.content := by
  fun_induction Lexer.readAll first generalizing second with
  | case1 first found =>
    rename_i finished
    obtain ⟨same, _⟩ := alike.next
    have finished' : second.next.1.kind = .finish :=
      (congrArg Content.kind same).symm.trans finished
    rw [readAll_eq, if_pos finished', List.map_singleton, List.map_singleton, same]
  | case2 first found more others =>
    rename_i inductionHypothesis
    obtain ⟨same, onward⟩ := alike.next
    have more' : ¬ second.next.1.kind = .finish := fun finished =>
      more ((congrArg Content.kind same).trans finished)
    rw [readAll_eq second, if_neg more', List.map_cons, List.map_cons, same]
    exact congrArg _ (inductionHypothesis onward.skipBlanks)

theorem before_skipBlanks (lexer : Lexer) :
    lexer.skipBlanks.before = (lexer.ahead.takeWhile isBlank).getLast?.or lexer.before := by
  rw [skipBlanks, skip, take_takeWhile]

theorem ahead_skipBlanks (lexer : Lexer) :
    lexer.skipBlanks.ahead = lexer.ahead.dropWhile isBlank :=
  drop_takeWhile isBlank lexer.ahead

end Lexer

theorem contents_readAll (lexer : Lexer) :
    lexer.readAll.1.map Token.content = contents lexer.before lexer.ahead :=
  Lexer.Alike.readAll ⟨rfl, rfl⟩

theorem contents_nil (before : Option Char) : contents before [] = [⟨.finish, []⟩] := by
  rw [contents, Lexer.readAll_eq]
  rfl

/-- A blank at the front is passed over. -/
theorem contents_blank {blank : Char} (before : Option Char) (ahead : List Char)
    (isBlank : Lexer.isBlank blank = true) :
    contents before (blank :: ahead) = contents (some blank) ahead := by
  refine Lexer.Alike.readAll ⟨?_, ?_⟩
  · rw [Lexer.before_skipBlanks, Lexer.before_skipBlanks, List.takeWhile_cons_of_pos isBlank,
      List.getLast?_cons]
    cases (ahead.takeWhile Lexer.isBlank).getLast? <;> rfl
  · rw [Lexer.ahead_skipBlanks, Lexer.ahead_skipBlanks, List.dropWhile_cons_of_pos isBlank]

/-! ### The token at the front -/

theorem Kind.ofLexeme_ne_finish (lexeme : List Char) : Kind.ofLexeme lexeme ≠ .finish := by
  unfold Kind.ofLexeme
  split <;> simp

/-- Ahead of some text there is a token, and it takes a character. -/
theorem Lexer.scan_cons (before : Option Char) (char : Char) (ahead : List Char) :
    (scan before (char :: ahead)).1 ≠ .finish ∧ 0 < (scan before (char :: ahead)).2 := by
  rw [scan]
  split
  · exact ⟨Kind.ofLexeme_ne_finish _, by simp⟩
  · split
    · refine ⟨?_, by simp⟩
      dsimp only
      split <;> simp
    · exact ⟨Kind.ofLexeme_ne_finish _, by simp⟩

/-- The first token of a text that does not begin with a blank, and what is behind it. -/
theorem contents_cons {char : Char} (before : Option Char) (ahead : List Char)
    (notBlank : Lexer.isBlank char = false) :
    contents before (char :: ahead) =
      ⟨(Lexer.scan before (char :: ahead)).1,
        (char :: ahead).take (Lexer.scan before (char :: ahead)).2⟩ ::
      contents ((char :: ahead).take (Lexer.scan before (char :: ahead)).2).getLast?
        ((char :: ahead).drop (Lexer.scan before (char :: ahead)).2) := by
  obtain ⟨more, positive⟩ := Lexer.scan_cons before char ahead
  have here : (Lexer.mk before (char :: ahead) 0 0).skipBlanks = ⟨before, char :: ahead, 0, 0⟩ := by
    rw [Lexer.skipBlanks, List.takeWhile_cons_of_neg (by rw [notBlank]; exact Bool.false_ne_true)]
    rfl
  have last : ((char :: ahead).take (Lexer.scan before (char :: ahead)).2).getLast?.or before =
      ((char :: ahead).take (Lexer.scan before (char :: ahead)).2).getLast? := by
    obtain ⟨count, isCount⟩ := Nat.exists_eq_succ_of_ne_zero (Nat.ne_of_gt positive)
    rw [isCount, List.take_succ_cons, List.getLast?_cons]
    rfl
  rw [contents, Lexer.readAll_eq, Lexer.next, here, Lexer.tokenHere, if_neg more, List.map_cons,
    contents_readAll]
  simp only [Lexer.skip, last]
  rfl

/-- A lexeme at the front becomes a token if the scan stops right behind it. -/
theorem contents_lexeme {before : Option Char} {char : Char} {lexeme rest : List Char} {kind : Kind}
    (notBlank : Lexer.isBlank char = false)
    (scanned : Lexer.scan before (char :: lexeme ++ rest) = (kind, (char :: lexeme).length)) :
    contents before (char :: lexeme ++ rest) =
      ⟨kind, char :: lexeme⟩ :: contents (char :: lexeme).getLast? rest := by
  rw [List.cons_append] at scanned ⊢
  rw [contents_cons before (lexeme ++ rest) notBlank, scanned, ← List.cons_append, List.take_left,
    List.drop_left]

/-- Only a sign asks for the character before it. -/
theorem contents_indifferent (before before' : Option Char) (ahead : List Char)
    (unsigned : ∀ next ∈ ahead.head?, Numeral.isSign next = false) :
    contents before ahead = contents before' ahead := by
  cases ahead with
  | nil => rw [contents_nil, contents_nil]
  | cons char ahead =>
    have notSign : Numeral.isSign char = false := unsigned char rfl
    cases isBlank : Lexer.isBlank char with
    | true => rw [contents_blank before ahead isBlank, contents_blank before' ahead isBlank]
    | false =>
      have same : Lexer.scan before (char :: ahead) = Lexer.scan before' (char :: ahead) := by
        simp only [Lexer.scan, Lexer.signsNumber, notSign, Bool.false_and]
      rw [contents_cons before ahead isBlank, contents_cons before' ahead isBlank, same]

/-! ### Lexemes -/

/-- The text does not go on with a character of this sort. -/
def RunEnds (belongs : Char → Bool) (rest : List Char) : Prop :=
  ∀ next ∈ rest.head?, belongs next = false

/-- A run in front of a text that does not go on with it. -/
theorem takeWhile_of_ends {belongs : Char → Bool} {run rest : List Char}
    (all : ∀ char ∈ run, belongs char = true) (ends : RunEnds belongs rest) :
    (run ++ rest).takeWhile belongs = run := by
  rw [List.takeWhile_append_of_pos all]
  cases rest with
  | nil => exact List.append_nil run
  | cons next rest =>
    rw [List.takeWhile_cons_of_neg (Bool.eq_false_iff.mp (ends next rfl)), List.append_nil]

/-- The text does not go on with a digit or a point. -/
def Stops (rest : List Char) : Prop :=
  ∀ next ∈ rest.head?, Numeral.isNumeric next = false

/-- A character that is a token of its own wherever it stands, or a sign that no number claims. -/
theorem contents_single {before : Option Char} {char : Char} (rest : List Char)
    (notBlank : Lexer.isBlank char = false) (notComparison : Lexer.isComparison char = false)
    (notNumeric : Numeral.isNumeric char = false)
    (unclaimed : Lexer.signsNumber before char rest.head? = false) :
    contents before (char :: rest) =
      ⟨Kind.ofLexeme [char], [char]⟩ :: contents (some char) rest := by
  show contents before ([char] ++ rest) = _
  refine contents_lexeme notBlank ?_
  simp [Lexer.scan, notComparison, notNumeric, unclaimed]

theorem takeWhile_numeric {run rest : List Char} (numeric : run.all Numeral.isNumeric = true)
    (stops : Stops rest) : (run ++ rest).takeWhile Numeral.isNumeric = run :=
  takeWhile_of_ends (List.all_eq_true.mp numeric) stops

/-- The characters of a number are none of the others that the scan looks for. -/
theorem isNumeric_apart {char : Char} (numeric : Numeral.isNumeric char = true) :
    Lexer.isBlank char = false ∧ Lexer.isComparison char = false ∧
      Numeral.isSign char = false := by
  refine ⟨?_, ?_, ?_⟩ <;> refine Bool.eq_false_iff.mpr fun other => ?_
  · simp only [Lexer.isBlank, Bool.or_eq_true, beq_iff_eq] at other
    rcases other with ((rfl | rfl) | rfl) | rfl <;> exact absurd numeric (by decide)
  · simp only [Lexer.isComparison, Bool.or_eq_true, beq_iff_eq] at other
    rcases other with ((rfl | rfl) | rfl) | rfl <;> exact absurd numeric (by decide)
  · simp only [Numeral.isSign, Bool.or_eq_true, beq_iff_eq] at other
    rcases other with rfl | rfl <;> exact absurd numeric (by decide)

theorem isSign_apart {char : Char} (sign : Numeral.isSign char = true) :
    Lexer.isBlank char = false ∧ Lexer.isComparison char = false ∧
      Numeral.isNumeric char = false := by
  simp only [Numeral.isSign, Bool.or_eq_true, beq_iff_eq] at sign
  rcases sign with rfl | rfl <;> decide

/-- What a numeral looks like: a run of digits and points that is not empty, behind at most one
sign. -/
theorem Numeral.accepts_cases {text : List Char} (accepted : Numeral.accepts text = true) :
    (∃ char run, text = char :: run ∧ (char :: run).all Numeral.isNumeric = true) ∨
      ∃ sign char run, text = sign :: char :: run ∧ Numeral.isSign sign = true ∧
        (char :: run).all Numeral.isNumeric = true := by
  simp only [accepts, Bool.and_eq_true] at accepted
  obtain ⟨⟨numeric, digit⟩, _⟩ := accepted
  cases text with
  | nil => simp [unsigned] at digit
  | cons char run =>
    rw [unsigned] at numeric digit
    split at numeric
    · next sign =>
      rw [if_pos sign] at digit
      cases run with
      | nil => simp at digit
      | cons next run => exact .inr ⟨char, next, run, rfl, sign, numeric⟩
    · exact .inl ⟨char, run, rfl, numeric⟩

/-- A numeral is one token, if nothing numeric stands right before or behind it. -/
theorem contents_numeral {before : Option Char} {text : List Char} (rest : List Char)
    (accepted : Numeral.accepts text = true) (fresh : before.any Numeral.isNumeric = false)
    (stops : Stops rest) :
    contents before (text ++ rest) = ⟨.number, text⟩ :: contents text.getLast? rest := by
  rcases Numeral.accepts_cases accepted with
    ⟨char, run, rfl, numeric⟩ | ⟨sign, char, run, rfl, isSign, numeric⟩
  · have first : Numeral.isNumeric char = true :=
      List.all_eq_true.mp numeric char List.mem_cons_self
    have others : run.all Numeral.isNumeric = true := by
      rw [List.all_cons, Bool.and_eq_true] at numeric
      exact numeric.2
    obtain ⟨notBlank, notComparison, _⟩ := isNumeric_apart first
    refine contents_lexeme notBlank ?_
    simp [Lexer.scan, notComparison, first, takeWhile_numeric others stops, accepted]
  · have first : Numeral.isNumeric char = true :=
      List.all_eq_true.mp numeric char List.mem_cons_self
    obtain ⟨notBlank, notComparison, _⟩ := isSign_apart isSign
    have claimed : Lexer.signsNumber before sign (some char) = true := by
      simp [Lexer.signsNumber, isSign, first, fresh]
    have whole : ((char :: run) ++ rest).takeWhile Numeral.isNumeric = char :: run :=
      takeWhile_numeric numeric stops
    refine contents_lexeme notBlank ?_
    rw [List.cons_append] at whole
    simp [Lexer.scan, notComparison, claimed, whole, accepted]

/-! ### The terminals of a text -/

/-- The terminals of a text, up to and with the finish. -/
def terminals (before : Option Char) (ahead : List Char) : List Terminal :=
  (contents before ahead).map Content.terminal

theorem terminals_words (source : String) :
    (words source).map Token.terminal = (terminals none source.toList).dropLast := by
  have all : (tokens source).map Token.content = contents none source.toList := rfl
  rw [words, terminals, ← all, List.map_map, List.map_dropLast]
  rfl

theorem terminals_nil (before : Option Char) : terminals before [] = [.foreign] := by
  rw [terminals, contents_nil]
  rfl

/-- What stands behind an operand does not go on with it: neither with its digits nor, as a sign,
with a number of its own. -/
def Behind (rest : List Char) : Prop :=
  ∀ next ∈ rest.head?, Numeral.isNumeric next = false ∧ Numeral.isSign next = false

section
variable {before : Option Char} {rest : List Char}

theorem Behind.contents (behind : Behind rest) (before' : Option Char) :
    contents before rest = contents before' rest :=
  contents_indifferent before before' rest fun next isNext => (behind next isNext).2

theorem terminals_numeral {text : List Char} (accepted : Numeral.accepts text = true)
    (fresh : before.any Numeral.isNumeric = false) (behind : Behind rest) :
    terminals before (text ++ rest) = .number (Numeral.value text) :: terminals none rest := by
  rw [terminals, contents_numeral rest accepted fresh fun next isNext => (behind next isNext).1,
    behind.contents none]
  rfl

/-- An operator between blanks. -/
theorem contents_operator (operator : Operator) :
    contents before ((" " ++ operator.symbol ++ " ").toList ++ rest) =
      ⟨.operator operator, operator.symbol.toList⟩ :: contents (some ' ') rest := by
  have spaced : (" " ++ operator.symbol ++ " ").toList ++ rest =
      ' ' :: (operator.symbol.toList ++ ' ' :: rest) := by
    simp
  rw [spaced, contents_blank before _ (by decide)]
  cases operator <;>
  · show contents (some ' ') (_ :: ' ' :: rest) = _
    rw [contents_single (' ' :: rest) (by decide) (by decide) (by decide) rfl,
      contents_blank _ rest (by decide)]
    rfl

theorem contents_opening :
    contents before ('(' :: rest) = ⟨.opening .round, ['(']⟩ :: contents (some '(') rest :=
  contents_single rest (by decide) (by decide) (by decide) rfl

theorem contents_closing (behind : Behind rest) :
    contents before (')' :: rest) = ⟨.closing .round, [')']⟩ :: contents none rest := by
  rw [contents_single rest (by decide) (by decide) (by decide) rfl, behind.contents none]
  rfl

theorem terminals_operator (operator : Operator) :
    terminals before ((" " ++ operator.symbol ++ " ").toList ++ rest) =
      .operator operator :: terminals (some ' ') rest := by
  rw [terminals, contents_operator]
  rfl

theorem terminals_opening :
    terminals before ('(' :: rest) = .opening .round :: terminals (some '(') rest := by
  rw [terminals, contents_opening]
  rfl

theorem terminals_closing (behind : Behind rest) :
    terminals before (')' :: rest) = .closing .round :: terminals none rest := by
  rw [terminals, contents_closing behind]
  rfl

end

theorem behind_nil : Behind [] := by
  intro next isNext
  exact absurd isNext (by simp)

theorem behind_operator (operator : Operator) (rest : List Char) :
    Behind ((" " ++ operator.symbol ++ " ").toList ++ rest) := by
  intro next isNext
  have isBlank : ' ' = next := by simpa using isNext
  rw [← isBlank]
  decide

/-- A numeral and the operator between blanks behind it. -/
theorem terminals_numeral_operator {before : Option Char} {text : List Char}
    (accepted : Numeral.accepts text = true) (fresh : before.any Numeral.isNumeric = false)
    (operator : Operator) (rest : List Char) :
    terminals before (text ++ ((" " ++ operator.symbol ++ " ").toList ++ rest)) =
      .number (Numeral.value text) :: .operator operator :: terminals (some ' ') rest := by
  rw [terminals_numeral accepted fresh (behind_operator operator rest), terminals_operator]

theorem behind_closing (rest : List Char) : Behind (')' :: rest) := by
  intro next isNext
  have closes : ')' = next := by simpa using isNext
  rw [← closes]
  decide

end Reckon
