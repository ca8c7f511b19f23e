/-
This file puts brackets around one number of a source and says how the new
source is read.

The tokens before the number and those behind it stay what they are, because
blanks part them from it: the text before goes on with the same character, and
the text behind begins with a blank, which asks for nothing before it. So the
terminals of the new source are those of the old one with the number in brackets
of its own, and the rest is about lines. The group needs one more level of
nesting. It is read as the number was, unless the number was contested.
-/

import Reckon.Proofs.Wrapping

namespace Reckon

open Lexer

/-! ### The contents of tokens over a text -/

/-- Blanks at the front are passed over. -/
theorem contents_blanks (passed : List Char) {blanks : List Char} (rest : List Char)
    (blank : ∀ char ∈ blanks, isBlank char = true) :
    contents passed.getLast? (blanks ++ rest) = contents (passed ++ blanks).getLast? rest := by
  induction blanks generalizing passed with
  | nil => rw [List.append_nil, List.nil_append]
  | cons char blanks inductionHypothesis =>
    obtain ⟨first, others⟩ := List.forall_mem_cons.mp blank
    have further := inductionHypothesis (passed ++ [char]) others
    rw [List.getLast?_concat, List.append_assoc] at further
    rw [List.cons_append, contents_blank _ _ first, further, List.singleton_append]

/-- Blanks and a lexeme at the front become a token. -/
theorem Lexeme.contents_behind_blanks {passed blanks text rest : List Char} {kind : Kind}
    (lexeme : Lexeme (passed ++ blanks).getLast? text rest kind)
    (blank : ∀ char ∈ blanks, isBlank char = true) :
    contents passed.getLast? (blanks ++ (text ++ rest)) =
      ⟨kind, text⟩ :: contents (passed ++ blanks ++ text).getLast? rest := by
  rw [contents_blanks passed _ blank, lexeme.contents_append,
    List.getLast?_append_of_ne_nil _ lexeme.ne_nil]

section
variable {passed ahead : List Char} {stream : List Token}

theorem Laid.contents (laid : Laid passed ahead stream) :
    Reckon.contents passed.getLast? ahead = stream.map Token.content := by
  induction laid with
  | @finish passed blanks blank =>
    have read := contents_blanks passed [] blank
    rw [List.append_nil, contents_nil] at read
    exact read
  | token blank lexeme behind inductionHypothesis =>
    rw [lexeme.contents_behind_blanks blank, inductionHypothesis]
    rfl

/-- If the next token does not begin at once, the text ahead begins with a blank. -/
theorem Laid.isBlank_head (laid : Laid passed ahead stream)
    (apart : ∀ next ∈ stream.head?, next.kind ≠ .finish → passed.length < next.position) :
    ∀ char ∈ ahead.head?, isBlank char = true := by
  intro char isHead
  cases laid with
  | finish blank => exact blank char (List.mem_of_mem_head? isHead)
  | @token _ blanks text rest kind others blank lexeme behind =>
    have some : passed.length < (passed ++ blanks).length := apart _ rfl lexeme.ne_finish
    cases blanks with
    | nil =>
      rw [List.append_nil] at some
      exact absurd some (Nat.lt_irrefl _)
    | cons first blanks =>
      obtain rfl := Option.some.inj isHead
      exact blank _ List.mem_cons_self

/-- A token that is not the finish is a lexeme behind blanks. -/
theorem Laid.exists_blanks {token : Token} {others : List Token}
    (laid : Laid passed ahead (token :: others)) (more : token.kind ≠ .finish) :
    ∃ blanks rest, (∀ char ∈ blanks, isBlank char = true) ∧
      ahead = blanks ++ (token.text ++ rest) ∧ token.position = (passed ++ blanks).length ∧
      Lexeme (passed ++ blanks).getLast? token.text rest token.kind ∧
      Laid (passed ++ blanks ++ token.text) rest others := by
  cases laid with
  | finish => exact absurd rfl more
  | token blank lexeme behind => exact ⟨_, _, blank, rfl, rfl, lexeme, behind⟩

end

/-! ### The text before a token -/

/-- The tokens lie over the front of a text, and so they do as long as what comes behind begins
with the same character. -/
structure Fronts (passed front rest : List Char) (before : List Token) : Prop where
  empty : before = [] → front = []
  ends : ∀ last ∈ before.getLast?, last.position + last.text.length = (passed ++ front).length
  contents : ∀ tail, (before ≠ [] → tail.head? = rest.head?) →
    Reckon.contents passed.getLast? (front ++ tail) =
      before.map Token.content ++ Reckon.contents (passed ++ front).getLast? tail

theorem fronts_nil (passed rest : List Char) : Fronts passed [] rest [] where
  empty := fun _ => rfl
  ends := fun last isLast => absurd isLast (by simp)
  contents := fun tail _ => by rw [List.append_nil, List.nil_append]; rfl

/-- One more token in front, with the blanks before it. -/
theorem Fronts.cons {passed blanks text front rest : List Char} {kind : Kind}
    {before : List Token} (fronts : Fronts (passed ++ blanks ++ text) front rest before)
    (blank : ∀ char ∈ blanks, isBlank char = true)
    (lexeme : Lexeme (passed ++ blanks).getLast? text (front ++ rest) kind) :
    Fronts passed (blanks ++ (text ++ front)) rest
      (⟨kind, text, (passed ++ blanks).length, (passed ++ blanks).count '\n'⟩ :: before) := by
  have whole : passed ++ (blanks ++ (text ++ front)) = passed ++ blanks ++ text ++ front := by
    simp only [List.append_assoc]
  refine ⟨fun none => absurd none (List.cons_ne_nil _ _), ?_, ?_⟩
  · intro last isLast
    rw [whole]
    cases before with
    | nil =>
      obtain rfl := List.mem_singleton.mp (List.mem_of_getLast? isLast)
      rw [fronts.empty rfl, List.append_nil]
      exact List.length_append.symm
    | cons token before => exact fronts.ends last (by simpa using isLast)
  · intro tail same
    have alike := same (List.cons_ne_nil _ _)
    have head : (front ++ tail).head? = (front ++ rest).head? := by
      rw [List.head?_append, List.head?_append, alike]
    rw [whole, List.append_assoc, List.append_assoc,
      (lexeme.of_head head).contents_behind_blanks blank, fronts.contents tail fun _ => alike]
    rfl

/-- Tokens over a text can be split, and the text with them right behind the last of the first
ones. -/
theorem Laid.split {passed ahead : List Char} {before others : List Token}
    (laid : Laid passed ahead (before ++ others)) (some : others ≠ []) :
    ∃ front rest, ahead = front ++ rest ∧ Fronts passed front rest before ∧
      Laid (passed ++ front) rest others := by
  induction before generalizing passed ahead with
  | nil =>
    refine ⟨[], ahead, rfl, fronts_nil passed ahead, ?_⟩
    rwa [List.append_nil]
  | cons token before inductionHypothesis =>
    rw [List.cons_append] at laid
    generalize stream : before ++ others = behind at laid
    cases laid with
    | finish => exact absurd stream (List.append_ne_nil_of_right_ne_nil _ some)
    | @token _ blanks text rest kind _ blank lexeme behind =>
      subst stream
      obtain ⟨front, onward, rfl, fronts, split⟩ := inductionHypothesis behind
      refine ⟨blanks ++ (text ++ front), onward, ?_, fronts.cons blank lexeme, ?_⟩
      · simp only [List.append_assoc]
      · simpa only [List.append_assoc] using split

/-! ### Words with blanks between -/

/-- Exactly one space stands between a token and the next. -/
def Spaced (source : String) : Prop :=
  (words source).IsChain fun first second =>
    second.position = first.position + first.text.length + 1 ∧
      source.toList[first.position + first.text.length]? = some ' '

/-- A word stands between a front and a rest of the source that are read without it: blanks part it
from the words before and behind. -/
structure Token.Apart (source : String) (before : List Token) (word : Token) (after : List Token)
    (front rest : List Char) : Prop where
  parts : source.toList = front ++ (word.text ++ rest)
  position : word.position = front.length
  lexeme : Lexeme front.getLast? word.text rest word.kind
  before : ∀ tail, contents none (front ++ tail) =
    before.map Token.content ++ contents front.getLast? tail
  blank : ∀ next ∈ rest.head?, isBlank next = true
  behind : contents (front ++ word.text).getLast? rest =
    after.map Token.content ++ [⟨.finish, []⟩]

section
variable {source : String} {before after : List Token} {word : Token}

/-- Between spaced words none begins where the one before it ends. -/
theorem Spaced.positions (spaced : Spaced source) (parts : words source = before ++ word :: after) :
    (∀ last ∈ before.getLast?, last.position + last.text.length < word.position) ∧
      ∀ next ∈ after.head?, word.position + word.text.length < next.position := by
  rw [Spaced, parts] at spaced
  obtain ⟨_, behind, between⟩ := List.isChain_append.mp spaced
  constructor
  · intro last isLast
    obtain ⟨position, _⟩ := between last isLast word rfl
    omega
  · intro next isNext
    obtain ⟨position, _⟩ := (List.isChain_cons.mp behind).1 next isNext
    omega

theorem Spaced.exists_apart (spaced : Spaced source)
    (parts : words source = before ++ word :: after) :
    ∃ front rest, word.Apart source before after front rest := by
  obtain ⟨positionBefore, positionBehind⟩ := spaced.positions parts
  obtain ⟨more, stream⟩ := words_finished source
  rw [parts] at more
  rw [parts, List.append_assoc, List.cons_append] at stream
  have laid := laid_tokens source
  rw [stream] at laid
  obtain ⟨front, ahead, isSource, fronts, laid⟩ := laid.split (List.cons_ne_nil _ _)
  obtain ⟨blanks, rest, blank, rfl, position, lexeme, behind⟩ :=
    laid.exists_blanks (more word (by simp))
  rw [List.nil_append] at position lexeme behind
  refine ⟨front ++ blanks, rest, ?_, position, lexeme, fun tail => ?_, ?_, ?_⟩
  · rw [isSource, List.append_assoc]
  · -- The text before goes on with a blank, whatever the tail.
    have alike : before ≠ [] → (blanks ++ tail).head? = (blanks ++ (word.text ++ rest)).head? := by
      intro some
      have isLast := List.getLast?_eq_some_getLast some
      have ends : _ = front.length := fronts.ends _ isLast
      have apart := positionBefore _ isLast
      rw [ends, position, List.length_append] at apart
      have someBlanks : blanks ≠ [] := List.length_pos_iff.mp (by omega)
      rw [List.head?_append_of_ne_nil _ someBlanks, List.head?_append_of_ne_nil _ someBlanks]
    have read := fronts.contents _ alike
    rw [contents_blanks _ _ blank, List.nil_append, ← List.append_assoc] at read
    exact read
  · refine behind.isBlank_head fun next isNext notFinish => ?_
    cases after with
    | nil =>
      obtain rfl := Option.some.inj isNext
      exact absurd rfl notFinish
    | cons follower after =>
      rw [List.length_append, ← position]
      exact positionBehind next isNext
  · rw [behind.contents, List.map_append]
    rfl

end

/-! ### One number in brackets -/

/-- The source with brackets around a token, and a space on both sides of it. -/
def bracketed (source : String) (token : Token) : String :=
  String.ofList (source.toList.take token.position ++ "( ".toList ++ token.text ++ " )".toList ++
    source.toList.drop (token.position + token.text.length))

/-- The contents of a numeral in round brackets. -/
def contentsInBrackets (text : List Char) : List Content :=
  [⟨.opening .round, ['(']⟩, ⟨.number, text⟩, ⟨.closing .round, [')']⟩]

theorem contents_in_brackets {text rest : List Char} (before : Option Char)
    (accepted : Numeral.accepts text = true) :
    contents before ('(' :: ' ' :: (text ++ (' ' :: ')' :: rest))) =
      contentsInBrackets text ++ contents (some ')') rest := by
  have stops : Stops (' ' :: ')' :: rest) := by
    intro next isNext
    obtain rfl := Option.some.inj isNext
    decide
  rw [contents_single _ (by decide) (by decide) (by decide) rfl, contents_blank _ _ (by decide),
    contents_numeral _ accepted (by decide) stops, contents_blank _ _ (by decide),
    contents_single _ (by decide) (by decide) (by decide) rfl]
  rfl

section
variable {source : String} {before after : List Token} {number : Token} {front rest : List Char}

theorem Token.Apart.toList_bracketed (apart : number.Apart source before after front rest) :
    (bracketed source number).toList =
      front ++ ('(' :: ' ' :: (number.text ++ (' ' :: ')' :: rest))) := by
  have opens : "( ".toList = ['(', ' '] := rfl
  have closes : " )".toList = [' ', ')'] := rfl
  have behind : source.toList.drop (number.position + number.text.length) = rest := by
    rw [apart.parts, apart.position, ← List.append_assoc, ← List.length_append, List.drop_left]
  rw [bracketed, String.toList_ofList, behind, apart.position, apart.parts, List.take_left, opens,
    closes]
  simp only [List.append_assoc, List.cons_append, List.nil_append]

/-- Around a number that stands apart the brackets become tokens, and nothing else changes. -/
theorem Token.Apart.contents_bracketed (apart : number.Apart source before after front rest)
    (isNumber : number.kind = .number) :
    contents none (bracketed source number).toList = before.map Token.content ++
      (contentsInBrackets number.text ++ (after.map Token.content ++ [⟨.finish, []⟩])) := by
  have unsigned : ∀ next ∈ rest.head?, Numeral.isSign next = false := by
    intro next isNext
    refine Bool.eq_false_iff.mpr fun sign => ?_
    have notBlank := (isSign_apart sign).1
    rw [apart.blank next isNext] at notBlank
    exact Bool.false_ne_true notBlank.symm
  rw [apart.toList_bracketed, apart.before,
    contents_in_brackets _ (apart.lexeme.accepts_text isNumber),
    contents_indifferent _ (front ++ number.text).getLast? rest unsigned, apart.behind]

theorem Token.Apart.terminals_bracketed (apart : number.Apart source before after front rest)
    (isNumber : number.kind = .number) :
    (words (bracketed source number)).map Token.terminal =
      before.map Token.terminal ++ (wrapped number.value ++ after.map Token.terminal) := by
  have terminal (stream : List Token) :
      (stream.map Token.content).map Content.terminal = stream.map Token.terminal :=
    List.map_map
  rw [terminals_words, terminals, apart.contents_bracketed isNumber]
  simp only [List.map_append, List.map_singleton, terminal, ← List.append_assoc,
    List.dropLast_concat]
  rfl

/-- Any number of a spaced source that is accepted can be put in brackets, with one more level of
nesting. A limit below zero leaves as much room as zero. The tree stays the same, unless a sum or
difference stands right before the number and a product or quotient right behind it, and no later
group takes the place of the value that the number is in: then not even the shape is the same. -/
theorem parse_bracketed {limit : Int} {tree : Expression} (spaced : Spaced source)
    (accepted : parse source limit = .ok tree) (parts : words source = before ++ number :: after)
    (isNumber : number.kind = .number) :
    ∃ tree', parse (bracketed source number) (max limit 0 + 1) = .ok tree' ∧
      (tree' = tree ↔
        ¬ (Contested (before.map Token.terminal) (after.map Token.terminal) ∧
          Unbroken ((number :: after).map Token.terminal))) ∧
      (tree'.shape = tree.shape ↔
        ¬ (Contested (before.map Token.terminal) (after.map Token.terminal) ∧
          Unbroken ((number :: after).map Token.terminal))) := by
  obtain ⟨front, rest, apart⟩ := spaced.exists_apart parts
  obtain ⟨line, spelled, fits, rfl⟩ := line_of_parse accepted
  have terminal : number.terminal = .number number.value := by rw [Token.terminal, isNumber]
  rw [parts, List.map_append, List.map_cons, terminal] at spelled
  obtain ⟨line', spelled', fits', regroups⟩ := line.exists_wrapped spelled.symm
  have room : (max limit 0 + 1).toNat = limit.toNat + 1 := by omega
  rw [List.map_cons, terminal]
  refine ⟨line'.tree, parse_of_line ?_ ?_, regroups.tree_eq_iff, regroups.shape_eq_iff⟩
  · rw [apart.terminals_bracketed isNumber, spelled']
  · rw [room]
    exact fits' _ fits

end

/-- In `1 + 2 * 3` the second number goes with the product, and `( 2 )` stays with the sum. -/
theorem parse_bracketed_one_plus_two_times_three :
    ∃ tree tree', parse "1 + 2 * 3" 0 = .ok tree ∧ parse "1 + ( 2 ) * 3" 1 = .ok tree' ∧
      tree'.shape ≠ tree.shape := by
  have stream : tokens "1 + 2 * 3" =
      [⟨.number, ['1'], 0, 0⟩, ⟨.operator .sum, ['+'], 2, 0⟩, ⟨.number, ['2'], 4, 0⟩,
        ⟨.operator .product, ['*'], 6, 0⟩, ⟨.number, ['3'], 8, 0⟩, ⟨.finish, [], 9, 0⟩] := by
    decide +kernel
  have spaced : Spaced "1 + 2 * 3" := by
    rw [Spaced, words, stream]
    decide +kernel
  have accepted : parse "1 + 2 * 3" 0 =
      .ok (.node (.leaf (Numeral.value ['1'])) Operator.sum.operation
        (.node (.leaf (Numeral.value ['2'])) Operator.product.operation
          (.leaf (Numeral.value ['3'])))) := by
    obtain ⟨finish, _, run⟩ := parse_eq_run "1 + 2 * 3" 0
    rw [run, words, stream]
    rfl
  have parts : words "1 + 2 * 3" =
      [⟨.number, ['1'], 0, 0⟩, ⟨.operator .sum, ['+'], 2, 0⟩] ++ ⟨.number, ['2'], 4, 0⟩ ::
        [⟨.operator .product, ['*'], 6, 0⟩, ⟨.number, ['3'], 8, 0⟩] := by
    rw [words, stream]
    rfl
  obtain ⟨tree', read, _, shapes⟩ := parse_bracketed spaced accepted parts rfl
  have text : bracketed "1 + 2 * 3" ⟨.number, ['2'], 4, 0⟩ = "1 + ( 2 ) * 3" := by
    decide +kernel
  have contested : Contested [.number (Numeral.value ['1']), .operator .sum]
      [.operator .product, .number (Numeral.value ['3'])] :=
    ⟨⟨.operator .sum, rfl, rfl⟩, ⟨.operator .product, rfl, rfl⟩⟩
  have unbroken : Unbroken [.number (Numeral.value ['2']), .operator .product,
      .number (Numeral.value ['3'])] := by
    simp [Unbroken, Terminal.Joins, Terminal.Opens]
  rw [text] at read
  exact ⟨_, tree', accepted, read, fun same => shapes.mp same ⟨contested, unbroken⟩⟩

end Reckon
