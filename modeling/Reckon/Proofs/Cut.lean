/-
This file cuts a source behind one of its tokens and lets it go on in any other
way.

Where a token ends is decided by what follows it, and no token goes on with a
blank. So the tokens up to the cut stay what they are, with their places, when a
blank and anything behind it takes the place of the rest: `next_facing` says so
for one token and `readAll_facing` for any number of them.

The tokens of a source also have places of their own, in ascending order, so
that a token is found at one index only.
-/

import Mathlib.Data.List.TakeWhile
import Reckon.Proofs.Contents

namespace Reckon

/-! ### The end of a lexeme -/

/-- A run that ends before a cut ends there too if nothing that belongs to it follows the cut. -/
theorem takeWhile_cut {belongs : Char → Bool} {blank : Char} (outside : belongs blank = false)
    {front back : List Char} (rest : List Char)
    (ends : ((front ++ back).takeWhile belongs).length ≤ front.length) :
    (front ++ blank :: rest).takeWhile belongs = (front ++ back).takeWhile belongs := by
  induction front with
  | nil =>
    have nothing : back.takeWhile belongs = [] :=
      List.eq_nil_of_length_eq_zero (by simpa using ends)
    rw [List.nil_append, List.nil_append, nothing,
      List.takeWhile_cons_of_neg (by rw [outside]; exact Bool.false_ne_true)]
  | cons char front inductionHypothesis =>
    rw [List.cons_append] at ends
    rw [List.cons_append, List.cons_append]
    cases member : belongs char with
    | false =>
      have stops : ¬ belongs char = true := by rw [member]; exact Bool.false_ne_true
      rw [List.takeWhile_cons_of_neg stops, List.takeWhile_cons_of_neg stops]
    | true =>
      rw [List.takeWhile_cons_of_pos member] at ends
      rw [List.takeWhile_cons_of_pos member, List.takeWhile_cons_of_pos member,
        inductionHypothesis (Nat.le_of_succ_le_succ ends)]

namespace Lexer

theorem scan_le (before : Option Char) (ahead : List Char) :
    (scan before ahead).2 ≤ ahead.length := by
  cases ahead with
  | nil => exact Nat.le_refl _
  | cons char rest =>
    have run (belongs : Char → Bool) : (rest.takeWhile belongs).length ≤ rest.length :=
      (List.takeWhile_prefix belongs).length_le
    rw [scan]
    split
    · exact Nat.succ_le_succ (run _)
    · split
      · exact Nat.succ_le_succ (run _)
      · exact Nat.succ_le_succ (Nat.zero_le _)

/-- Whether a character begins a number, given the text behind it. -/
def beginsNumber (before : Option Char) (char : Char) (rest : List Char) : Bool :=
  Numeral.isNumeric char || signsNumber before char rest.head?

theorem scan_eq (before : Option Char) (char : Char) (rest : List Char) :
    scan before (char :: rest) =
      if isComparison char then
        (Kind.ofLexeme (char :: rest.takeWhile isComparison),
          (char :: rest.takeWhile isComparison).length)
      else if beginsNumber before char rest then
        (if Numeral.accepts (char :: rest.takeWhile Numeral.isNumeric) then .number else .illegal,
          (char :: rest.takeWhile Numeral.isNumeric).length)
      else (Kind.ofLexeme [char], 1) := rfl

/-- A sign right before a cut was claimed by no number that ends there. -/
theorem beginsNumber_cut {before : Option Char} {char : Char} {front back : List Char}
    (rest : List Char)
    (ends : beginsNumber before char (front ++ back) = true →
      ((front ++ back).takeWhile Numeral.isNumeric).length ≤ front.length) :
    beginsNumber before char (front ++ ' ' :: rest) = beginsNumber before char (front ++ back) := by
  cases front with
  | cons next front => rfl
  | nil =>
    cases begins : beginsNumber before char ([] ++ back) with
    | false =>
      rw [beginsNumber, Bool.or_eq_false_iff] at begins
      rw [beginsNumber, begins.1]
      simp [signsNumber, Numeral.isNumeric]
    | true =>
      cases numeric : Numeral.isNumeric char with
      | true => rw [beginsNumber, numeric, Bool.true_or]
      | false =>
        -- The number that claims the sign would go on behind the cut.
        have nothing := ends begins
        rw [beginsNumber, numeric, Bool.false_or, signsNumber] at begins
        cases back with
        | nil => simp at begins
        | cons next back =>
          have follows : Numeral.isNumeric next = true := by simp_all
          rw [List.nil_append, List.takeWhile_cons_of_pos follows] at nothing
          simp at nothing

/-- A token that ends before a cut stays what it is when a blank follows the cut. -/
theorem scan_cut {before : Option Char} {char : Char} {front back : List Char} (rest : List Char)
    (ends : (scan before (char :: (front ++ back))).2 ≤ front.length + 1) :
    scan before (char :: (front ++ ' ' :: rest)) = scan before (char :: (front ++ back)) := by
  rw [scan_eq] at ends
  rw [scan_eq, scan_eq]
  by_cases comparison : isComparison char = true
  · rw [if_pos comparison] at ends
    rw [if_pos comparison, if_pos comparison,
      takeWhile_cut (by decide) rest (Nat.le_of_succ_le_succ ends)]
  · rw [if_neg comparison] at ends
    rw [if_neg comparison, if_neg comparison]
    have ends' (begins : beginsNumber before char (front ++ back) = true) :
        ((front ++ back).takeWhile Numeral.isNumeric).length ≤ front.length := by
      rw [if_pos begins] at ends
      exact Nat.le_of_succ_le_succ ends
    rw [beginsNumber_cut rest ends']
    split
    · next begins => rw [takeWhile_cut (by decide) rest (ends' begins)]
    · rfl

/-! ### One token -/

/-- The place with another text ahead. -/
def facing (lexer : Lexer) (ahead : List Char) : Lexer :=
  { lexer with ahead }

/-- What is passed over does not depend on what comes behind it. -/
theorem skip_facing {lexer : Lexer} {passed back : List Char} (ahead : lexer.ahead = passed ++ back)
    (rest : List Char) :
    (lexer.facing (passed ++ rest)).skip passed.length =
      (lexer.skip passed.length).facing rest := by
  simp [skip, facing, ahead]

/-- Blanks are passed over whatever stands behind them, if it begins with no blank. -/
theorem skipBlanks_facing {lexer : Lexer} {char : Char} {onward : List Char}
    (ahead : lexer.skipBlanks.ahead = char :: onward) (rest : List Char) :
    (lexer.facing (lexer.ahead.takeWhile isBlank ++ char :: rest)).skipBlanks =
      lexer.skipBlanks.facing (char :: rest) := by
  rw [ahead_skipBlanks] at ahead
  have notBlank : ¬ isBlank char = true := by
    have head := List.head?_dropWhile_not isBlank lexer.ahead
    rw [ahead] at head
    simpa using head
  have blanks : (lexer.ahead.takeWhile isBlank ++ char :: rest).takeWhile isBlank =
      lexer.ahead.takeWhile isBlank := by
    rw [List.takeWhile_append_of_pos fun _ member => List.mem_takeWhile_imp member,
      List.takeWhile_cons_of_neg notBlank, List.append_nil]
  show (lexer.facing _).skip
    ((lexer.ahead.takeWhile isBlank ++ char :: rest).takeWhile isBlank).length = _
  rw [blanks]
  exact skip_facing List.takeWhile_append_dropWhile.symm _

theorem next_of_ahead_nil {lexer : Lexer} (nothing : lexer.skipBlanks.ahead = []) :
    lexer.next = (⟨.finish, [], lexer.skipBlanks.position, lexer.skipBlanks.line⟩,
      lexer.skipBlanks.skip 0) := by
  rw [next, tokenHere, nothing]
  rfl

/-- Ahead of a place there is a token of one character at least, which begins with no blank. -/
theorem exists_lexeme {lexer : Lexer} (more : lexer.next.1.kind ≠ .finish) :
    ∃ char lexeme, lexer.skipBlanks.ahead = char :: (lexeme ++ lexer.next.2.ahead) ∧
      lexer.next.1.text = char :: lexeme ∧
      (scan lexer.skipBlanks.before lexer.skipBlanks.ahead).2 = lexeme.length + 1 := by
  cases ahead : lexer.skipBlanks.ahead with
  | nil => exact absurd (congrArg (·.1.kind) (next_of_ahead_nil ahead)) more
  | cons char onward =>
    obtain ⟨length, isLength⟩ := Nat.exists_eq_succ_of_ne_zero
      (Nat.ne_of_gt (scan_cons lexer.skipBlanks.before char onward).2)
    have within : length ≤ onward.length := by
      have bound := scan_le lexer.skipBlanks.before (char :: onward)
      rw [isLength] at bound
      exact Nat.le_of_succ_le_succ bound
    refine ⟨char, onward.take length, ?_, ?_, ?_⟩
    · rw [next, skip, ahead, isLength, List.drop_succ_cons, List.take_append_drop]
    · rw [next, tokenHere, ahead, isLength, List.take_succ_cons]
    · rw [isLength, List.length_take_of_le within]

/-- A lexeme that the scan takes becomes the same token before another text. -/
theorem lexeme_facing {place : Lexer} {lexeme back rest : List Char}
    (ahead : place.ahead = lexeme ++ back)
    (length : (scan place.before place.ahead).2 = lexeme.length)
    (scanned : scan place.before (lexeme ++ rest) = scan place.before place.ahead) :
    (place.facing (lexeme ++ rest)).tokenHere = place.tokenHere ∧
      (place.facing (lexeme ++ rest)).skip (scan place.before (lexeme ++ rest)).2 =
        (place.skip (scan place.before place.ahead).2).facing rest := by
  rw [scanned, length]
  refine ⟨?_, skip_facing ahead rest⟩
  have text : (lexeme ++ rest).take lexeme.length = place.ahead.take lexeme.length := by
    rw [ahead, List.take_left, List.take_left]
  simp only [tokenHere, facing, scanned, length, text]

/-- A token in front of a cut: it and the blanks before it are passed as they were. -/
theorem next_facing {lexer : Lexer} {front back : List Char}
    (more : lexer.next.1.kind ≠ .finish) (behind : lexer.next.2.ahead = front ++ back) :
    ∃ passed, lexer.ahead = passed ++ (front ++ back) ∧
      ∀ rest, (lexer.facing (passed ++ (front ++ ' ' :: rest))).next =
        (lexer.next.1, lexer.next.2.facing (front ++ ' ' :: rest)) := by
  obtain ⟨char, lexeme, ahead, text, length⟩ := exists_lexeme more
  rw [behind] at ahead
  refine ⟨lexer.ahead.takeWhile isBlank ++ char :: lexeme, ?_, fun rest => ?_⟩
  · rw [List.append_assoc, List.cons_append, ← ahead, ahead_skipBlanks,
      List.takeWhile_append_dropWhile]
  · have scanned : scan lexer.skipBlanks.before (char :: (lexeme ++ (front ++ ' ' :: rest))) =
        scan lexer.skipBlanks.before lexer.skipBlanks.ahead := by
      rw [ahead] at length ⊢
      rw [← List.append_assoc] at length
      rw [← List.append_assoc, ← List.append_assoc]
      refine scan_cut rest ?_
      rw [length, List.length_append]
      omega
    rw [List.append_assoc, List.cons_append, next, skipBlanks_facing ahead]
    obtain ⟨token, onward⟩ := lexeme_facing
      (show lexer.skipBlanks.ahead = char :: lexeme ++ (front ++ back) from ahead) length scanned
    exact Prod.ext token onward

/-- The tokens in front of a cut. The induction is on how many they are. -/
theorem readAll_facing {lexer : Lexer} {count : Nat} (within : count < lexer.readAll.1.length) :
    ∃ (front back : List Char) (place : Lexer), lexer.ahead = front ++ back ∧
      ∀ rest, (lexer.facing (front ++ ' ' :: rest)).readAll.1 =
        lexer.readAll.1.take count ++ (place.facing (' ' :: rest)).readAll.1 := by
  induction count generalizing lexer with
  | zero => exact ⟨[], lexer.ahead, lexer, rfl, fun rest => rfl⟩
  | succ count inductionHypothesis =>
    have more : lexer.next.1.kind ≠ .finish := by
      intro finished
      rw [readAll_eq, if_pos finished] at within
      simp at within
    rw [readAll_eq, if_neg more] at within
    obtain ⟨front, back, place, behind, same⟩ :=
      inductionHypothesis (Nat.lt_of_succ_lt_succ within)
    obtain ⟨passed, ahead, next⟩ := next_facing more behind
    refine ⟨passed ++ front, back, place, by rw [ahead, List.append_assoc], fun rest => ?_⟩
    rw [List.append_assoc, readAll_eq, next, if_neg more, same, readAll_eq lexer, if_neg more]
    rfl

/-! ### The order of tokens -/

/-- Tokens stand one behind the other. -/
theorem ordered_readAll (lexer : Lexer) :
    (∀ token ∈ lexer.readAll.1, lexer.position ≤ token.position) ∧
      lexer.readAll.1.Pairwise fun first second => first.position < second.position := by
  have forward (lexer : Lexer) : lexer.position ≤ lexer.next.1.position := Nat.le_add_right _ _
  fun_induction readAll lexer with
  | case1 lexer found finished =>
    exact ⟨by simpa [found] using forward lexer, List.pairwise_singleton _ _⟩
  | case2 lexer found more others inductionHypothesis =>
    obtain ⟨behind, ordered⟩ := inductionHypothesis
    have taken : found.2.position = found.1.position + found.1.text.length := rfl
    obtain ⟨char, lexeme, _, text, _⟩ := exists_lexeme more
    have positive : 0 < found.1.text.length := by
      rw [show found.1.text = _ from text]
      exact Nat.succ_pos _
    have apart (token : Token) (member : token ∈ others.1) :
        found.1.position < token.position := by
      have bound := behind token member
      omega
    refine ⟨?_, List.pairwise_cons.mpr ⟨apart, ordered⟩⟩
    intro token member
    have first := forward lexer
    cases member with
    | head => exact first
    | tail _ member => exact Nat.le_of_lt (Nat.lt_of_le_of_lt first (apart token member))

end Lexer

theorem nodup_tokens (source : String) : (tokens source).Nodup :=
  (Lexer.start source).ordered_readAll.2.imp fun before same => by
    rw [same] at before
    exact Nat.lt_irrefl _ before

end Reckon
