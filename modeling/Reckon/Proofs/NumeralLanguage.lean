/-
This file says which texts are numerals, in three ways that come to the same.
The language is given by its phrases: at most one sign, then digits alone or a
point with a digit on one side of it at least. The check of a text counts
instead, digits and points, behind a sign that it cuts off. And the lexer reads
runs of characters off a source and looks at the characters around a sign, so
that a text is a numeral for it when it is one number token from end to end.

The check needs no more than that its counts say where the point is. The lexer
asks the check about every run it reads, and a numeral that stands alone has
nothing around it that could keep its sign from it or make its run longer.
-/

import Mathlib.Tactic.TFAE
import Reckon.Proofs.NumberText

namespace Reckon

namespace Numeral

/-! ### The phrases -/

/-- What follows the sign of a numeral: digits alone, or a point with digits around it. -/
inductive Body : List Char → Prop
  | digits {run : List Char} (some : run ≠ []) (all : ∀ char ∈ run, char.isDigit = true) : Body run
  | pointed {whole fraction : List Char} (some : whole ++ fraction ≠ [])
      (all : ∀ char ∈ whole ++ fraction, char.isDigit = true) : Body (whole ++ '.' :: fraction)

/-- The numerals. The digits are the ten digits of ASCII. -/
inductive Phrase : List Char → Prop
  | unsigned {body : List Char} (spelled : Body body) : Phrase body
  | signed {sign : Char} {body : List Char} (isSign : sign = '+' ∨ sign = '-')
      (spelled : Body body) : Phrase (sign :: body)

section
variable {body text : List Char}

/-! ### The check -/

/-- What is asked of a text behind its sign. -/
def Counts (body : List Char) : Prop :=
  (∀ char ∈ body, isNumeric char = true) ∧ (∃ char ∈ body, char.isDigit = true) ∧
    body.count '.' ≤ 1

theorem accepts_iff_counts : accepts text = true ↔ Counts (unsigned text) := by
  simp only [accepts, Counts, Bool.and_eq_true, List.all_eq_true, List.any_eq_true,
    decide_eq_true_iff, and_assoc]

theorem isSign_iff {char : Char} : isSign char = true ↔ char = '+' ∨ char = '-' := by
  rw [isSign, Bool.or_eq_true, beq_iff_eq, beq_iff_eq]

theorem isDigit_of_isNumeric {char : Char} (numeric : isNumeric char = true)
    (notPoint : char ≠ '.') : char.isDigit = true := by
  rw [isNumeric, Bool.or_eq_true, beq_iff_eq] at numeric
  exact numeric.resolve_right notPoint

theorem count_point_of_digits (all : ∀ char ∈ text, char.isDigit = true) : text.count '.' = 0 :=
  List.count_eq_zero_of_not_mem fun member => ne_point_of_isDigit (all _ member) rfl

theorem mem_around_point {char : Char} {whole fraction : List Char}
    (member : char ∈ whole ++ fraction) : char ∈ whole ++ '.' :: fraction :=
  ((List.Sublist.refl whole).append (List.sublist_cons_self '.' fraction)).mem member

/-- The only point of a text that is all digits otherwise parts it in two. -/
theorem body_of_counts (counts : Counts body) : Body body := by
  obtain ⟨numeric, ⟨digit, inBody, isDigit⟩, count⟩ := counts
  by_cases point : '.' ∈ body
  · obtain ⟨whole, fraction, rfl⟩ := List.append_of_mem point
    rw [List.count_append, List.count_cons_self] at count
    have single : (whole ++ fraction).count '.' = 0 := by
      rw [List.count_append]
      omega
    refine .pointed ?_ fun char member =>
      isDigit_of_isNumeric (numeric char (mem_around_point member)) ?_
    · rintro none
      obtain ⟨rfl, rfl⟩ := List.append_eq_nil_iff.mp none
      rw [List.nil_append, List.mem_singleton] at inBody
      exact ne_point_of_isDigit isDigit inBody
    · rintro rfl
      exact List.count_eq_zero.mp single member
  · refine .digits (List.ne_nil_of_mem inBody) fun char member =>
      isDigit_of_isNumeric (numeric char member) ?_
    rintro rfl
    exact point member

theorem Body.counts (spelled : Body body) : Counts body := by
  cases spelled with
  | digits some all =>
    obtain ⟨char, member⟩ := List.exists_mem_of_ne_nil body some
    have none := count_point_of_digits all
    exact ⟨fun char member => isNumeric_of_isDigit (all char member),
      ⟨char, member, all char member⟩, none ▸ Nat.zero_le 1⟩
  | @pointed whole fraction some all =>
    obtain ⟨digit, member⟩ := List.exists_mem_of_ne_nil _ some
    refine ⟨fun char member => ?_, ⟨digit, mem_around_point member, all digit member⟩, ?_⟩
    · rcases List.mem_append.mp member with inWhole | inRest
      · exact isNumeric_of_isDigit (all char (List.mem_append_left _ inWhole))
      · rcases List.mem_cons.mp inRest with rfl | inFraction
        · rfl
        · exact isNumeric_of_isDigit (all char (List.mem_append_right _ inFraction))
    · have none := count_point_of_digits all
      rw [List.count_append] at none
      rw [List.count_append, List.count_cons_self]
      omega

theorem body_iff_counts : Body body ↔ Counts body :=
  ⟨Body.counts, body_of_counts⟩

/-- A body begins with no sign. -/
theorem Body.unsigned_eq (spelled : Body body) : unsigned body = body := by
  cases first : body with
  | nil => rfl
  | cons char rest =>
    have numeric := spelled.counts.1 char (first ▸ List.mem_cons_self)
    rw [unsigned, (isNumeric_apart numeric).2.2, if_neg Bool.false_ne_true]

/-- The check accepts the phrases and nothing else. -/
theorem accepts_iff_phrase : accepts text = true ↔ Phrase text := by
  rw [accepts_iff_counts, ← body_iff_counts]
  constructor
  · intro spelled
    cases text with
    | nil => exact .unsigned spelled
    | cons char rest =>
      rw [unsigned] at spelled
      split at spelled
      · next sign => exact .signed (isSign_iff.mp sign) spelled
      · exact .unsigned spelled
  · intro phrase
    cases phrase with
    | unsigned spelled => rwa [spelled.unsigned_eq]
    | signed sign spelled => rwa [unsigned, if_pos (isSign_iff.mpr sign)]

end

end Numeral

/-! ### The lexer -/

/-- A number token of a source is a numeral. -/
theorem Numeral.accepts_of_mem_tokens {source : String} {token : Token}
    (member : token ∈ tokens source) (isNumber : token.kind = .number) :
    Numeral.accepts token.text = true := by
  have more : token.kind ≠ .finish := fun finished => by
    rw [isNumber] at finished
    exact Kind.noConfusion finished
  obtain ⟨_, _, stands⟩ := (laid_tokens source).stands token member more
  exact stands.lexeme.accepts_text isNumber

/-- The check accepts a text if and only if it is a phrase of the language, and if and only if as a
source it is a single number token that covers all of it, with the finish behind it. That token is
then at the start of the source and the finish right at its end. -/
theorem accepts_tfae (text : String) :
    List.TFAE [
      Numeral.accepts text.toList = true,
      Numeral.Phrase text.toList,
      ∃ number finish : Token, tokens text = [number, finish] ∧ number.kind = .number ∧
        number.text = text.toList ∧ finish.kind = .finish,
      tokens text = [⟨.number, text.toList, 0, 0⟩, ⟨.finish, [], text.length, 0⟩]] := by
  tfae_have 1 ↔ 2 := Numeral.accepts_iff_phrase
  tfae_have 1 → 4 := tokens_of_accepts
  tfae_have 4 → 3 := fun alone => ⟨_, _, alone, rfl, rfl, rfl⟩
  tfae_have 3 → 1
  | ⟨number, finish, alone, isNumber, all, _⟩ => by
    have member : number ∈ tokens text := by
      rw [alone]
      exact List.mem_cons_self
    rw [← all]
    exact Numeral.accepts_of_mem_tokens member isNumber
  tfae_finish

end Reckon
