/-
This file says what the plain text of a finite double is: a numeral, made of
digits in front of a point and digits behind it. A form keeps the two apart and
knows that they are digits, so that what a numeral denotes is computed from its
form once and for all.

A text that is read back as a single number is the text of a finite double, for
the words that stand for the other values are made of letters.
-/

import Reckon.Proofs.Formula

namespace Reckon

/-! ### Forms -/

/-- A numeral in parts: its sign, the digits in front of the point and those behind it. -/
structure Numeral.Form where
  negative : Bool
  whole : List Char
  fraction : List Char
  wholeDigits : ∀ char ∈ whole, char.isDigit = true
  fractionDigits : ∀ char ∈ fraction, char.isDigit = true
  nonempty : whole ≠ []

namespace Numeral

theorem isNumeric_of_isDigit {char : Char} (digit : char.isDigit = true) :
    isNumeric char = true := by
  rw [isNumeric, digit, Bool.true_or]

theorem ne_point_of_isDigit {char : Char} (digit : char.isDigit = true) : char ≠ '.' := by
  rintro rfl
  exact absurd digit (by decide)

namespace Form

/-- The digits and the point, without the sign. -/
def body (form : Form) : List Char :=
  match form.fraction with
  | [] => form.whole
  | fraction => form.whole ++ '.' :: fraction

/-- The text of a numeral. -/
def text (form : Form) : List Char :=
  if form.negative then '-' :: form.body else form.body

variable (form : Form)

theorem body_cases :
    form.fraction = [] ∧ form.body = form.whole ∨
      form.body = form.whole ++ '.' :: form.fraction := by
  obtain ⟨negative, whole, fraction, _, _, _⟩ := form
  cases fraction with
  | nil => exact .inl ⟨rfl, rfl⟩
  | cons digit fraction => exact .inr rfl

theorem filter_body : form.body.filter Char.isDigit = form.whole ++ form.fraction := by
  have whole := List.filter_eq_self.mpr form.wholeDigits
  have fraction := List.filter_eq_self.mpr form.fractionDigits
  rcases form.body_cases with ⟨none, same⟩ | same
  · rw [same, whole, none, List.append_nil]
  · rw [same, List.filter_append, List.filter_cons_of_neg (by decide), whole, fraction]

theorem isNumeric_body : ∀ char ∈ form.body, isNumeric char = true := by
  intro char member
  rcases form.body_cases with ⟨_, same⟩ | same
  · rw [same] at member
    exact isNumeric_of_isDigit (form.wholeDigits char member)
  · rw [same, List.mem_append, List.mem_cons] at member
    rcases member with member | rfl | member
    · exact isNumeric_of_isDigit (form.wholeDigits char member)
    · rfl
    · exact isNumeric_of_isDigit (form.fractionDigits char member)

theorem exists_body : ∃ digit rest, form.body = digit :: rest ∧ digit.isDigit = true := by
  obtain ⟨digit, rest, isWhole⟩ := List.exists_cons_of_ne_nil form.nonempty
  have isDigit : digit.isDigit = true := form.wholeDigits digit (by rw [isWhole]; simp)
  rcases form.body_cases with ⟨_, same⟩ | same
  · exact ⟨digit, rest, same.trans isWhole, isDigit⟩
  · exact ⟨digit, rest ++ '.' :: form.fraction, by rw [same, isWhole, List.cons_append], isDigit⟩

theorem unsigned_text : unsigned form.text = form.body := by
  obtain ⟨digit, rest, same, isDigit⟩ := form.exists_body
  rw [text]
  cases form.negative with
  | true => rfl
  | false =>
    have notSign := (isNumeric_apart (isNumeric_of_isDigit isDigit)).2.2
    show unsigned form.body = form.body
    rw [same, unsigned, notSign]
    rfl

theorem count_point_body : form.body.count '.' ≤ 1 := by
  have whole : form.whole.count '.' = 0 :=
    List.count_eq_zero_of_not_mem fun member => ne_point_of_isDigit (form.wholeDigits _ member) rfl
  have fraction : form.fraction.count '.' = 0 :=
    List.count_eq_zero_of_not_mem fun member =>
      ne_point_of_isDigit (form.fractionDigits _ member) rfl
  rcases form.body_cases with ⟨_, same⟩ | same
  · rw [same, whole]
    exact Nat.zero_le 1
  · rw [same, List.count_append, List.count_cons_self, whole, fraction]

/-- The text of a form is a numeral. -/
theorem accepts_text : accepts form.text = true := by
  obtain ⟨digit, rest, same, isDigit⟩ := form.exists_body
  have numeric : form.body.all isNumeric = true := List.all_eq_true.mpr form.isNumeric_body
  have digits : form.body.any Char.isDigit = true :=
    List.any_eq_true.mpr ⟨digit, by rw [same]; exact List.mem_cons_self, isDigit⟩
  rw [accepts, form.unsigned_text]
  simp only [numeric, digits, decide_eq_true form.count_point_body, Bool.and_self]

theorem decimals_body : decimals form.body = form.fraction.length := by
  have whole : ∀ char ∈ form.whole, (char != '.') = true := fun char member =>
    bne_iff_ne.mpr (ne_point_of_isDigit (form.wholeDigits char member))
  rcases form.body_cases with ⟨none, same⟩ | same
  · rw [decimals, same, ← List.append_nil form.whole, List.dropWhile_append_of_pos whole, none]
    rfl
  · rw [decimals, same, List.dropWhile_append_of_pos whole,
      List.dropWhile_cons_of_neg (by decide), List.length_cons, Nat.add_sub_cancel]

theorem decimals_text : decimals form.text = form.fraction.length := by
  rw [text]
  cases form.negative with
  | true => exact form.decimals_body
  | false => exact form.decimals_body

/-- What a form denotes. -/
theorem value_text :
    value form.text =
      Binary64.ofWord form.negative
        (Binary64.nearest (Nat.ofDigitChars 10 (form.whole ++ form.fraction) 0)
          (Nat.pow 10 form.fraction.length)) := by
  have sign : (form.text.head? == some '-') = form.negative := by
    obtain ⟨digit, rest, same, isDigit⟩ := form.exists_body
    rw [text]
    cases form.negative with
    | true => rfl
    | false =>
      have notMinus : digit ≠ '-' := by
        rintro rfl
        exact absurd isDigit (by decide)
      show (form.body.head? == some '-') = false
      rw [same]
      simpa using notMinus
  rw [value, sign, digits, form.unsigned_text, form.filter_body, form.decimals_text]

end Form

end Numeral

/-! ### The digits of a decimal -/

namespace Decimal

variable (decimal : Decimal)

theorem isDigit_digitChars : ∀ char ∈ decimal.digitChars, char.isDigit = true :=
  fun _ member => Nat.isDigit_of_mem_toDigits (by decide) (by decide) member

theorem isDigit_zeros (count : Nat) : ∀ char ∈ List.replicate count '0', char.isDigit = true := by
  intro char member
  rw [List.eq_of_mem_replicate member]
  decide

theorem isDigit_wholeChars : ∀ char ∈ decimal.wholeChars, char.isDigit = true := by
  intro char member
  rw [wholeChars] at member
  split at member
  · rw [List.mem_append] at member
    rcases member with member | member
    · exact decimal.isDigit_digitChars char (List.mem_of_mem_take member)
    · exact isDigit_zeros _ char member
  · rw [List.mem_singleton.mp member]
    decide

theorem wholeChars_ne_nil : decimal.wholeChars ≠ [] := by
  rw [wholeChars]
  split
  · next fewer =>
    refine List.append_ne_nil_of_left_ne_nil (fun none => ?_) _
    have short := congrArg List.length none
    rw [List.length_take, List.length_nil] at short
    omega
  · exact List.cons_ne_nil _ _

theorem isDigit_fractionChars : ∀ char ∈ decimal.fractionChars, char.isDigit = true := by
  intro char member
  rw [fractionChars, List.mem_append] at member
  rcases member with member | member
  · exact isDigit_zeros _ char member
  · exact decimal.isDigit_digitChars char (List.mem_of_mem_drop member)

/-- The positional form of a decimal. -/
def form (negative : Bool) : Numeral.Form where
  negative := negative
  whole := decimal.wholeChars
  fraction := decimal.fractionChars
  wholeDigits := decimal.isDigit_wholeChars
  fractionDigits := decimal.isDigit_fractionChars
  nonempty := decimal.wholeChars_ne_nil

theorem body_form (negative : Bool) : (decimal.form negative).body = decimal.positional := rfl

end Decimal

/-- The form of a whole number. -/
def Numeral.Form.ofWhole (negative : Bool) (number : Nat) : Numeral.Form where
  negative := negative
  whole := Nat.toDigits 10 number
  fraction := []
  wholeDigits := fun _ member => Nat.isDigit_of_mem_toDigits (by decide) (by decide) member
  fractionDigits := fun _ member => absurd member List.not_mem_nil
  nonempty := Nat.toDigits_ne_nil

/-! ### The text of a double -/

namespace Spelling

/-- The form that a finite double is written in. -/
def form (value : Float) : Numeral.Form :=
  let word := Binary64.word value
  let negative := Binary64.isNegative value && word != 0
  if Binary64.steps word % Binary64.stepsPerUnit = 0 then
    .ofWhole negative (Binary64.steps word / Binary64.stepsPerUnit)
  else (Decimal.shortest word).form negative

theorem negative_form (value : Float) :
    (form value).negative = (Binary64.isNegative value && Binary64.word value != 0) := by
  rw [form]
  split <;> rfl

theorem body_form (value : Float) : (form value).body = plainDigits (Binary64.word value) := by
  rw [form, plainDigits]
  split <;> rfl

theorem toList_plain {value : Float} (finite : Binary64.word value < Binary64.infinity) :
    (plain value).toList = (form value).text := by
  rw [plain, if_neg (Nat.lt_asymm finite), if_neg (Nat.ne_of_lt finite), String.toList_append,
    String.toList_ofList, Numeral.Form.text, negative_form, body_form]
  cases Binary64.isNegative value && Binary64.word value != 0 <;> rfl

theorem accepts_plain {value : Float} (finite : Binary64.word value < Binary64.infinity) :
    Numeral.accepts (plain value).toList = true := by
  rw [toList_plain finite]
  exact (form value).accepts_text

end Spelling

/-! ### Numbers that are read back -/

/-- The text of a number is a single number token, and the value of the token is the number. -/
def ReadsBack (value : Float) : Prop :=
  ∃ token, words (Spelling.plain value) = [token] ∧ token.kind = .number ∧
    (token.value == value) = true

theorem content_words (source : String) :
    (words source).map Token.content = (contents none source.toList).dropLast := by
  have all : (tokens source).map Token.content = contents none source.toList := rfl
  rw [words, List.map_dropLast, all]

theorem contents_ne_nil (before : Option Char) (ahead : List Char) :
    contents before ahead ≠ [] := by
  rw [contents, Lexer.readAll_eq]
  split <;> exact List.cons_ne_nil _ _

/-- The first token of a text that begins with a token of its own. -/
theorem kind_of_single {source : String} {char : Char} {rest : List Char} {token : Token}
    (spelled : source.toList = char :: rest) (notBlank : Lexer.isBlank char = false)
    (notComparison : Lexer.isComparison char = false) (notNumeric : Numeral.isNumeric char = false)
    (unclaimed : Lexer.signsNumber none char rest.head? = false) (single : words source = [token]) :
    token.kind = Kind.ofLexeme [char] := by
  have all := content_words source
  rw [single, spelled, contents_single rest notBlank notComparison notNumeric unclaimed,
    List.dropLast_cons_of_ne_nil (contents_ne_nil _ _), List.map_singleton] at all
  exact congrArg Content.kind (List.cons.inj all).1

/-- The words for infinities and for what is no number are not read as numbers. -/
theorem ReadsBack.finite {value : Float} (readsBack : ReadsBack value) :
    Binary64.word value < Binary64.infinity := by
  obtain ⟨token, single, isNumber, _⟩ := readsBack
  refine Nat.lt_of_not_le fun infinite => ?_
  rw [Spelling.plain] at single
  have apart : ∀ {char : Char} {rest : List Char} {source : String},
      source.toList = char :: rest → Lexer.isBlank char = false →
      Lexer.isComparison char = false → Numeral.isNumeric char = false →
      Lexer.signsNumber none char rest.head? = false → Kind.ofLexeme [char] ≠ .number →
      words source ≠ [token] := by
    intro char rest source spelled notBlank notComparison notNumeric unclaimed different single
    exact different ((kind_of_single spelled notBlank notComparison notNumeric unclaimed
      single).symm.trans isNumber)
  by_cases beyond : Binary64.infinity < Binary64.word value
  · rw [if_pos beyond] at single
    exact apart rfl (by decide) (by decide) (by decide) (by decide) (by decide) single
  · have same : Binary64.word value = Binary64.infinity :=
      Nat.le_antisymm (Nat.le_of_not_lt beyond) infinite
    rw [if_neg beyond, if_pos same] at single
    split at single
    · exact apart rfl (by decide) (by decide) (by decide) (by decide) (by decide) single
    · exact apart rfl (by decide) (by decide) (by decide) (by decide) (by decide) single

/-- A source that is a numeral is a single number token, which covers all of it. -/
theorem content_words_of_accepts {source : String}
    (accepted : Numeral.accepts source.toList = true) :
    (words source).map Token.content = [⟨.number, source.toList⟩] := by
  have stops : Stops [] := fun next isNext => absurd isNext (by simp)
  have alone : contents none (source.toList ++ []) = _ := contents_numeral [] accepted rfl stops
  rw [List.append_nil, contents_nil] at alone
  rw [content_words, alone]
  rfl

/-- A number reads back if and only if it is finite and its text denotes it. -/
theorem readsBack_iff {value : Float} :
    ReadsBack value ↔
      Binary64.word value < Binary64.infinity ∧ (reread value == value) = true := by
  constructor
  · intro readsBack
    have finite := readsBack.finite
    obtain ⟨token, single, _, same⟩ := readsBack
    have covered := content_words_of_accepts (Spelling.accepts_plain finite)
    rw [single, List.map_singleton] at covered
    have text : token.text = (Spelling.plain value).toList :=
      congrArg Content.text (List.cons.inj covered).1
    rw [Token.value, text] at same
    exact ⟨finite, same⟩
  · rintro ⟨finite, same⟩
    obtain ⟨token, single, content⟩ :=
      List.map_eq_singleton_iff.mp (content_words_of_accepts (Spelling.accepts_plain finite))
    refine ⟨token, single, congrArg Content.kind content, ?_⟩
    rw [Token.value, show token.text = _ from congrArg Content.text content]
    exact same

end Reckon
