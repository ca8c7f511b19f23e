/-
This file says that the text of a finite double is a number of the language: a
single token that covers all of the text and whose value is the double again.

A numeral is one lexeme wherever nothing numeric touches it, so a source that
consists of a numeral has one word, and there is no room for anything before or
behind that word. What the word denotes was settled where the text was: it is
the same double, but for a minus zero, whose text has no sign and denotes zero,
which is equal to it as a number.
-/

import Reckon.Proofs.Partition
import Reckon.Proofs.RoundTrip

namespace Reckon

open Lexer

/-! ### Sources that are numerals -/

section
variable {source : String}

/-- A word that is all of its source stands at the start of it. -/
theorem Token.Stands.at_start {token : Token} {before rest : List Char}
    (stands : token.Stands source.toList before rest) (all : token.text = source.toList) :
    token.position = 0 ∧ token.line = 0 := by
  have lengths := congrArg List.length stands.parts
  rw [all, List.length_append, List.length_append] at lengths
  have nothing : before = [] := List.eq_nil_of_length_eq_zero (by omega)
  rw [stands.position, stands.line, nothing]
  exact ⟨rfl, rfl⟩

/-- The tokens of a source that is a numeral: the numeral and the finish right behind it. -/
theorem tokens_of_accepts (accepted : Numeral.accepts source.toList = true) :
    tokens source = [⟨.number, source.toList, 0, 0⟩, ⟨.finish, [], source.length, 0⟩] := by
  obtain ⟨word, single, content⟩ :=
    List.map_eq_singleton_iff.mp (content_words_of_accepts accepted)
  have kind : word.kind = .number := congrArg Content.kind content
  have text : word.text = source.toList := congrArg Content.text content
  obtain ⟨before, rest, stands⟩ := exists_stands (single ▸ List.mem_singleton_self word)
  obtain ⟨position, line⟩ := stands.at_start text
  have whole : word = ⟨.number, source.toList, 0, 0⟩ := calc
    word = ⟨word.kind, word.text, word.position, word.line⟩ := rfl
    _ = _ := by rw [kind, text, position, line]
  have oneLine : source.toList.count '\n' = 0 := by
    refine List.count_eq_zero_of_not_mem fun member => ?_
    have solid := stands.lexeme.isBlank_eq_false '\n' (text ▸ member)
    exact absurd solid (by decide)
  rw [(words_finished source).2, single, whole, oneLine]
  rfl

end

/-! ### The text of a double -/

namespace Spelling

variable {value : Float}

/-- There is nothing in the text of a finite double but digits, points and signs. -/
theorem characters_plain (finite : value.isFinite = true) :
    ∀ char ∈ (plain value).toList, char.isDigit = true ∨ char = '.' ∨ char = '-' := by
  have body : ∀ char ∈ (form value).body, char.isDigit = true ∨ char = '.' ∨ char = '-' := by
    intro char member
    have numeric := (form value).isNumeric_body char member
    rw [Numeral.isNumeric, Bool.or_eq_true, beq_iff_eq] at numeric
    exact numeric.imp_right Or.inl
  rw [toList_plain ((Binary64.word_lt_infinity_iff value).mpr finite), Numeral.Form.text]
  split
  · exact List.forall_mem_cons.mpr ⟨.inr (.inr rfl), body⟩
  · exact body

end Spelling

/-- A finite double is equal to what its text denotes. -/
theorem beq_reread {value : Float} (finite : value.isFinite = true) :
    (reread value == value) = true := by
  by_cases zero : value = -0.0
  · rw [zero]
    decide +kernel
  · have isNumber : value ≠ Float.nan := by
      rintro rfl
      exact absurd finite (by decide)
    rw [reread_eq finite zero]
    exact Float.beq_self_iff.mpr isNumber

/-- The text of a finite double is a numeral without an exponent, and as a source it is one number
token, which covers all of it and whose value is equal to the double, with the finish behind it. The
value is the same double, unless that is minus zero. -/
theorem tokens_plain {value : Float} (finite : value.isFinite = true) :
    Numeral.accepts (Spelling.plain value).toList = true ∧
      (∀ char ∈ (Spelling.plain value).toList,
        char.isDigit = true ∨ char = '.' ∨ char = '-') ∧
      ∃ number : Token, number.kind = .number ∧
        number.lexeme = Spelling.plain value ∧ number.position = 0 ∧
        tokens (Spelling.plain value) =
          [number, ⟨.finish, [], (Spelling.plain value).length, 0⟩] ∧
        (number.value == value) = true ∧ (value ≠ -0.0 → number.value = value) := by
  have accepted : Numeral.accepts (Spelling.plain value).toList = true :=
    Spelling.accepts_plain_of_isFinite finite
  refine ⟨accepted, Spelling.characters_plain finite,
    ⟨.number, (Spelling.plain value).toList, 0, 0⟩, rfl, String.ofList_toList, rfl,
    tokens_of_accepts accepted, beq_reread finite, reread_eq finite⟩

/-- The smallest positive double is written with more than three hundred digits and is read
back. -/
theorem tokens_plain_smallest :
    ∃ number : Token, tokens (Spelling.plain (Float.ofBits 1)) =
        [number, ⟨.finish, [], (Spelling.plain (Float.ofBits 1)).length, 0⟩] ∧
      number.value = Float.ofBits 1 := by
  obtain ⟨_, _, number, _, _, _, stream, _, same⟩ :=
    tokens_plain (show (Float.ofBits 1).isFinite = true by decide +kernel)
  exact ⟨number, stream, same (by decide +kernel)⟩

end Reckon
