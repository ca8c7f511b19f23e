/-
This file says for what a place of data is refused, and of which category the
error is. Nearly everything that can be wrong is an error about what the data
says. Two things are not: a list or a mapping where the symbol of a node should
be cannot even be looked up, and a whole number beyond the range of doubles
cannot be the value of a leaf.

Reading comes to such a place if no place before it is at fault. Where it comes
to none, the data is either read or refused for what it says.
-/

import Reckon.Proofs.Exchange
import Reckon.Proofs.Rounding

namespace Reckon

/-! ### What refuses a place -/

/-- Only whole numbers that no double is near are refused. -/
theorem Number.toDouble_eq_error_iff {held : Number} :
    held.toDouble = .error .tooLarge ↔
      ∃ whole, held = .whole whole ∧ Binary64.ofInt? whole = none := by
  rw [toDouble.eq_def]
  -- Any function may stand for rounding, which is not to be computed here.
  obtain ⟨nearest?, same⟩ : ∃ nearest?, nearest? = Binary64.ofInt? := ⟨_, rfl⟩
  rw [← same]
  cases held with
  | double value => simp
  | whole value => cases converted : nearest? value <;> simp [converted]

namespace Data

/-- Data that is made of other data, which no symbol is. -/
def IsStructured : Data → Prop
  | .list _ | .mapping _ => True
  | _ => False

/-- All that a place can be refused for. -/
inductive RefusedFor : Data → ExchangeError → Prop
  | notAMapping {data : Data} (other : ∀ entries, data ≠ .mapping entries) :
    RefusedFor data (.notAMapping data)
  | notANumber {entries : List (String × Data)} {value : Data}
    (isValue : entries.lookup "value" = some value) (other : ∀ held, value ≠ .number held) :
    RefusedFor (.mapping entries) (.notANumber value)
  | tooLarge {entries : List (String × Data)} {whole : Int}
    (isValue : entries.lookup "value" = some (.number (.whole whole)))
    (large : Binary64.ofInt? whole = none) :
    RefusedFor (.mapping entries) (.conversion .tooLarge)
  | neitherLeafNorNode {entries : List (String × Data)} (noValue : entries.lookup "value" = none)
    (noSymbol : entries.lookup "op" = none) : RefusedFor (.mapping entries) .neitherLeafNorNode
  | notASymbol {entries : List (String × Data)} {symbol : Data}
    (noValue : entries.lookup "value" = none) (isSymbol : entries.lookup "op" = some symbol)
    (structured : symbol.IsStructured) : RefusedFor (.mapping entries) (.notASymbol symbol)
  | unknownOperation {entries : List (String × Data)} {symbol : Data}
    (noValue : entries.lookup "value" = none) (isSymbol : entries.lookup "op" = some symbol)
    (plain : ¬symbol.IsStructured)
    (unknown : ∀ operator : Operator, symbol ≠ .text operator.symbol) :
    RefusedFor (.mapping entries) (.unknownOperation symbol)
  | missingOperand {entries : List (String × Data)} {operator : Operator}
    (noValue : entries.lookup "value" = none)
    (isSymbol : entries.lookup "op" = some (.text operator.symbol))
    (missing : entries.lookup "left" = none ∨ entries.lookup "right" = none) :
    RefusedFor (.mapping entries) (.missingOperand operator)

end Data

/-- What is made of other data is not looked up, and anything else that is no symbol is unknown. -/
theorem Operator.ofData_eq_error_iff {symbol : Data} {error : ExchangeError} :
    Operator.ofData symbol = .error error ↔
      symbol.IsStructured ∧ error = .notASymbol symbol ∨
      ¬symbol.IsStructured ∧ (∀ operator : Operator, symbol ≠ .text operator.symbol) ∧
        error = .unknownOperation symbol := by
  cases symbol with
  | text symbol =>
    rw [ofData.eq_def]
    cases found : ofSymbol? symbol with
    | none =>
      have unknown (operator : Operator) : symbol ≠ operator.symbol := by
        rintro rfl
        simp [ofSymbol?_symbol] at found
      simp [found, unknown, Data.IsStructured, eq_comm]
    | some operator =>
      obtain rfl := ofSymbol?_eq_some_iff.mp found
      simp [found, Data.IsStructured]
  | _ => simp [ofData, Data.IsStructured, eq_comm]

namespace Data

theorem leafOf_eq_error_iff {value : Data} {error : ExchangeError} :
    leafOf value = .error error ↔
      (∀ held, value ≠ .number held) ∧ error = .notANumber value ∨
      ∃ held, value = .number held ∧ held.toDouble = .error .tooLarge ∧
        error = .conversion .tooLarge := by
  rw [leafOf.eq_def]
  obtain ⟨convert, same⟩ : ∃ convert, convert = Number.toDouble := ⟨_, rfl⟩
  rw [← same]
  cases value with
  | number held => cases converted : convert held <;> simp [converted, eq_comm]
  | _ => simp [eq_comm]

theorem nodeOf_eq_error_iff {entries : List (String × Data)} {error : ExchangeError} :
    nodeOf entries = .error error ↔
      entries.lookup "op" = none ∧ error = .neitherLeafNorNode ∨
      ∃ symbol, entries.lookup "op" = some symbol ∧
        (Operator.ofData symbol = .error error ∨
        ∃ operator, Operator.ofData symbol = .ok operator ∧
          (entries.lookup "left" = none ∨ entries.lookup "right" = none) ∧
          error = .missingOperand operator) := by
  rw [nodeOf.eq_def]
  cases isSymbol : entries.lookup "op" with
  | none => simpa using eq_comm
  | some symbol =>
    cases known : Operator.ofData symbol with
    | error cause => simp [known]
    | ok operator =>
      cases entries.lookup "left" with
      | none => simpa [known] using eq_comm
      | some left =>
        cases entries.lookup "right" with
        | none => simpa [known] using eq_comm
        | some right => simp [known]

variable {data : Data} {error : ExchangeError}

theorem refusedFor_of_inspect (refused : data.inspect = .error error) : RefusedFor data error := by
  cases data with
  | mapping entries =>
    rw [inspect] at refused
    cases isValue : entries.lookup "value" with
    | some value =>
      rw [isValue] at refused
      obtain ⟨other, rfl⟩ | ⟨held, rfl, converted, rfl⟩ := leafOf_eq_error_iff.mp refused
      · exact .notANumber isValue other
      · obtain ⟨whole, rfl, large⟩ := Number.toDouble_eq_error_iff.mp converted
        exact .tooLarge isValue large
    | none =>
      rw [isValue] at refused
      obtain ⟨noSymbol, rfl⟩ | ⟨symbol, isSymbol, failed | ⟨operator, known, missing, rfl⟩⟩ :=
        nodeOf_eq_error_iff.mp refused
      · exact .neitherLeafNorNode isValue noSymbol
      · obtain ⟨structured, rfl⟩ | ⟨plain, unknown, rfl⟩ := Operator.ofData_eq_error_iff.mp failed
        · exact .notASymbol isValue isSymbol structured
        · exact .unknownOperation isValue isSymbol plain unknown
      · obtain rfl := Operator.ofData_eq_ok_iff.mp known
        exact .missingOperand isValue isSymbol missing
  | _ =>
    obtain rfl := Except.error.inj refused
    exact .notAMapping (by simp)

theorem RefusedFor.inspect_eq (refused : RefusedFor data error) : data.inspect = .error error := by
  cases refused with
  | notAMapping other =>
    cases data with
    | mapping entries => exact absurd rfl (other entries)
    | _ => rfl
  | notANumber isValue other =>
    simp only [inspect, isValue]
    exact leafOf_eq_error_iff.mpr (.inl ⟨other, rfl⟩)
  | tooLarge isValue large =>
    have converted := Number.toDouble_eq_error_iff.mpr ⟨_, rfl, large⟩
    simp only [inspect, isValue]
    exact leafOf_eq_error_iff.mpr (.inr ⟨_, rfl, converted, rfl⟩)
  | neitherLeafNorNode noValue noSymbol =>
    simp only [inspect, noValue]
    exact nodeOf_eq_error_iff.mpr (.inl ⟨noSymbol, rfl⟩)
  | notASymbol noValue isSymbol structured =>
    have failed := Operator.ofData_eq_error_iff.mpr (.inl ⟨structured, rfl⟩)
    simp only [inspect, noValue]
    exact nodeOf_eq_error_iff.mpr (.inr ⟨_, isSymbol, .inl failed⟩)
  | unknownOperation noValue isSymbol plain unknown =>
    have failed := Operator.ofData_eq_error_iff.mpr (.inr ⟨plain, unknown, rfl⟩)
    simp only [inspect, noValue]
    exact nodeOf_eq_error_iff.mpr (.inr ⟨_, isSymbol, .inl failed⟩)
  | missingOperand noValue isSymbol missing =>
    simp only [inspect, noValue]
    exact nodeOf_eq_error_iff.mpr
      (.inr ⟨_, isSymbol, .inr ⟨_, Operator.ofData_eq_ok_iff.mpr rfl, missing, rfl⟩⟩)

theorem fault_eq_some_iff : data.fault = some error ↔ RefusedFor data error := by
  have same : data.fault = some error ↔ data.inspect = .error error := by
    rw [fault]
    cases data.inspect with
    | error refused => simp
    | ok place => simp
  exact same.trans ⟨refusedFor_of_inspect, RefusedFor.inspect_eq⟩

/-! ### What is not about what the data says -/

/-- A mapping without a value that has a list or a mapping for its symbol. -/
def StructuredSymbol (data : Data) : Prop :=
  ∃ entries symbol, data = .mapping entries ∧ entries.lookup "value" = none ∧
    entries.lookup "op" = some symbol ∧ symbol.IsStructured

/-- A mapping with a whole number for its value that is at least halfway from the largest double to
the power of two behind it. -/
def ValueOutOfRange (data : Data) : Prop :=
  ∃ entries whole, data = .mapping entries ∧
    entries.lookup "value" = some (.number (.whole whole)) ∧ 2 ^ 1024 - 2 ^ 970 ≤ whole.natAbs

theorem exists_type_iff :
    (∃ error, data.RefusedFor error ∧ error.category = .type) ↔ data.StructuredSymbol := by
  constructor
  · rintro ⟨error, refused, isType⟩
    cases refused with
    | notASymbol noValue isSymbol structured =>
      exact ⟨_, _, rfl, noValue, isSymbol, structured⟩
    | _ => simp [ExchangeError.category] at isType
  · rintro ⟨entries, symbol, rfl, noValue, isSymbol, structured⟩
    exact ⟨_, .notASymbol noValue isSymbol structured, rfl⟩

theorem exists_range_iff :
    (∃ error, data.RefusedFor error ∧ error.category = .range) ↔ data.ValueOutOfRange := by
  constructor
  · rintro ⟨error, refused, isRange⟩
    cases refused with
    | tooLarge isValue large =>
      exact ⟨_, _, rfl, isValue, (Binary64.ofInt?_eq_none_iff _).mp large⟩
    | _ => simp [ExchangeError.category] at isRange
  · rintro ⟨entries, whole, rfl, isValue, large⟩
    exact ⟨_, .tooLarge isValue ((Binary64.ofInt?_eq_none_iff _).mpr large), rfl⟩

/-! ### Where reading ends -/

/-- Reading comes to a place of this kind, all places before it being in order. -/
def ComesTo (data : Data) (kind : Data → Prop) : Prop :=
  ∃ before place after, data.places = before ++ place :: after ∧ kind place ∧
    ∀ earlier ∈ before, earlier.fault = none

theorem exists_toTree_eq_error_iff (data : Data) {kind : Data → Prop}
    {category : ExchangeError.Category}
    (refused : ∀ {place : Data},
      (∃ error, place.RefusedFor error ∧ error.category = category) ↔ kind place) :
    (∃ error, data.toTree = .error error ∧ error.category = category) ↔ data.ComesTo kind := by
  have found := data.findSome?_fault
  constructor
  · rintro ⟨error, isRead, isCategory⟩
    rw [isRead] at found
    obtain ⟨before, place, after, same, isFault, inOrder⟩ := List.findSome?_eq_some_iff.mp found
    exact ⟨before, place, after, same,
      refused.mp ⟨error, fault_eq_some_iff.mp isFault, isCategory⟩, inOrder⟩
  · rintro ⟨before, place, after, same, isKind, inOrder⟩
    obtain ⟨error, isRefused, isCategory⟩ := refused.mpr isKind
    have first := List.findSome?_eq_some_iff.mpr
      ⟨before, place, after, same, fault_eq_some_iff.mpr isRefused, inOrder⟩
    rw [found] at first
    cases isRead : data.toTree with
    | ok tree => simp [isRead] at first
    | error error' =>
      rw [isRead] at first
      obtain rfl := Option.some.inj first
      exact ⟨error', rfl, isCategory⟩

end Data

/-- The category of the error is another one than that of wrong data exactly if reading comes to a
symbol that is made of other data, or to a whole number that no double can hold. Where it comes to
neither, the data is read or refused as wrong. -/
theorem ofData_category (data : Data) :
    ((∃ error, Tree.ofData data = .error error ∧ error.category = .type) ↔
      data.ComesTo Data.StructuredSymbol) ∧
    ((∃ error, Tree.ofData data = .error error ∧ error.category = .range) ↔
      data.ComesTo Data.ValueOutOfRange) ∧
    (((∃ tree, Tree.ofData data = .ok tree) ∨
        ∃ error, Tree.ofData data = .error error ∧ error.category = .value) ↔
      ¬data.ComesTo Data.StructuredSymbol ∧ ¬data.ComesTo Data.ValueOutOfRange) := by
  rw [Tree.ofData_eq_toTree]
  have types := data.exists_toTree_eq_error_iff Data.exists_type_iff
  have ranges := data.exists_toTree_eq_error_iff Data.exists_range_iff
  refine ⟨types, ranges, ?_⟩
  rw [← types, ← ranges]
  cases data.toTree with
  | ok tree => simp
  | error error => cases isCategory : error.category <;> simp [isCategory]

theorem natAbs_two_pow (exponent : Nat) : ((2 : Int) ^ exponent).natAbs = 2 ^ exponent := by
  rw [Int.natAbs_pow]
  rfl

/-- One node with a list for its symbol, and one leaf with a large number. -/
theorem ofData_category_list_large :
    (∃ error, Tree.ofData (.mapping [("op", .list [.text "+"]),
        ("left", .mapping [("value", .number (.whole 1))]),
        ("right", .mapping [("value", .number (.whole 2))])]) = .error error ∧
      error.category = .type) ∧
    ∃ error, Tree.ofData (.mapping [("value", .number (.whole (2 ^ 1024)))]) = .error error ∧
      error.category = .range := by
  refine ⟨(ofData_category _).1.mpr ⟨[], _, _, Data.places_eq _, ?_, by simp⟩,
    (ofData_category _).2.1.mpr ⟨[], _, _, Data.places_eq _, ?_, by simp⟩⟩
  · exact ⟨_, _, rfl, rfl, rfl, trivial⟩
  · refine ⟨_, _, rfl, rfl, ?_⟩
    rw [natAbs_two_pow]
    exact Nat.sub_le _ _

end Reckon
