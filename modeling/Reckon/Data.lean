/-
This file holds plain data: what a tree is exchanged as, and anything else
that may be handed in for one. A mapping keeps its entries in order. A
description of data is as long as it has to be, but for whole numbers, which may
have too many digits to be written; that a machine may run out of stack over
data that is nested very deeply is not modelled.
-/

import Reckon.Number
import Reckon.Text.Quoted

namespace Reckon

inductive Data
  | null
  | truth (value : Bool)
  | number (value : Number)
  | text (value : String)
  | list (items : List Data)
  | mapping (entries : List (String × Data))

namespace Data

/-- The word for a kind of data in messages. -/
def kindName : Data → String
  | .null => "NoneType"
  | .truth _ => "bool"
  | .number (.whole _) => "int"
  | .number (.double _) => "float"
  | .text _ => "str"
  | .list _ => "list"
  | .mapping _ => "dict"

mutual

/-- Data as messages show it. -/
def describe : Data → Except Text.DigitError String
  | .null => .ok "None"
  | .truth true => .ok "True"
  | .truth false => .ok "False"
  | .number value => value.literal
  | .text value => .ok (Text.quoted value)
  | .list items => do return "[" ++ String.intercalate ", " (← describeItems items) ++ "]"
  | .mapping entries => do
    return "\x7b" ++ String.intercalate ", " (← describeEntries entries) ++ "\x7d"

def describeItems : List Data → Except Text.DigitError (List String)
  | [] => .ok []
  | item :: items => do return (← item.describe) :: (← describeItems items)

def describeEntries : List (String × Data) → Except Text.DigitError (List String)
  | [] => .ok []
  | (key, value) :: entries => do
    return (Text.quoted key ++ ": " ++ (← value.describe)) :: (← describeEntries entries)

end

/-- What is found in a mapping is smaller than the mapping. -/
theorem sizeOf_lookup_lt {entries : List (String × Data)} {key : String} {found : Data}
    (present : entries.lookup key = some found) : sizeOf found < sizeOf entries := by
  induction entries with
  | nil => simp at present
  | cons entry others inductionHypothesis =>
    obtain ⟨name, value⟩ := entry
    simp only [List.lookup_cons] at present
    simp only [List.cons.sizeOf_spec, Prod.mk.sizeOf_spec]
    split at present
    · cases present
      omega
    · have smaller := inductionHypothesis present
      omega

/-- What is found in a mapping under two keys is smaller than the mapping even together. -/
theorem sizeOf_lookup_add_lt {entries : List (String × Data)} {key key' : String}
    {found found' : Data} (apart : key ≠ key') (present : entries.lookup key = some found)
    (present' : entries.lookup key' = some found') :
    sizeOf found + sizeOf found' < sizeOf entries := by
  induction entries with
  | nil => simp at present
  | cons entry others inductionHypothesis =>
    obtain ⟨name, value⟩ := entry
    simp only [List.lookup_cons] at present present'
    simp only [List.cons.sizeOf_spec, Prod.mk.sizeOf_spec]
    split at present <;> split at present'
    · next same _ same' => exact absurd ((eq_of_beq same).trans (eq_of_beq same').symm) apart
    · cases present
      have smaller := sizeOf_lookup_lt present'
      omega
    · cases present'
      have smaller := sizeOf_lookup_lt present
      omega
    · have smaller := inductionHypothesis present present'
      omega

end Data

end Reckon
