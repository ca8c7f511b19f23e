/-
This file writes plain data as a document, in two formats. What writes documents
is a parameter of the program that shows trees. The writer here knows as much of
the formats as the data of trees needs: mappings with plain words for keys, one
entry to a line and the parts of a node two columns further in, doubles, and the
symbols of operators. Other data it does not write.
-/

import Reckon.Data
import Reckon.Operation
import Reckon.Text.Blank

namespace Reckon

inductive DocumentFormat
  | yaml
  | json
deriving DecidableEq

/-- What writes data as a document, unless it fails. -/
abbrev Serializer := DocumentFormat → Data → Option String

namespace Document

/-- Two columns further in. -/
def deeper (margin : String) : String := margin ++ "  "

/-- Lines with a text in front of the first of them. -/
def keyed (key : String) : List String → List String
  | [] => []
  | first :: others => (key ++ first) :: others

/-! ### YAML -/

/-- A symbol as a value in YAML, quoted where it would mean something else: a minus sign starts
an item and a star starts a reference. -/
def yamlSymbol : Operator → String
  | .sum => "+"
  | .difference => "'-'"
  | .product => "'*'"
  | .quotient => "/"

mutual

/-- The lines of a value, of which the first stands behind its key. -/
def yamlLines (margin : String) : Data → Option (List String)
  | .number (.double value) => some [" " ++ Spelling.yaml.write value]
  | .text symbol => (Operator.ofSymbol? symbol).map fun operator => [" " ++ yamlSymbol operator]
  | .mapping [] => none
  | .mapping entries => (yamlEntries margin entries).map ("" :: ·)
  | _ => none

def yamlEntries (margin : String) : List (String × Data) → Option (List String)
  | [] => some []
  | (key, value) :: entries => do
    let here ← yamlLines (deeper margin) value
    let others ← yamlEntries margin entries
    return keyed (margin ++ key ++ ":") here ++ others

end

/-! ### JSON -/

mutual

/-- The lines of a value, of which the first stands behind its key, and the last has what follows
the value. -/
def jsonLines (margin after : String) : Data → Option (List String)
  | .number (.double value) => some [Spelling.json.write value ++ after]
  | .text symbol => (Operator.ofSymbol? symbol).map fun _ => ["\"" ++ symbol ++ "\"" ++ after]
  | .mapping [] => none
  | .mapping entries =>
    (jsonEntries (deeper margin) entries).map fun inside =>
      "\x7b" :: (inside ++ [margin ++ "\x7d" ++ after])
  | _ => none

def jsonEntries (margin : String) : List (String × Data) → Option (List String)
  | [] => some []
  | (key, value) :: entries => do
    let here ← jsonLines margin (if entries.isEmpty then "" else ",") value
    let others ← jsonEntries margin entries
    return keyed (margin ++ "\"" ++ key ++ "\": ") here ++ others

end

/-- Writes the data of a tree. A document in YAML has a line end behind its last line. -/
def write : Serializer
  | .yaml, data => (yamlLines "" data).map fun lines => String.join (lines.tail.map (· ++ "\n"))
  | .json, data => (jsonLines "" "" data).map (String.intercalate "\n")

end Document

end Reckon
