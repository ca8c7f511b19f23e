/-
This file exchanges trees with plain data. A leaf is a mapping with the entry
`value`, and a node is a mapping with the entries `op`, `left` and `right`.
Going back, a mapping with a value is a leaf whatever else it holds, entries
that are not asked for are dropped, and only the four operators are known. The
error is that of the first place that is wrong, each place being looked at
before its left part and that before its right part.

Data is read with the work that is left kept in a list, so its parts may lie in
one another as deep as they like. `toTree` is the plain recursion. `build_read`
says that the two agree whatever else is left to do, and so `ofData`, which is
what runs, never asks for a tree that has not been built.
-/

import Reckon.Data
import Reckon.Tree.Walk

namespace Reckon

/-! ### To data -/

def Visitor.exchange : Visitor Data where
  leaf _ value := .mapping [("value", .number (.double value))]
  node _ _ operation _ left right :=
    .mapping [("op", .text operation.symbol), ("left", left), ("right", right)]
  closed _ _ := none

/-- A tree as plain data. -/
def Tree.toData (tree : Expression) : Data :=
  Visitor.exchange.walk tree

/-! ### One place of data -/

/-- What is wrong with data that is no tree. -/
inductive ExchangeError
  | notAMapping (found : Data)
  | notANumber (found : Data)
  | neitherLeafNorNode
  | notASymbol (found : Data)
  | unknownOperation (found : Data)
  | missingOperand (operator : Operator)
  | conversion (error : Number.ConversionError)

/-- A message with data at its end. Where the data cannot be described the message says why. -/
def Data.complaint (opening : String) (found : Data) : String :=
  match found.describe with
  | .ok shown => opening ++ shown
  | .error error => error.message

def ExchangeError.message : ExchangeError → String
  | .notAMapping found => "Expected a mapping, got " ++ found.kindName
  | .notANumber found => found.complaint "Leaf value must be a number, got "
  | .neitherLeafNorNode => "Node must have either 'value' or 'op'"
  | .notASymbol found => "unhashable type: '" ++ found.kindName ++ "'"
  | .unknownOperation found => found.complaint "Unknown operation: "
  | .missingOperand operator =>
    "Operation " ++ Text.quoted operator.symbol ++ " needs both 'left' and 'right'"
  | .conversion error => error.message

/-- What callers tell errors apart by: the data says something wrong, it has a thing of the wrong
sort where symbols are looked up, or it has a number out of range. -/
inductive ExchangeError.Category
  | value
  | type
  | range
deriving DecidableEq

def ExchangeError.category : ExchangeError → Category
  | .notAMapping _ | .notANumber _ | .neitherLeafNorNode | .unknownOperation _
  | .missingOperand _ => .value
  | .notASymbol _ => .type
  | .conversion _ => .range

/-- The operator that is found in a mapping. Lists and mappings are not even looked up. -/
def Operator.ofData : Data → Except ExchangeError Operator
  | .list items => .error (.notASymbol (.list items))
  | .mapping entries => .error (.notASymbol (.mapping entries))
  | .text symbol =>
    match Operator.ofSymbol? symbol with
    | some operator => .ok operator
    | none => .error (.unknownOperation (.text symbol))
  | found => .error (.unknownOperation found)

namespace Data

/-- What a place of data stands for, its parts not looked at. -/
inductive Place
  | leaf (value : Float)
  | node (operator : Operator) (left right : Data)

/-- The leaf with the value that is found in a mapping. -/
def leafOf : Data → Except ExchangeError Place
  | .number held =>
    match held.toDouble with
    | .ok value => .ok (.leaf value)
    | .error error => .error (.conversion error)
  | found => .error (.notANumber found)

/-- The node with the entries of a mapping that has no value. -/
def nodeOf (entries : List (String × Data)) : Except ExchangeError Place :=
  match entries.lookup "op" with
  | none => .error .neitherLeafNorNode
  | some symbol =>
    match Operator.ofData symbol with
    | .error error => .error error
    | .ok operator =>
      match entries.lookup "left", entries.lookup "right" with
      | some left, some right => .ok (.node operator left right)
      | _, _ => .error (.missingOperand operator)

/-- Looks at one place, and says what it stands for or what is wrong with it. -/
def inspect : Data → Except ExchangeError Place
  | .mapping entries =>
    match entries.lookup "value" with
    | some value => leafOf value
    | none => nodeOf entries
  | found => .error (.notAMapping found)

theorem leafOf_ok {data : Data} {place : Place} (found : leafOf data = .ok place) :
    ∃ held value, data = .number held ∧ held.toDouble = .ok value ∧ place = .leaf value := by
  unfold leafOf at found
  split at found
  · split at found
    · next held _ value converted =>
      exact ⟨held, value, rfl, converted, (Except.ok.inj found).symm⟩
    · simp at found
  · simp at found

theorem nodeOf_ok {entries : List (String × Data)} {place : Place}
    (found : nodeOf entries = .ok place) :
    ∃ symbol operator left right, entries.lookup "op" = some symbol ∧
      Operator.ofData symbol = .ok operator ∧ entries.lookup "left" = some left ∧
      entries.lookup "right" = some right ∧ place = .node operator left right := by
  unfold nodeOf at found
  split at found
  · simp at found
  · next symbol isSymbol =>
    split at found
    · simp at found
    · next operator known =>
      split at found
      · next left right isLeft isRight =>
        exact ⟨symbol, operator, left, right, isSymbol, known, isLeft, isRight,
          (Except.ok.inj found).symm⟩
      · simp at found

/-- Both parts of a node are smaller than the node, even together. -/
theorem sizeOf_parts_lt {data left right : Data} {operator : Operator}
    (found : data.inspect = .ok (.node operator left right)) :
    sizeOf left + sizeOf right < sizeOf data := by
  unfold inspect at found
  split at found
  · split at found
    · obtain ⟨_, _, _, _, same⟩ := leafOf_ok found
      exact absurd same (by simp)
    · obtain ⟨_, _, _, _, _, _, isLeft, isRight, same⟩ := nodeOf_ok found
      obtain ⟨rfl, rfl, rfl⟩ := Place.node.inj same
      have smaller := sizeOf_lookup_add_lt (by decide) isLeft isRight
      simp only [mapping.sizeOf_spec]
      omega
  · simp at found

/-! ### From data -/

/-- The tree that plain data stands for. -/
def toTree (data : Data) : Except ExchangeError Expression :=
  match _ : data.inspect with
  | .error error => .error error
  | .ok (.leaf value) => .ok (.leaf value)
  | .ok (.node operator left right) => do
    let leftTree ← left.toTree
    let rightTree ← right.toTree
    return .node leftTree operator.operation rightTree
termination_by sizeOf data
decreasing_by all_goals have smaller := sizeOf_parts_lt ‹_›; omega

/-- A piece of work: to read data, or to join the latest two trees. -/
inductive Task
  | read (data : Data)
  | join (operator : Operator)

/-- A bound on the steps that a task takes. -/
noncomputable def Task.cost : Task → Nat
  | .read data => 2 * sizeOf data
  | .join _ => 1

/-- Does all tasks, the first one first, with the trees built so far, the latest one first, which is
the answer in the end. There is none when a tree is asked for that has not been built. -/
def build : List Task → List Expression → Option (Except ExchangeError Expression)
  | [], tree :: _ => some (.ok tree)
  | [], [] => none
  | .read data :: tasks, built =>
    match _ : data.inspect with
    | .error error => some (.error error)
    | .ok (.leaf value) => build tasks (.leaf value :: built)
    | .ok (.node operator left right) =>
      build (.read left :: .read right :: .join operator :: tasks) built
  | .join operator :: tasks, right :: left :: built =>
    build tasks (.node left operator.operation right :: built)
  | .join _ :: _, _ => none
termination_by tasks => tasks.foldr (fun task rest => task.cost + rest) 0
decreasing_by
  · have positive : 0 < sizeOf data := by cases data <;> simp [Nat.add_comm 1]
    simp only [List.foldr_cons, Task.cost]
    omega
  · have smaller := sizeOf_parts_lt ‹_›
    simp only [List.foldr_cons, Task.cost]
    omega
  · simp only [List.foldr_cons, Task.cost]
    omega

section
variable {data left right : Data} {operator : Operator} (tasks : List Task)
  (built : List Expression)

theorem toTree_of_leaf {value : Float} (found : data.inspect = .ok (.leaf value)) :
    data.toTree = .ok (.leaf value) := by
  rw [toTree]
  split <;> simp_all

theorem toTree_of_node (found : data.inspect = .ok (.node operator left right)) :
    data.toTree = (do
      let leftTree ← left.toTree
      let rightTree ← right.toTree
      return .node leftTree operator.operation rightTree) := by
  rw [toTree]
  split <;> simp_all

theorem build_of_error {error : ExchangeError} (refused : data.inspect = .error error) :
    build (.read data :: tasks) built = some (.error error) := by
  rw [build]
  split <;> simp_all

theorem build_of_leaf {value : Float} (found : data.inspect = .ok (.leaf value)) :
    build (.read data :: tasks) built = build tasks (.leaf value :: built) := by
  rw [build]
  split <;> simp_all

theorem build_of_node (found : data.inspect = .ok (.node operator left right)) :
    build (.read data :: tasks) built =
      build (.read left :: .read right :: .join operator :: tasks) built := by
  rw [build]
  split <;> simp_all

theorem build_join (rightTree leftTree : Expression) :
    build (.join operator :: tasks) (rightTree :: leftTree :: built) =
      build tasks (.node leftTree operator.operation rightTree :: built) := by
  rw [build]

theorem build_done (tree : Expression) : build [] (tree :: built) = some (.ok tree) := by
  rw [build]

end

/-- Reading data puts its tree on top of the trees, or ends with its error. -/
theorem build_read (data : Data) (tasks : List Task) (built : List Expression) :
    build (.read data :: tasks) built =
      match data.toTree with
      | .error error => some (.error error)
      | .ok tree => build tasks (tree :: built) := by
  fun_induction toTree data generalizing tasks built with
  | case1 data error refused => exact build_of_error tasks built refused
  | case2 data value found => exact build_of_leaf tasks built found
  | case3 data operator left right found leftHypothesis rightHypothesis =>
    rw [build_of_node tasks built found, leftHypothesis]
    cases left.toTree with
    | error error => rfl
    | ok leftTree =>
      simp only [rightHypothesis]
      cases right.toTree with
      | error error => rfl
      | ok rightTree => exact build_join ..

theorem build_single (data : Data) : build [.read data] [] = some data.toTree := by
  rw [build_read]
  cases data.toTree with
  | error error => rfl
  | ok tree => exact build_done ..

end Data

/-- The tree that plain data stands for, or what is wrong with the data. -/
def Tree.ofData (data : Data) : Except ExchangeError Expression :=
  (Data.build [.read data] []).get (by simp [Data.build_single])

theorem Tree.ofData_eq_toTree (data : Data) : Tree.ofData data = data.toTree := by
  simp [ofData, Data.build_single]

end Reckon
