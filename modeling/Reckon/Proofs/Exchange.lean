/-
This file says which plain data stands for a tree, and that nothing of a tree is
lost where it is written as data and read back.

Data is well formed if it is a leaf, or a node whose two parts are well formed.
The places of data are listed in the order in which they are looked at, a place
before the places in its left part and those before the places in its right
part, and the error is that of the first place that is wrong. Where there is
none, the tree is written as the data without what was never asked for.
-/

import Reckon.Proofs.Formula
import Reckon.Tree.Exchange

namespace Reckon

/-! ### Trees as data -/

theorem Visitor.fold_exchange (tree : Expression) (level level' : Nat) :
    exchange.fold level tree = exchange.fold level' tree := by
  induction tree generalizing level level' with
  | leaf value => rfl
  | node left operation right leftHypothesis rightHypothesis =>
    show Data.mapping [_, ("left", exchange.fold (level + 1) left),
      ("right", exchange.fold (level + 1) right)] = _
    rw [leftHypothesis _ (level' + 1), rightHypothesis _ (level' + 1)]
    rfl

namespace Tree

open Visitor

theorem toData_leaf (value : Float) :
    (leaf value).toData = .mapping [("value", .number (.double value))] := by
  rw [toData, walk_eq_fold]
  rfl

theorem toData_node (left : Expression) (operation : Operation) (right : Expression) :
    (node left operation right).toData =
      .mapping [("op", .text operation.symbol), ("left", left.toData),
        ("right", right.toData)] := by
  simp only [toData, walk_eq_fold]
  rw [fold_exchange left 0 1, fold_exchange right 0 1]
  rfl

end Tree

/-! ### One place -/

/-- Only the symbols of the four operators are known. -/
theorem Operator.ofData_eq_ok_iff {symbol : Data} {operator : Operator} :
    Operator.ofData symbol = .ok operator ↔ symbol = .text operator.symbol := by
  constructor
  · intro known
    unfold Operator.ofData at known
    split at known
    · simp at known
    · simp at known
    · next text =>
      split at known
      · next found isFound =>
        obtain rfl := Except.ok.inj known
        rw [Operator.ofSymbol?_eq_some_iff.mp isFound]
      · simp at known
    · simp at known
  · rintro rfl
    rw [Operator.ofData, Operator.ofSymbol?_symbol]

namespace Data

theorem inspect_eq_leaf_iff {data : Data} {value : Float} :
    data.inspect = .ok (.leaf value) ↔
      ∃ entries held, data = .mapping entries ∧ entries.lookup "value" = some (.number held) ∧
        held.toDouble = .ok value := by
  constructor
  · intro found
    unfold inspect at found
    split at found
    · next entries =>
      split at found
      · next isValue =>
        obtain ⟨held, _, rfl, converted, same⟩ := leafOf_ok found
        obtain rfl := Place.leaf.inj same
        exact ⟨entries, held, rfl, isValue, converted⟩
      · obtain ⟨_, _, _, _, _, _, _, _, same⟩ := nodeOf_ok found
        exact absurd same (by simp)
    · simp at found
  · rintro ⟨entries, held, rfl, isValue, converted⟩
    simp only [inspect, isValue, leafOf, converted]

theorem inspect_eq_node_iff {data left right : Data} {operator : Operator} :
    data.inspect = .ok (.node operator left right) ↔
      ∃ entries, data = .mapping entries ∧ entries.lookup "value" = none ∧
        entries.lookup "op" = some (.text operator.symbol) ∧
        entries.lookup "left" = some left ∧ entries.lookup "right" = some right := by
  constructor
  · intro found
    unfold inspect at found
    split at found
    · next entries =>
      split at found
      · obtain ⟨_, _, _, _, same⟩ := leafOf_ok found
        exact absurd same (by simp)
      · next noValue =>
        obtain ⟨symbol, _, _, _, isSymbol, known, isLeft, isRight, same⟩ := nodeOf_ok found
        obtain ⟨rfl, rfl, rfl⟩ := Place.node.inj same
        rw [Operator.ofData_eq_ok_iff.mp known] at isSymbol
        exact ⟨entries, rfl, noValue, isSymbol, isLeft, isRight⟩
    · simp at found
  · rintro ⟨entries, rfl, noValue, isSymbol, isLeft, isRight⟩
    have known := Operator.ofData_eq_ok_iff.mpr (rfl : Data.text operator.symbol = _)
    simp only [inspect, noValue, nodeOf, isSymbol, known, isLeft, isRight]

/-! ### Well-formed data -/

/-- A mapping is a leaf if it has a value, which must be a number that a double can hold. Otherwise
it is a node, with the symbol of an operator and two well-formed parts. Other entries may be
anything. -/
inductive WellFormed : Data → Prop
  | leaf {entries : List (String × Data)} {held : Number} {value : Float}
    (isValue : entries.lookup "value" = some (.number held))
    (fits : held.toDouble = .ok value) : WellFormed (.mapping entries)
  | node {entries : List (String × Data)} {operator : Operator} {left right : Data}
    (noValue : entries.lookup "value" = none)
    (isSymbol : entries.lookup "op" = some (.text operator.symbol))
    (isLeft : entries.lookup "left" = some left) (isRight : entries.lookup "right" = some right)
    (leftFormed : WellFormed left) (rightFormed : WellFormed right) :
    WellFormed (.mapping entries)

/-- What is read of data that is a node is made of what is read of its parts. -/
theorem toTree_node_ok {data left right : Data} {operator : Operator} {tree : Expression}
    (found : data.inspect = .ok (.node operator left right)) :
    data.toTree = .ok tree ↔ ∃ leftTree rightTree, left.toTree = .ok leftTree ∧
      right.toTree = .ok rightTree ∧ tree = .node leftTree operator.operation rightTree := by
  rw [toTree_of_node found]
  cases left.toTree with
  | error error => simp [Bind.bind, Except.bind]
  | ok leftTree =>
    cases right.toTree with
    | error error => simp [Bind.bind, Except.bind]
    | ok rightTree => simp [Bind.bind, Except.bind, pure, Except.pure, eq_comm]

theorem toTree_of_wellFormed {data : Data} (formed : data.WellFormed) :
    ∃ tree, data.toTree = .ok tree := by
  induction formed with
  | leaf isValue fits =>
    exact ⟨_, toTree_of_leaf (inspect_eq_leaf_iff.mpr ⟨_, _, rfl, isValue, fits⟩)⟩
  | node noValue isSymbol isLeft isRight _ _ leftHypothesis rightHypothesis =>
    obtain ⟨leftTree, leftRead⟩ := leftHypothesis
    obtain ⟨rightTree, rightRead⟩ := rightHypothesis
    have found := inspect_eq_node_iff.mpr ⟨_, rfl, noValue, isSymbol, isLeft, isRight⟩
    exact ⟨_, (toTree_node_ok found).mpr ⟨leftTree, rightTree, leftRead, rightRead, rfl⟩⟩

/-- What is read is a tree over the four operators, and only well-formed data is read. -/
theorem exists_formula_of_toTree {data : Data} {tree : Expression}
    (isRead : data.toTree = .ok tree) :
    data.WellFormed ∧ ∃ formula : Formula, formula.tree = tree := by
  fun_induction toTree data generalizing tree with
  | case1 data error refused => simp at isRead
  | case2 data value found =>
    obtain ⟨entries, held, rfl, isValue, fits⟩ := inspect_eq_leaf_iff.mp found
    exact ⟨.leaf isValue fits, .leaf value, Except.ok.inj isRead⟩
  | case3 data operator left right found leftHypothesis rightHypothesis =>
    rw [← toTree_of_node found, toTree_node_ok found] at isRead
    obtain ⟨leftTree, rightTree, leftRead, rightRead, rfl⟩ := isRead
    obtain ⟨leftFormed, leftFormula, rfl⟩ := leftHypothesis leftRead
    obtain ⟨rightFormed, rightFormula, rfl⟩ := rightHypothesis rightRead
    obtain ⟨entries, rfl, noValue, isSymbol, isLeft, isRight⟩ := inspect_eq_node_iff.mp found
    exact ⟨.node noValue isSymbol isLeft isRight leftFormed rightFormed,
      .node leftFormula operator rightFormula, rfl⟩

/-! ### The first place that is wrong -/

/-- The parts of a mapping that has no value of its own. -/
def parts : Data → List Data
  | .mapping entries =>
    if (entries.lookup "value").isSome then [] else ["left", "right"].filterMap (entries.lookup ·)
  | _ => []

theorem sizeOf_lt_of_mem_parts {data part : Data} (member : part ∈ data.parts) :
    sizeOf part < sizeOf data := by
  unfold parts at member
  split at member
  · split at member
    · simp at member
    · obtain ⟨key, _, present⟩ := List.mem_filterMap.mp member
      have smaller := sizeOf_lookup_lt present
      simp only [mapping.sizeOf_spec]
      omega
  · simp at member

/-- All places of data in the order in which they are looked at. -/
def places (data : Data) : List Data :=
  data :: data.parts.attach.flatMap fun part => part.val.places
termination_by sizeOf data
decreasing_by exact sizeOf_lt_of_mem_parts part.property

theorem places_eq (data : Data) : data.places = data :: data.parts.flatMap places := by
  rw [places, List.flatMap_subtype (fun _ _ => rfl), List.unattach_attach]

/-- What is wrong with a place itself. -/
def fault (data : Data) : Option ExchangeError :=
  match data.inspect with
  | .error error => some error
  | .ok _ => none

theorem parts_of_leaf {data : Data} {value : Float} (found : data.inspect = .ok (.leaf value)) :
    data.parts = [] := by
  obtain ⟨entries, held, rfl, isValue, _⟩ := inspect_eq_leaf_iff.mp found
  simp [parts, isValue]

theorem parts_of_node {data left right : Data} {operator : Operator}
    (found : data.inspect = .ok (.node operator left right)) : data.parts = [left, right] := by
  obtain ⟨entries, rfl, noValue, _, isLeft, isRight⟩ := inspect_eq_node_iff.mp found
  simp [parts, noValue, isLeft, isRight]

/-- Reading ends with the fault of the first place that has one. -/
theorem findSome?_fault (data : Data) :
    data.places.findSome? fault =
      match data.toTree with
      | .error error => some error
      | .ok _ => none := by
  fun_induction toTree data with
  | case1 data error refused => simp [places_eq, fault, refused]
  | case2 data value found => simp [places_eq, fault, found, parts_of_leaf found]
  | case3 data operator left right found leftHypothesis rightHypothesis =>
    simp only [places_eq data, fault, found, parts_of_node found, List.findSome?_cons,
      List.flatMap_cons, List.flatMap_nil, List.append_nil, List.findSome?_append, leftHypothesis,
      rightHypothesis]
    cases left.toTree with
    | error error => rfl
    | ok leftTree =>
      cases right.toTree with
      | error error => rfl
      | ok rightTree => rfl

/-! ### Data without what is not asked for -/

mutual

/-- Data with doubles for whole numbers, and without the entries that nothing depends on. -/
def pruned : Data → Data
  | .number held =>
    match held.toDouble with
    | .ok value => .number (.double value)
    | .error _ => .number held
  | .mapping entries =>
    .mapping (prunedEntries
      (if (entries.lookup "value").isSome then ["value"] else ["op", "left", "right"]) entries)
  | data => data

/-- The entries with the keys that are asked for. -/
def prunedEntries (asked : List String) : List (String × Data) → List (String × Data)
  | [] => []
  | (key, value) :: entries =>
    if key ∈ asked then (key, value.pruned) :: prunedEntries asked entries
    else prunedEntries asked entries

end

theorem lookup_prunedEntries (asked : List String) (entries : List (String × Data)) (key : String) :
    (prunedEntries asked entries).lookup key =
      if key ∈ asked then (entries.lookup key).map pruned else none := by
  induction entries with
  | nil => simp [prunedEntries]
  | cons entry entries inductionHypothesis =>
    obtain ⟨name, value⟩ := entry
    rw [prunedEntries]
    by_cases same : key = name
    · subst same
      by_cases isAsked : key ∈ asked
      · simp [isAsked]
      · simp [isAsked, inductionHypothesis]
    · have differs : (key == name) = false := by simpa using same
      split <;> simp [List.lookup_cons, differs, inductionHypothesis]

/-- Data that differs in the order of entries only. -/
inductive Alike : Data → Data → Prop
  | same (data : Data) : Alike data data
  | mapping {entries entries' : List (String × Data)}
    (found : ∀ key, Option.Rel Alike (entries.lookup key) (entries'.lookup key)) :
    Alike (.mapping entries) (.mapping entries')

/-- A leaf is written as its mapping with the value only, as a double. -/
theorem alike_pruned_leaf {entries : List (String × Data)} {held : Number} {value : Float}
    (isValue : entries.lookup "value" = some (.number held)) (fits : held.toDouble = .ok value) :
    (Tree.leaf value).toData.Alike (pruned (.mapping entries)) := by
  have kept : pruned (.number held) = .number (.double value) := by simp only [pruned, fits]
  rw [Tree.toData_leaf, pruned, if_pos (by simp [isValue])]
  refine .mapping fun key => ?_
  rw [lookup_prunedEntries]
  by_cases same : key = "value"
  · subst same
    simpa [isValue, kept] using .same _
  · have differs : (key == "value") = false := by simpa using same
    simp [List.lookup_cons, same, differs]

/-- A node is written as its mapping with the symbol and what its parts are written as. -/
theorem alike_pruned_node {entries : List (String × Data)} {operator : Operator} {left right : Data}
    {leftTree rightTree : Expression} (noValue : entries.lookup "value" = none)
    (isSymbol : entries.lookup "op" = some (.text operator.symbol))
    (isLeft : entries.lookup "left" = some left) (isRight : entries.lookup "right" = some right)
    (leftAlike : leftTree.toData.Alike left.pruned)
    (rightAlike : rightTree.toData.Alike right.pruned) :
    (Tree.node leftTree operator.operation rightTree).toData.Alike (pruned (.mapping entries)) := by
  rw [Tree.toData_node, pruned, if_neg (by simp [noValue])]
  refine .mapping fun key => ?_
  rw [lookup_prunedEntries]
  by_cases forOp : key = "op"
  · subst forOp
    simpa [isSymbol, pruned] using .same _
  by_cases forLeft : key = "left"
  · subst forLeft
    simpa [List.lookup_cons, isLeft] using leftAlike
  by_cases forRight : key = "right"
  · subst forRight
    simpa [List.lookup_cons, isRight] using rightAlike
  simp [List.lookup_cons, beq_false_of_ne, forOp, forLeft, forRight]

/-- What is read is written as the data it was read of, without what was not asked for. -/
theorem alike_pruned {data : Data} {tree : Expression} (isRead : data.toTree = .ok tree) :
    tree.toData.Alike data.pruned := by
  fun_induction toTree data generalizing tree with
  | case1 data error refused => simp at isRead
  | case2 data value found =>
    obtain rfl := Except.ok.inj isRead
    obtain ⟨entries, held, rfl, isValue, fits⟩ := inspect_eq_leaf_iff.mp found
    exact alike_pruned_leaf isValue fits
  | case3 data operator left right found leftHypothesis rightHypothesis =>
    rw [← toTree_of_node found, toTree_node_ok found] at isRead
    obtain ⟨leftTree, rightTree, leftRead, rightRead, rfl⟩ := isRead
    obtain ⟨entries, rfl, noValue, isSymbol, isLeft, isRight⟩ := inspect_eq_node_iff.mp found
    exact alike_pruned_node noValue isSymbol isLeft isRight (leftHypothesis leftRead)
      (rightHypothesis rightRead)

end Data

/-! ### Both ways -/

/-- A tree over the four operators is read back of what it is written as. -/
theorem Formula.toTree_toData (formula : Formula) :
    formula.tree.toData.toTree = .ok formula.tree := by
  induction formula with
  | leaf value =>
    exact Data.toTree_of_leaf
      (Data.inspect_eq_leaf_iff.mpr ⟨_, .double value, Tree.toData_leaf value, rfl, rfl⟩)
  | node left operator right leftHypothesis rightHypothesis =>
    have found := Data.inspect_eq_node_iff.mpr
      ⟨_, Tree.toData_node left.tree operator.operation right.tree, rfl, rfl, rfl, rfl⟩
    exact (Data.toTree_node_ok found).mpr ⟨_, _, leftHypothesis, rightHypothesis, rfl⟩

/-- Trees over the four operators are exchanged without loss. Exactly the well-formed data is read,
as such a tree, which is written as the same data without what was not asked for; any other data is
refused for the fault of its first place that has one. -/
theorem exchange_round_trip :
    (∀ formula : Formula, Tree.ofData formula.tree.toData = .ok formula.tree) ∧
    ∀ data : Data,
      ((∃ tree, Tree.ofData data = .ok tree) ↔ data.WellFormed) ∧
      (∀ tree, Tree.ofData data = .ok tree →
        (∃ formula : Formula, formula.tree = tree) ∧ tree.toData.Alike data.pruned) ∧
      ∀ error, Tree.ofData data = .error error ↔ data.places.findSome? Data.fault = some error := by
  simp only [Tree.ofData_eq_toTree]
  refine ⟨Formula.toTree_toData, fun data => ⟨⟨?_, Data.toTree_of_wellFormed⟩, ?_, ?_⟩⟩
  · rintro ⟨tree, isRead⟩
    exact (Data.exists_formula_of_toTree isRead).1
  · intro tree isRead
    exact ⟨(Data.exists_formula_of_toTree isRead).2, Data.alike_pruned isRead⟩
  · intro error
    rw [Data.findSome?_fault]
    cases data.toTree with
    | error refused => simp
    | ok tree => simp

end Reckon
