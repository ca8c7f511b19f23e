/-
This file follows a walk over a tree step by step. In a step the visitor takes
the first of the tasks that are left and goes to its level. Then it opens a
node, which is two visits and the node itself once more, or it calls a method
for what it has come to and puts the answer on top of the results. A node whose
operands are done takes their results away, the right one first.

The steps are the clauses of `run` one at a time, with the level of the visitor
and the calls that it has made written down beside them (`run_eq_some_iff`).
`after_visit` says what the steps for one tree come to, whatever else is left to
do: the tasks behind it and the results below it are as they were, the result of
the recursion is on top, and the calls are those for the places of the tree,
each operand before its node. A place is known by its path, as in the levels of
a tree, for one tree may lie in another at more than one distance from the root.
-/

import Mathlib.Data.List.Basic
import Reckon.Proofs.Places
import Reckon.Tree.Exchange

namespace Reckon.Visitor

open Reckon.Tree (Turn LeftOf)

variable {Result : Type}

/-! ### Calls -/

/-- The methods of a visitor. That for a node which is opened has the results of its operands. -/
inductive Method (Result : Type)
  | leaf
  | node (first second : Result)
  | closed

/-- A call of a method: the tree it is for, the level that the visitor is at, and the answer. -/
structure Call (Result : Type) where
  tree : Expression
  level : Nat
  method : Method Result
  answer : Result

/-- The call that the recursion makes for a tree at a level. -/
def callAt (visitor : Visitor Result) (level : Nat) (tree : Expression) : Call Result where
  tree := tree
  level := level
  method :=
    match tree with
    | .leaf _ => .leaf
    | .node left operation right =>
      match visitor.closed level (.node left operation right) with
      | some _ => .closed
      | none => .node (visitor.fold (level + 1) left) (visitor.fold (level + 1) right)
  answer := visitor.fold level tree

section
variable {visitor : Visitor Result} {left right : Expression} {operation : Operation}
  {level : Nat} {answer : Result}

theorem fold_closed (closed : visitor.closed level (.node left operation right) = some answer) :
    visitor.fold level (.node left operation right) = answer := by
  simp only [fold, closed]

theorem fold_opened (opened : visitor.closed level (.node left operation right) = none) :
    visitor.fold level (.node left operation right) =
      visitor.node level left operation right (visitor.fold (level + 1) left)
        (visitor.fold (level + 1) right) := by
  simp only [fold, opened]

theorem callAt_closed (closed : visitor.closed level (.node left operation right) = some answer) :
    visitor.callAt level (.node left operation right) =
      ⟨.node left operation right, level, .closed, answer⟩ := by
  simp only [callAt, closed, fold_closed closed]

theorem callAt_opened (opened : visitor.closed level (.node left operation right) = none) :
    visitor.callAt level (.node left operation right) =
      ⟨.node left operation right, level,
        .node (visitor.fold (level + 1) left) (visitor.fold (level + 1) right),
        visitor.node level left operation right (visitor.fold (level + 1) left)
          (visitor.fold (level + 1) right)⟩ := by
  simp only [callAt, opened, fold_opened opened]

end

/-! ### Steps -/

/-- A walk between two steps: the level that the visitor is at, the tasks that are left, the first
one to be done next, the results so far, the latest one first, and the calls so far in their
order. -/
structure Walk (Result : Type) where
  level : Nat
  tasks : List Task
  results : List Result
  calls : List (Call Result)

/-- The beginning of a walk over a tree, with the visitor at whatever level it was left. -/
def Walk.start (level : Nat) (tree : Expression) : Walk Result :=
  ⟨level, [.visit tree 0], [], []⟩

def Task.level : Task → Nat
  | .visit _ level => level
  | .finish _ _ _ level => level

/-- A method has been called at the level of the visitor, and its answer is the latest result. -/
def Walk.called (walk : Walk Result) (tree : Expression) (method : Method Result)
    (answer : Result) : Walk Result :=
  { walk with
    results := answer :: walk.results
    calls := walk.calls ++ [⟨tree, walk.level, method, answer⟩] }

/-- Does a task that has been taken. A node cannot be finished without two results. -/
def perform (visitor : Visitor Result) (walk : Walk Result) : Task → Option (Walk Result)
  | .visit (.leaf value) _ =>
    some (walk.called (.leaf value) .leaf (visitor.leaf walk.level value))
  | .visit (.node left operation right) level =>
    match visitor.closed level (.node left operation right) with
    | some answer => some (walk.called (.node left operation right) .closed answer)
    | none =>
      some { walk with
        tasks := .visit left (level + 1) :: .visit right (level + 1) ::
          .finish left operation right level :: walk.tasks }
  | .finish left operation right _ =>
    match walk.results with
    | second :: first :: results =>
      some (({ walk with results } : Walk Result).called (.node left operation right)
        (.node first second) (visitor.node walk.level left operation right first second))
    | _ => none

/-- One step of a walk. There is none without a task. -/
def step (visitor : Visitor Result) (walk : Walk Result) : Option (Walk Result) :=
  match walk.tasks with
  | [] => none
  | task :: tasks => visitor.perform { walk with level := task.level, tasks } task

/-- A walk after so many steps. -/
def after (visitor : Visitor Result) : Nat → Walk Result → Option (Walk Result)
  | 0, walk => some walk
  | count + 1, walk => (visitor.step walk).bind (visitor.after count)

section
variable {visitor : Visitor Result} {walk further : Walk Result}

theorem after_succ (stepped : visitor.step walk = some further) (count : Nat) :
    visitor.after (count + 1) walk = visitor.after count further := by
  rw [after, stepped, Option.bind_some]

theorem after_add (first second : Nat) (walk : Walk Result) :
    visitor.after (first + second) walk =
      (visitor.after first walk).bind (visitor.after second) := by
  induction first generalizing walk with
  | zero => rw [Nat.zero_add, after, Option.bind_some]
  | succ first inductionHypothesis =>
    rw [Nat.succ_add, after, after, Option.bind_assoc]
    exact congrArg _ (funext inductionHypothesis)

theorem tasks_ne_nil_of_step (stepped : visitor.step walk = some further) : walk.tasks ≠ [] := by
  intro ended
  simp [step, ended] at stepped

/-- Before the last step there is another to be made. -/
theorem exists_step_of_after {count earlier : Nat}
    (reached : visitor.after count walk = some further) (before : earlier < count) :
    ∃ between next, visitor.after earlier walk = some between ∧
      visitor.step between = some next := by
  obtain ⟨left, rfl⟩ := Nat.exists_eq_add_of_lt before
  rw [Nat.add_assoc, after_add] at reached
  obtain ⟨between, there, onward⟩ := Option.bind_eq_some_iff.mp reached
  obtain ⟨next, stepped, _⟩ := Option.bind_eq_some_iff.mp onward
  exact ⟨between, next, there, stepped⟩

end

section
variable {visitor : Visitor Result} {left right : Expression} {operation : Operation}
  {level : Nat} {answer : Result} (here : Nat) (tasks : List Task) (results : List Result)
  (calls : List (Call Result))

theorem step_leaf (value : Float) :
    visitor.step ⟨here, .visit (.leaf value) level :: tasks, results, calls⟩ =
      some ⟨level, tasks, visitor.leaf level value :: results,
        calls ++ [visitor.callAt level (.leaf value)]⟩ := rfl

theorem step_closed (closed : visitor.closed level (.node left operation right) = some answer) :
    visitor.step ⟨here, .visit (.node left operation right) level :: tasks, results, calls⟩ =
      some ⟨level, tasks, answer :: results,
        calls ++ [⟨.node left operation right, level, .closed, answer⟩]⟩ := by
  simp only [step, perform, closed, Walk.called, Task.level]

theorem step_opened (opened : visitor.closed level (.node left operation right) = none) :
    visitor.step ⟨here, .visit (.node left operation right) level :: tasks, results, calls⟩ =
      some ⟨level, .visit left (level + 1) :: .visit right (level + 1) ::
        .finish left operation right level :: tasks, results, calls⟩ := by
  simp only [step, perform, opened, Task.level]

theorem step_finish (first second : Result) :
    visitor.step ⟨here, .finish left operation right level :: tasks, second :: first :: results,
        calls⟩ =
      some ⟨level, tasks, visitor.node level left operation right first second :: results,
        calls ++ [⟨.node left operation right, level, .node first second,
          visitor.node level left operation right first second⟩]⟩ := rfl

/-- There is no step where the results are missing that a node is to be finished with. -/
theorem step_eq_none_of_finish
    (few : ∀ second first rest, results = second :: first :: rest → False) :
    visitor.step ⟨here, .finish left operation right level :: tasks, results, calls⟩ = none := by
  match results with
  | [] => rfl
  | [only] => rfl
  | second :: first :: rest => exact absurd rfl (few second first rest)

end

/-! ### The run -/

/-- The steps come to an end, with these results. -/
def Walk.Ends (visitor : Visitor Result) (walk : Walk Result) (results : List Result) : Prop :=
  ∃ count level calls, visitor.after count walk = some ⟨level, [], results, calls⟩

section
variable {visitor : Visitor Result} {walk further : Walk Result} {results : List Result}

theorem Walk.Ends.of_step (stepped : visitor.step walk = some further)
    (ends : further.Ends visitor results) : walk.Ends visitor results := by
  obtain ⟨count, level, calls, reached⟩ := ends
  exact ⟨count + 1, level, calls, (after_succ stepped count).trans reached⟩

/-- The run does what a step does. -/
theorem run_of_step (stepped : visitor.step walk = some further) :
    visitor.run walk.tasks walk.results = visitor.run further.tasks further.results := by
  obtain ⟨here, tasks, held, calls⟩ := walk
  dsimp only
  fun_cases run visitor tasks held with
  | case1 => exact absurd rfl (tasks_ne_nil_of_step stepped)
  | case2 value level tasks held =>
    obtain rfl := Option.some.inj stepped
    rfl
  | case3 left operation right level tasks held answer closed =>
    rw [step_closed _ _ _ _ closed] at stepped
    obtain rfl := Option.some.inj stepped
    rfl
  | case4 left operation right level tasks held opened =>
    rw [step_opened _ _ _ _ opened] at stepped
    obtain rfl := Option.some.inj stepped
    rfl
  | case5 left operation right level tasks second first held =>
    obtain rfl := Option.some.inj stepped
    rfl
  | case6 left operation right level tasks held few =>
    rw [step_eq_none_of_finish _ _ _ _ few] at stepped
    exact absurd stepped (Option.some_ne_none further).symm

theorem run_of_after {count : Nat} (reached : visitor.after count walk = some further) :
    visitor.run walk.tasks walk.results = visitor.run further.tasks further.results := by
  induction count generalizing walk with
  | zero => rw [Option.some.inj reached]
  | succ count inductionHypothesis =>
    obtain ⟨next, stepped, onward⟩ := Option.bind_eq_some_iff.mp reached
    rw [run_of_step stepped, inductionHypothesis onward]

/-- The run has an answer if and only if the steps come to an end, and it is the results that are
there then. -/
theorem run_eq_some_iff :
    visitor.run walk.tasks walk.results = some results ↔ walk.Ends visitor results := by
  constructor
  · obtain ⟨here, tasks, held, calls⟩ := walk
    dsimp only
    fun_induction run visitor tasks held generalizing here calls with
    | case1 held =>
      rintro ⟨⟩
      exact ⟨0, here, calls, rfl⟩
    | case2 value level tasks held inductionHypothesis =>
      exact fun answered => .of_step (step_leaf ..) (inductionHypothesis _ _ answered)
    | case3 left operation right level tasks held answer closed inductionHypothesis =>
      exact fun answered => .of_step (step_closed _ _ _ _ closed) (inductionHypothesis _ _ answered)
    | case4 left operation right level tasks held opened inductionHypothesis =>
      exact fun answered => .of_step (step_opened _ _ _ _ opened) (inductionHypothesis _ _ answered)
    | case5 left operation right level tasks second first held inductionHypothesis =>
      exact fun answered => .of_step (step_finish ..) (inductionHypothesis _ _ answered)
    | case6 => exact fun answered => absurd answered.symm (Option.some_ne_none results)
  · rintro ⟨count, level, calls, reached⟩
    rw [run_of_after reached, run]

end

/-! ### Places -/

/-- A place of a tree: the path that leads to it, and the part that lies there. -/
structure Place where
  path : List Turn
  part : Expression

/-- A place of an operand as a place of the node. -/
def Place.under (turn : Turn) (place : Place) : Place :=
  { place with path := turn :: place.path }

/-- The places of a tree at a level that a visitor calls a method for, in the order of the calls:
those in the left operand, those in the right operand, and the node behind them; and none in the
operands of a node that is not opened. -/
def places (visitor : Visitor Result) (level : Nat) : Expression → List Place
  | .leaf value => [⟨[], .leaf value⟩]
  | .node left operation right =>
    match visitor.closed level (.node left operation right) with
    | some _ => [⟨[], .node left operation right⟩]
    | none =>
      (visitor.places (level + 1) left).map (Place.under .left) ++
        ((visitor.places (level + 1) right).map (Place.under .right) ++
          [⟨[], .node left operation right⟩])

/-- How many steps the walk over a tree at a level takes: one for each place, and one more for each
node that is opened. -/
def steps (visitor : Visitor Result) (level : Nat) : Expression → Nat
  | .leaf _ => 1
  | .node left operation right =>
    match visitor.closed level (.node left operation right) with
    | some _ => 1
    | none => visitor.steps (level + 1) left + (visitor.steps (level + 1) right + 1) + 1

section
variable {visitor : Visitor Result} {left right : Expression} {operation : Operation}
  {level : Nat} {answer : Result}

theorem places_closed (closed : visitor.closed level (.node left operation right) = some answer) :
    visitor.places level (.node left operation right) = [⟨[], .node left operation right⟩] := by
  simp only [places, closed]

theorem places_opened (opened : visitor.closed level (.node left operation right) = none) :
    visitor.places level (.node left operation right) =
      (visitor.places (level + 1) left).map (Place.under .left) ++
        ((visitor.places (level + 1) right).map (Place.under .right) ++
          [⟨[], .node left operation right⟩]) := by
  simp only [places, opened]

theorem steps_closed (closed : visitor.closed level (.node left operation right) = some answer) :
    visitor.steps level (.node left operation right) = 1 := by
  simp only [steps, closed]

theorem steps_opened (opened : visitor.closed level (.node left operation right) = none) :
    visitor.steps level (.node left operation right) =
      visitor.steps (level + 1) left + (visitor.steps (level + 1) right + 1) + 1 := by
  simp only [steps, opened]

end

theorem steps_le (visitor : Visitor Result) (level : Nat) (tree : Expression) :
    visitor.steps level tree ≤ 2 * tree.size := by
  induction tree generalizing level with
  | leaf value =>
    rw [steps, Tree.size]
    omega
  | node left operation right leftHypothesis rightHypothesis =>
    rw [Tree.size]
    cases closed : visitor.closed level (.node left operation right) with
    | some answer =>
      rw [steps_closed closed]
      omega
    | none =>
      have onLeft := leftHypothesis (level + 1)
      have onRight := rightHypothesis (level + 1)
      rw [steps_opened closed]
      omega

/-! ### The calls of a walk -/

/-- The call for a place of a tree at a level. -/
def callFor (visitor : Visitor Result) (level : Nat) (place : Place) : Call Result :=
  visitor.callAt (level + place.path.length) place.part

theorem map_callFor_under (visitor : Visitor Result) (level : Nat) (turn : Turn)
    (places : List Place) :
    (places.map (Place.under turn)).map (visitor.callFor level) =
      places.map (visitor.callFor (level + 1)) := by
  rw [List.map_map]
  refine List.map_congr_left fun place _ => ?_
  show visitor.callAt (level + (place.path.length + 1)) place.part = _
  rw [callFor, Nat.add_right_comm, Nat.add_assoc]

/-- The steps for one tree, whatever else there is. The induction is on the tree: the steps for an
operand are followed by those for the tasks behind it. -/
theorem after_visit (visitor : Visitor Result) (tree : Expression) (level here : Nat)
    (tasks : List Task) (results : List Result) (calls : List (Call Result)) (count : Nat) :
    visitor.after (visitor.steps level tree + count)
        ⟨here, .visit tree level :: tasks, results, calls⟩ =
      visitor.after count ⟨level, tasks, visitor.fold level tree :: results,
        calls ++ (visitor.places level tree).map (visitor.callFor level)⟩ := by
  induction tree generalizing level here tasks results calls count with
  | leaf value =>
    rw [steps, Nat.add_comm, after_succ (step_leaf ..)]
    rfl
  | node left operation right leftHypothesis rightHypothesis =>
    cases closed : visitor.closed level (.node left operation right) with
    | some answer =>
      rw [steps_closed closed, Nat.add_comm, after_succ (step_closed _ _ _ _ closed),
        ← callAt_closed closed, places_closed closed, fold_closed closed]
      rfl
    | none =>
      have inParts : visitor.steps level (.node left operation right) + count =
          visitor.steps (level + 1) left + (visitor.steps (level + 1) right + (count + 1)) + 1 := by
        rw [steps_opened closed]
        omega
      -- The node takes away the two results that its operands have left on top.
      rw [inParts, after_succ (step_opened _ _ _ _ closed), leftHypothesis, rightHypothesis,
        after_succ (step_finish ..), ← callAt_opened closed, ← fold_opened closed,
        places_opened closed, List.map_append, List.map_append, map_callFor_under,
        map_callFor_under]
      simp only [List.append_assoc]
      rfl

/-! ### Which places there are, and in which order -/

/-- A visitor comes to a place of a tree at a level: it is a place of the tree, and each node above
it is opened. -/
def Reaches (visitor : Visitor Result) (level : Nat) (tree : Expression) (place : Place) : Prop :=
  tree.follow place.path = some place.part ∧
    ∀ path part, path <+: place.path → path ≠ place.path → tree.follow path = some part →
      visitor.closed (level + path.length) part = none

/-- The first of two places is done before the second: it lies below the second, or to the left of
it. -/
def Place.Before (first second : Place) : Prop :=
  (second.path <+: first.path ∧ second.path ≠ first.path) ∨ LeftOf first.path second.path

section
variable {visitor : Visitor Result} {level : Nat}

theorem reaches_nil {tree part : Expression} :
    visitor.Reaches level tree ⟨[], part⟩ ↔ part = tree := by
  constructor
  · rintro ⟨found, _⟩
    rw [Tree.follow_nil] at found
    exact (Option.some.inj found).symm
  · rintro rfl
    exact ⟨Tree.follow_nil part, fun path _ lies other => absurd (List.prefix_nil.mp lies) other⟩

/-- The places in an operand are those of the operand one level further down, if the node is
opened. -/
theorem reaches_cons {left right operand part : Expression} {operation : Operation} {turn : Turn}
    {path : List Turn}
    (leads : ∀ path, (Tree.node left operation right).follow (turn :: path) = operand.follow path) :
    visitor.Reaches level (.node left operation right) ⟨turn :: path, part⟩ ↔
      visitor.closed level (.node left operation right) = none ∧
        visitor.Reaches (level + 1) operand ⟨path, part⟩ := by
  constructor
  · rintro ⟨found, opened⟩
    refine ⟨opened [] _ List.nil_prefix (List.cons_ne_nil turn path).symm (Tree.follow_nil _),
      (leads path).symm.trans found, fun above between lies other there => ?_⟩
    have below := opened (turn :: above) between (List.cons_prefix_cons.mpr ⟨rfl, lies⟩)
      (by simpa using other) ((leads above).trans there)
    rwa [List.length_cons, Nat.add_comm above.length, ← Nat.add_assoc] at below
  · rintro ⟨here, found, opened⟩
    refine ⟨(leads path).trans found, fun above between lies other there => ?_⟩
    cases above with
    | nil =>
      rw [Tree.follow_nil] at there
      obtain rfl := Option.some.inj there
      exact here
    | cons next above =>
      obtain ⟨rfl, within⟩ := List.cons_prefix_cons.mp lies
      have below := opened above between within (by simpa using other)
        ((leads above).symm.trans there)
      rwa [List.length_cons, Nat.add_comm above.length, ← Nat.add_assoc]

theorem nil_notMem_map_under (places : List Place) (turn : Turn) (part : Expression) :
    (⟨[], part⟩ : Place) ∉ places.map (Place.under turn) := by
  simp [Place.under]

theorem cons_mem_map_under {places : List Place} {turn next : Turn} {path : List Turn}
    {part : Expression} :
    (⟨next :: path, part⟩ : Place) ∈ places.map (Place.under turn) ↔
      turn = next ∧ (⟨path, part⟩ : Place) ∈ places := by
  constructor
  · intro member
    obtain ⟨place, inOperand, same⟩ := List.mem_map.mp member
    obtain ⟨⟨rfl, rfl⟩, rfl⟩ : (turn = next ∧ place.path = path) ∧ place.part = part := by
      simpa [Place.under] using same
    exact ⟨rfl, inOperand⟩
  · rintro ⟨rfl, member⟩
    exact List.mem_map.mpr ⟨_, member, rfl⟩

/-- The visitor calls a method for all places that it comes to, and for no others. -/
theorem mem_places_iff {tree : Expression} {place : Place} :
    place ∈ visitor.places level tree ↔ visitor.Reaches level tree place := by
  obtain ⟨path, part⟩ := place
  induction tree generalizing level path with
  | leaf value =>
    cases path with
    | nil => simp [places, reaches_nil]
    | cons turn path => simp [places, Reaches, Tree.follow]
  | node left operation right leftHypothesis rightHypothesis =>
    cases closed : visitor.closed level (.node left operation right) with
    | some answer =>
      rw [places_closed closed]
      cases path with
      | nil => simp [reaches_nil]
      | cons turn path =>
        -- The root is above every other place.
        refine iff_of_false (by simp) fun reaches => ?_
        have opened := reaches.2 [] _ List.nil_prefix (List.cons_ne_nil turn path).symm
          (Tree.follow_nil _)
        rw [List.length_nil, Nat.add_zero, closed] at opened
        exact Option.some_ne_none answer opened
    | none =>
      rw [places_opened closed, List.mem_append, List.mem_append, List.mem_singleton]
      cases path with
      | nil => simp [nil_notMem_map_under, reaches_nil]
      | cons turn path =>
        cases turn with
        | left =>
          rw [reaches_cons fun _ => rfl, cons_mem_map_under, cons_mem_map_under, leftHypothesis]
          simp [closed]
        | right =>
          rw [reaches_cons fun _ => rfl, cons_mem_map_under, cons_mem_map_under, rightHypothesis]
          simp [closed]

end

theorem Place.Before.under {first second : Place} (before : first.Before second) (turn : Turn) :
    (first.under turn).Before (second.under turn) := by
  rcases before with ⟨above, other⟩ | leftOf
  · exact .inl ⟨List.cons_prefix_cons.mpr ⟨rfl, above⟩, by simpa [Place.under] using other⟩
  · exact .inr (.deeper turn leftOf)

theorem pairwise_under {places : List Place} (ordered : places.Pairwise Place.Before)
    (turn : Turn) : (places.map (Place.under turn)).Pairwise Place.Before :=
  List.pairwise_map.mpr (ordered.imp fun before => before.under turn)

/-- Of any two places the first is done before the second. -/
theorem pairwise_places (visitor : Visitor Result) (level : Nat) (tree : Expression) :
    (visitor.places level tree).Pairwise Place.Before := by
  induction tree generalizing level with
  | leaf value => exact List.pairwise_singleton _ _
  | node left operation right leftHypothesis rightHypothesis =>
    cases closed : visitor.closed level (.node left operation right) with
    | some answer =>
      rw [places_closed closed]
      exact List.pairwise_singleton _ _
    | none =>
      have behind (turn : Turn) (place : Place) :
          (place.under turn).Before ⟨[], .node left operation right⟩ :=
        .inl ⟨List.nil_prefix, (List.cons_ne_nil turn place.path).symm⟩
      rw [places_opened closed, List.pairwise_append, List.pairwise_append]
      refine ⟨pairwise_under (leftHypothesis (level + 1)) .left,
        ⟨pairwise_under (rightHypothesis (level + 1)) .right, List.pairwise_singleton _ _, ?_⟩, ?_⟩
      · intro first inRight second last
        obtain ⟨first, _, rfl⟩ := List.mem_map.mp inRight
        obtain rfl := List.mem_singleton.mp last
        exact behind .right first
      · intro first inLeft second later
        obtain ⟨first, _, rfl⟩ := List.mem_map.mp inLeft
        rcases List.mem_append.mp later with inRight | last
        · obtain ⟨second, _, rfl⟩ := List.mem_map.mp inRight
          exact .inr (.here first.path second.path)
        · obtain rfl := List.mem_singleton.mp last
          exact behind .left first

/-- In `(1 + 2) * 3` the sum is done before the last number, and the product at the end. -/
example : (rendering.places 0 (.node (.node (.leaf 1) Operator.sum.operation (.leaf 2))
    Operator.product.operation (.leaf 3))).map Place.path =
    [[.left, .left], [.left, .right], [.left], [.right], []] := rfl

/-! ### The walk -/

/-- What is known of a walk over a tree and its result. The result is that of the recursion.
Whatever level the visitor was left at, no step is missing until no task is left, and then there is
one result. A method is called once for each place that the visitor comes to, an operand before its
node, with what the recursion has there, and the visitor is at the level that is the length of the
path. -/
structure Walks (visitor : Visitor Result) (tree : Expression) (result : Result) : Prop where
  answer : visitor.walk tree = result
  recursion : visitor.fold 0 tree = result
  ends : ∀ level, ∃ count ≤ 2 * tree.size,
    visitor.after count (.start level tree) =
      some ⟨0, [], [result], (visitor.places 0 tree).map fun place =>
        visitor.callAt place.path.length place.part⟩ ∧
    ∀ earlier < count, ∃ walk next, visitor.after earlier (.start level tree) = some walk ∧
      walk.tasks ≠ [] ∧ visitor.step walk = some next ∧
      visitor.run walk.tasks walk.results = some [result]
  handled : ∀ place, place ∈ visitor.places 0 tree ↔ visitor.Reaches 0 tree place
  ordered : (visitor.places 0 tree).Pairwise Place.Before

theorem after_start (visitor : Visitor Result) (level : Nat) (tree : Expression) :
    visitor.after (visitor.steps 0 tree) (.start level tree) =
      some ⟨0, [], [visitor.walk tree], (visitor.places 0 tree).map fun place =>
        visitor.callAt place.path.length place.part⟩ := by
  have reached := visitor.after_visit tree 0 level [] [] [] 0
  have fromRoot : visitor.callFor 0 = fun place =>
      visitor.callAt place.path.length place.part := by
    funext place
    rw [callFor, Nat.zero_add]
  rw [Nat.add_zero, after, List.nil_append, fromRoot] at reached
  rw [Walk.start, reached, walk_eq_fold]

theorem walks_walk (visitor : Visitor Result) (tree : Expression) :
    visitor.Walks tree (visitor.walk tree) where
  answer := rfl
  recursion := (visitor.walk_eq_fold tree).symm
  ends level := by
    have reached := visitor.after_start level tree
    refine ⟨visitor.steps 0 tree, visitor.steps_le 0 tree, reached, fun earlier before => ?_⟩
    obtain ⟨walk, next, there, stepped⟩ := exists_step_of_after reached before
    refine ⟨walk, next, there, tasks_ne_nil_of_step stepped, stepped, ?_⟩
    rw [← run_of_after there]
    exact run_eq_some_iff.mpr ⟨_, _, _, reached⟩
  handled _ := mem_places_iff
  ordered := visitor.pairwise_places 0 tree

/-- The value of a tree, its expression, each stage of its reduction and its data are results of
walks, and each of these walks goes as the recursion says. -/
theorem walks_are_folds (tree : Expression) :
    evaluation.Walks tree tree.evaluate ∧
    rendering.Walks tree tree.render ∧
    (∀ resolved, (reduction resolved).Walks tree (tree.resolve resolved)) ∧
    exchange.Walks tree tree.toData :=
  ⟨evaluation.walks_walk tree, rendering.walks_walk tree,
    fun resolved => (reduction resolved).walks_walk tree, exchange.walks_walk tree⟩

end Reckon.Visitor
