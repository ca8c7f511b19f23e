/-
This file says what any run of configurations leaves. Of the calls that return,
the last decides on the threshold of the package, and the first on the threshold
of the root and on its one handler. A call that raises changes nothing.

`Setup` has what the loggers have, and knows of each handler which call attached
it. A call is taken apart into its steps, so that an error could come after a
step that has been made; that it never does is part of what is shown. The steps
together are `Loggers.configure`.
-/

import Mathlib.Data.List.Induction
import Reckon.Journal

namespace Reckon.Journal

/-! ### The level of a threshold -/

theorem lookup_of_mem : ∀ entry ∈ levelNames, levelNames.lookup entry.1 = some entry.2 := by
  decide

theorem levelNamed?_eq_some_iff {name : String} {level : Int} :
    levelNamed? name = some level ↔ (Text.upper name, level) ∈ levelNames := by
  constructor
  · intro known
    obtain ⟨before, behind, parts, _⟩ := List.lookup_eq_some_iff.mp known
    rw [parts]
    simp
  · exact lookup_of_mem _

/-- The level that a threshold stands for. -/
inductive Threshold.Means : Threshold → Int → Prop
  | numbered (level : Int) : Means (.numbered level) level
  | named {name : String} {level : Int} (known : (Text.upper name, level) ∈ levelNames) :
    Means (.named name) level

theorem Threshold.resolve_of_known {name : String} {level : Int}
    (known : (Text.upper name, level) ∈ levelNames) :
    (Threshold.named name).resolve = .ok level := by
  rw [resolve, levelNamed?_eq_some_iff.mpr known]

theorem Threshold.resolve_of_unknown {name : String}
    (unknown : ∀ level, (Text.upper name, level) ∉ levelNames) :
    (Threshold.named name).resolve = .error (.unknownLevel name) := by
  have noLevel : levelNamed? name = none :=
    Option.eq_none_iff_forall_ne_some.mpr fun level known =>
      unknown level (levelNamed?_eq_some_iff.mp known)
  rw [resolve, noLevel]

theorem Threshold.resolve_eq_ok_iff {threshold : Threshold} {level : Int} :
    threshold.resolve = .ok level ↔ threshold.Means level := by
  constructor
  · intro resolved
    cases threshold with
    | numbered number =>
      obtain rfl := Except.ok.inj resolved
      exact .numbered number
    | named name =>
      refine .named (levelNamed?_eq_some_iff.mp ?_)
      cases found : levelNamed? name with
      | none => simp [resolve, found] at resolved
      | some other => simpa [resolve, found] using resolved
  · intro means
    cases means with
    | numbered => rfl
    | named known => exact resolve_of_known known

/-- Only a name that no level has is refused. -/
theorem Threshold.resolve_eq_error_iff {threshold : Threshold} {error : ConfigurationError} :
    threshold.resolve = .error error ↔ ∃ name, threshold = .named name ∧
      (∀ level, (Text.upper name, level) ∉ levelNames) ∧ error = .unknownLevel name := by
  constructor
  · intro refused
    cases threshold with
    | numbered number => simp [resolve] at refused
    | named name =>
      have unknown (level : Int) : (Text.upper name, level) ∉ levelNames := fun known => by
        simp [resolve_of_known known] at refused
      rw [resolve_of_unknown unknown] at refused
      exact ⟨name, rfl, unknown, (Except.error.inj refused).symm⟩
  · rintro ⟨name, rfl, unknown, rfl⟩
    exact resolve_of_unknown unknown

/-! ### Calls step by step -/

/-- The thresholds of the package and of the root, and the handlers of the root, each under the
number of the call that attached it. -/
structure Setup where
  package : Int
  root : Int
  handlers : List Nat

namespace Setup

/-- The loggers without the numbers. -/
def loggers (setup : Setup) : Loggers :=
  ⟨setup.package, setup.root, setup.handlers.length⟩

/-- Attaches a handler to the root and sets the threshold of the root, if it has no handler. -/
def setRoot (number : Nat) (level : Int) (setup : Setup) : Setup :=
  if setup.handlers = [] then { setup with root := level, handlers := [number] } else setup

def setPackage (level : Int) (setup : Setup) : Setup :=
  { setup with package := level }

/-- The steps of a configuration. A step that has been made stays made whatever comes after it. -/
def steps (number : Nat) (threshold : Threshold) :
    ExceptT ConfigurationError (StateM Setup) Unit := do
  let level ← ExceptT.mk (pure threshold.resolve)
  modify (setRoot number level)
  modify (setPackage level)

/-- What a call answers and what it leaves. -/
def call (setup : Setup) (number : Nat) (threshold : Threshold) :
    Except ConfigurationError Unit × Setup :=
  (steps number threshold).run.run setup

section
variable {setup : Setup} {number : Nat} {threshold : Threshold} {level : Int}
  {error : ConfigurationError}

theorem call_of_ok (resolved : threshold.resolve = .ok level) :
    setup.call number threshold = (.ok (), (setup.setRoot number level).setPackage level) := by
  unfold call steps
  rw [resolved]
  rfl

theorem call_of_error (refused : threshold.resolve = .error error) :
    setup.call number threshold = (.error error, setup) := by
  unfold call steps
  rw [refused]
  rfl

theorem call_eq_error_iff :
    (setup.call number threshold).1 = .error error ↔ threshold.resolve = .error error := by
  cases resolved : threshold.resolve with
  | error other => simp [call_of_error resolved]
  | ok level => simp [call_of_ok resolved]

/-- The steps of a call come to what the loggers make of it at once. -/
theorem configure_loggers (setup : Setup) (number : Nat) (threshold : Threshold) :
    setup.loggers.configure threshold =
      (setup.call number threshold).1.map fun _ => (setup.call number threshold).2.loggers := by
  unfold Loggers.configure
  cases resolved : threshold.resolve with
  | error error =>
    rw [call_of_error resolved]
    rfl
  | ok level =>
    rw [call_of_ok resolved]
    by_cases none : setup.handlers = []
    · simp [Except.map, loggers, setRoot, setPackage, none]
    · simp [Except.map, loggers, setRoot, setPackage, none]

end

/-! ### Runs -/

/-- What is left after some calls, which are numbered from zero. -/
def after (setup : Setup) (calls : List Threshold) : Setup :=
  calls.zipIdx.foldl (fun setup entry => (setup.call entry.2 entry.1).2) setup

theorem after_concat (setup : Setup) (calls : List Threshold) (threshold : Threshold) :
    setup.after (calls ++ [threshold]) =
      ((setup.after calls).call calls.length threshold).2 := by
  simp [after, List.zipIdx_append]

/-- The levels of the calls that return, in order. -/
def levels (calls : List Threshold) : List Int :=
  calls.filterMap (·.resolve.toOption)

/-- The number of the first call that returns. -/
def firstCall? (calls : List Threshold) : Option Nat :=
  calls.findIdx? (·.resolve.toOption.isSome)

theorem levels_eq_nil_iff (calls : List Threshold) :
    levels calls = [] ↔ firstCall? calls = none := by
  simp [levels, firstCall?, List.findIdx?_eq_none_iff]

/-- What some calls have left of the thresholds before them, if there was no handler. -/
structure Left (package root : Int) (calls : List Threshold) (setup : Setup) : Prop where
  package : setup.package = (levels calls).getLast?.getD package
  root : setup.root = (levels calls).head?.getD root
  handlers : setup.handlers = (firstCall? calls).toList

section
variable {package root : Int} {calls : List Threshold} {setup : Setup} {threshold : Threshold}

theorem Left.call (left : Left package root calls setup) :
    Left package root (calls ++ [threshold]) (setup.call calls.length threshold).2 := by
  cases resolved : threshold.resolve with
  | error error =>
    rw [call_of_error resolved]
    have sameLevels : levels (calls ++ [threshold]) = levels calls := by
      simp [levels, resolved, Except.toOption]
    have sameFirst : firstCall? (calls ++ [threshold]) = firstCall? calls := by
      simp [firstCall?, List.findIdx?_append, resolved, Except.toOption]
    exact ⟨sameLevels ▸ left.package, sameLevels ▸ left.root, sameFirst ▸ left.handlers⟩
  | ok level =>
    rw [call_of_ok resolved]
    have moreLevels : levels (calls ++ [threshold]) = levels calls ++ [level] := by
      simp [levels, resolved, Except.toOption]
    have orFirst :
        firstCall? (calls ++ [threshold]) = (firstCall? calls).or (some calls.length) := by
      simp [firstCall?, List.findIdx?_append, resolved, Except.toOption]
    have last : (levels (calls ++ [threshold])).getLast?.getD package = level := by
      rw [moreLevels, List.getLast?_concat]
      rfl
    -- There is a handler if and only if a call has returned before.
    cases first : firstCall? calls with
    | none =>
      have noHandler : setup.handlers = [] := by
        rw [left.handlers, first]
        rfl
      have noLevels : levels calls = [] := (levels_eq_nil_iff calls).mpr first
      rw [setRoot, if_pos noHandler]
      refine ⟨last.symm, ?_, ?_⟩
      · rw [moreLevels, noLevels]
        rfl
      · rw [orFirst, first]
        rfl
    | some number =>
      have handlers : setup.handlers = [number] := by
        rw [left.handlers, first]
        rfl
      have someLevels : levels calls ≠ [] := fun none => by
        simp [(levels_eq_nil_iff calls).mp none] at first
      rw [setRoot, if_neg (by simp [handlers])]
      refine ⟨last.symm, ?_, ?_⟩
      · rw [moreLevels, List.head?_append, Option.or_of_isSome (by simpa using someLevels)]
        exact left.root
      · rw [orFirst, first]
        exact handlers

theorem left_after (package root : Int) (calls : List Threshold) :
    Left package root calls (after ⟨package, root, []⟩ calls) := by
  induction calls using List.reverseRecOn with
  | nil => exact ⟨rfl, rfl, rfl⟩
  | append_singleton calls threshold inductionHypothesis =>
    rw [after_concat]
    exact inductionHypothesis.call

end

/-- After any calls, with no handler before them, the threshold of the package is the level of the
last one that returned, and the threshold of the root is the level of the first one that returned,
which attached the one handler. The next call raises exactly if it is given a name that in capitals
is that of no level, and then nothing has changed. -/
theorem configuration_of_calls (package root : Int) (calls : List Threshold) :
    let setup := after ⟨package, root, []⟩ calls
    setup.package = (levels calls).getLast?.getD package ∧
    setup.root = (levels calls).head?.getD root ∧
    setup.handlers = (firstCall? calls).toList ∧
    ∀ threshold,
      (∀ level, threshold.resolve = .ok level ↔ threshold.Means level) ∧
      setup.loggers.configure threshold =
        ((setup.call calls.length threshold).1.map fun _ =>
          (setup.call calls.length threshold).2.loggers) ∧
      (∀ error, (setup.call calls.length threshold).1 = .error error ↔
        ∃ name, threshold = .named name ∧ (∀ level, (Text.upper name, level) ∉ levelNames) ∧
          error = .unknownLevel name) ∧
      ∀ error, (setup.call calls.length threshold).1 = .error error →
        (setup.call calls.length threshold).2 = setup := by
  intro setup
  obtain ⟨isPackage, isRoot, isHandlers⟩ := left_after package root calls
  refine ⟨isPackage, isRoot, isHandlers, fun threshold => ⟨fun level => threshold.resolve_eq_ok_iff,
    configure_loggers setup calls.length threshold, fun error => ?_, fun error raised => ?_⟩⟩
  · rw [← Threshold.resolve_eq_error_iff]
    exact call_eq_error_iff
  · rw [call_of_error (call_eq_error_iff.mp raised)]

end Setup

end Reckon.Journal
