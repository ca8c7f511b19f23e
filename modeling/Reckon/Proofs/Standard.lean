/-
This file says that the library of the project keeps what a library promises,
and that its writer of documents writes every tree over the four operators.

The arguments of a call are sorted from the front: the option of the program is
taken, the name of the action ends it, the option of the action is taken, and
the two dashes leave the rest as it is.
-/

import Mathlib
import Reckon.CommandLine.Standard
import Reckon.Proofs.Exchange
import Reckon.Tree.Document

namespace Reckon

namespace CommandLine

/-! ### Sorting -/

theorem sortArguments_dashes (option : Option String) (mixed : Bool) (rest : List String) :
    sortArguments option mixed ("--" :: rest) = .ok ⟨none, rest⟩ := by
  rw [sortArguments, if_pos (by decide)]

/-- An operand ends the options where operands do not mix with them. -/
theorem sortArguments_operand (option : Option String) {name : String}
    (named : name.toList.head? ≠ some '-') (rest : List String) :
    sortArguments option false (name :: rest) = .ok ⟨none, name :: rest⟩ := by
  have noDashes : (name == "--") = false := by
    rw [beq_eq_false_iff_ne]
    rintro rfl
    exact named (by decide)
  have noOption : isOption name.toList = false := by
    rw [isOption, beq_eq_false_iff_ne.mpr named, Bool.false_and]
  rw [sortArguments, noDashes, noOption]
  rfl

/-- An option takes the argument behind it. -/
theorem sortArguments_option {name : String} (named : IsOptionName name) (mixed : Bool)
    (value : String) (rest : List String) :
    sortArguments (some name) mixed (name :: value :: rest) =
      (sortArguments (some name) mixed rest).map (Arguments.precede value) := by
  obtain ⟨dashes, long, whole⟩ := named
  have noDashes : (name == "--") = false := by
    rw [beq_eq_false_iff_ne]
    rintro rfl
    exact absurd long (by decide)
  have first : name.toList.head? = some '-' := by
    simpa [List.head?_take] using congrArg List.head? dashes
  have option : isOption name.toList = true := by
    simp only [isOption, first, beq_self_eq_true, Bool.true_and, decide_eq_true_eq]
    omega
  have all : ∀ char ∈ name.toList, (char != '=') = true := by
    intro char member
    rw [bne_iff_ne]
    rintro rfl
    exact whole member
  have spelled : String.ofList (name.toList.takeWhile (· != '=')) = name := by
    rw [List.takeWhile_eq_self_iff.mpr all, String.ofList_toList]
  have detached : name.toList.dropWhile (· != '=') = [] := List.dropWhile_eq_nil_iff.mpr all
  rw [sortArguments, noDashes, option]
  simp only [spelled, detached, bne_self_eq_false, Bool.false_eq_true, if_false, if_true]

/-- Arguments that give an option its value leave the operands to what follows. -/
theorem sortArguments_picks {flag : Option Flag} {arguments rest operands : List String}
    {picked : Picked flag} (picks : Framework.standard.Picks flag arguments picked) {mixed : Bool}
    (sorted : sortArguments (flag.map Flag.name) mixed rest = .ok ⟨none, operands⟩) :
    ∃ given, sortArguments (flag.map Flag.name) mixed (arguments ++ rest) =
        .ok ⟨given, operands⟩ ∧ pick flag given = .ok picked := by
  cases picks with
  | nothing => exact ⟨none, sorted, rfl⟩
  | default flag => exact ⟨none, sorted, rfl⟩
  | @given flag text value takes =>
    refine ⟨some text, (sortArguments_option flag.named mixed text rest).trans ?_, ?_⟩
    · rw [Option.map_some] at sorted
      rw [sorted]
      rfl
    · rw [pick, show valueOf? flag.kind text = some value from takes]

/-! ### Values -/

theorem takeValues_eq (kinds : List Kind) (operands : List String) :
    Framework.standard.values? kinds operands = (takeValues kinds operands).toOption := by
  induction kinds generalizing operands with
  | nil => cases operands <;> rfl
  | cons kind kinds inductionHypothesis =>
    cases operands with
    | nil => rfl
    | cons text operands =>
      rw [Framework.values?, inductionHypothesis, takeValues]
      show ((valueOf? kind text).bind fun value =>
        (takeValues kinds operands).toOption.bind fun values => some (value, values)) = _
      cases valueOf? kind text with
      | none => rfl
      | some value => cases takeValues kinds operands <;> rfl

/-! ### Calls -/

section
variable {Context : Type} {program : Program Context} {action : Action Context}

theorem Program.find_name (member : action ∈ program.actions) (rest : List String) :
    program.find (action.name :: rest) = .ok (action, rest) := by
  have some : (program.actions.find? (·.name == action.name)).isSome := by
    rw [List.find?_isSome]
    exact ⟨action, member, beq_self_eq_true action.name⟩
  obtain ⟨found, isFound⟩ := Option.isSome_iff_exists.mp some
  have named : found.name = action.name := by simpa using List.find?_some isFound
  have same := List.inj_on_of_nodup_map program.distinct (List.mem_of_find?_eq_some isFound)
    member named
  rw [find, isFound, same]

/-- A run whose action gets its operands prints what the callbacks print, or what is wrong with the
operands. -/
theorem standard_run {chosen : Option program.flag.kind.Value} {picked : Picked action.flag}
    {operands arguments : List String} {context : Context}
    (calls : Framework.standard.Calls program action chosen picked operands arguments)
    (returned : (program.enter chosen).ending = .returned context) :
    Framework.standard.run program arguments =
      (program.enter chosen).precede (outputOf
        ((takeValues action.kinds operands).map (Outcome.output ∘ action.call context picked))) := by
  obtain @⟨before, between, member, first, second⟩ := calls
  obtain ⟨given, sorted, isChosen⟩ := sortArguments_picks first
    (sortArguments_operand (some program.flag.name) action.named (between ++ "--" :: operands))
  obtain ⟨given', sorted', isPicked⟩ := sortArguments_picks second
    (sortArguments_dashes (action.flag.map Flag.name) true operands)
  have answered : action.answer context (between ++ "--" :: operands) =
      (takeValues action.kinds operands).map (action.call context picked) := by
    rw [Action.answer, sorted']
    simp only [Bind.bind, Except.bind, isPicked]
    rfl
  have started : program.start (before ++ action.name :: (between ++ "--" :: operands)) =
      .ok ((program.enter chosen).precede (outputOf
        ((action.answer context (between ++ "--" :: operands)).map Outcome.output))) := by
    rw [Program.start, show sortArguments (some program.flag.name) false _ = _ from sorted]
    simp only [Bind.bind, Except.bind, isChosen, program.find_name member, returned]
    rfl
  refine (congrArg outputOf started).trans ?_
  rw [answered, outputOf]
  cases takeValues action.kinds operands <;> rfl

end

/-- The library keeps what it promises. -/
theorem standard_conforms : Framework.standard.Conforms where
  takesText _ := rfl
  takesWhole least text value := by
    show (Text.integer? text).filter (least ≤ ·) = some value ↔ _
    simp [Option.filter_eq_some_iff]
  takesWord words word member := if_pos member
  answers := by
    intro _ program action chosen picked operands _ context values code calls returned taken ended
    rw [takeValues_eq] at taken
    rw [standard_run calls returned]
    cases outcome : takeValues action.kinds operands with
    | error error => simp [outcome, Except.toOption] at taken
    | ok found =>
      obtain rfl : found = values := by simpa [outcome, Except.toOption] using taken
      simp only [Except.map, Function.comp, outputOf, Outcome.precede, Outcome.output,
        Ending.exitCode, ended, Option.getD_some]
  misused := by
    intro _ program action chosen picked operands _ context calls returned untaken
    rw [takeValues_eq] at untaken
    rw [standard_run calls returned]
    cases outcome : takeValues action.kinds operands with
    | error error => rfl
    | ok found => simp [outcome, Except.toOption] at untaken

end CommandLine

/-! ### Documents -/

/-- The data of every tree over the four operators can be written, however deep its mappings are. -/
def Serializer.WritesTrees (serializer : Serializer) : Prop :=
  ∀ (format : DocumentFormat) (formula : Formula),
    ∃ text, serializer format formula.tree.toData = some text

namespace Document

theorem exists_yamlLines (formula : Formula) (margin : String) :
    ∃ lines, yamlLines margin formula.tree.toData = some lines := by
  induction formula generalizing margin with
  | leaf value =>
    rw [Formula.tree, Tree.toData_leaf]
    exact ⟨_, rfl⟩
  | node left operator right leftHypothesis rightHypothesis =>
    obtain ⟨leftLines, onLeft⟩ := leftHypothesis (deeper margin)
    obtain ⟨rightLines, onRight⟩ := rightHypothesis (deeper margin)
    have symbol := operator.ofSymbol?_symbol
    rw [Formula.tree, Tree.toData_node]
    simp [yamlLines, yamlEntries, onLeft, onRight, Operator.operation, symbol]

theorem exists_jsonLines (formula : Formula) (margin after : String) :
    ∃ lines, jsonLines margin after formula.tree.toData = some lines := by
  induction formula generalizing margin after with
  | leaf value =>
    rw [Formula.tree, Tree.toData_leaf]
    exact ⟨_, rfl⟩
  | node left operator right leftHypothesis rightHypothesis =>
    obtain ⟨leftLines, onLeft⟩ := leftHypothesis (deeper margin) ","
    obtain ⟨rightLines, onRight⟩ := rightHypothesis (deeper margin) ""
    have symbol := operator.ofSymbol?_symbol
    rw [Formula.tree, Tree.toData_node]
    simp [jsonLines, jsonEntries, onLeft, onRight, Operator.operation, symbol]

/-- The writer of documents writes trees. -/
theorem write_writesTrees : Serializer.WritesTrees write := by
  intro format formula
  cases format with
  | yaml =>
    obtain ⟨lines, written⟩ := exists_yamlLines formula ""
    exact ⟨_, by rw [write, written]; rfl⟩
  | json =>
    obtain ⟨lines, written⟩ := exists_jsonLines formula "" ""
    exact ⟨_, by rw [write, written]; rfl⟩

end Document

end Reckon
