/-
This file says that the commands agree with one another. All questions about an
expression are answered from the one tree that the expression is read as, so
they are answered all or none; and where they are, what one command prints can
be told from what another prints, though each of them gets it in its own way.

This holds of any library that keeps what it promises, and of anything that
writes the documents of trees. The one thing asked of a command line is that the
number of a level is short enough to be read; a longer one is an error of usage,
before the expression is looked at.
-/

import Reckon.Proofs.Canonical
import Reckon.Proofs.Environment
import Reckon.Proofs.Levels
import Reckon.Proofs.Lines
import Reckon.Proofs.Stages
import Reckon.Proofs.Standard

namespace Reckon

/-! ### What is read -/

/-- The tree of a source is one over the four operators. -/
theorem exists_formula_of_parse {source : String} {limit : Int} {tree : Expression}
    (accepted : parse source limit = .ok tree) : ∃ formula : Formula, formula.tree = tree := by
  obtain ⟨_, chain, _, _, rfl, _⟩ := exists_stretch accepted
  obtain ⟨formula, same, _⟩ := chain.exists_formula
  exact ⟨formula, same⟩

/-! ### The stages -/

namespace Tree

theorem stages_eq_cons (tree : Expression) :
    tree.stages =
      tree.render ::
        ((List.range tree.height).reverse.map fun level : Nat => tree.resolve level) := by
  have count : (tree.depth + 1).toNat = tree.height + 1 := by
    rw [depth_eq_height]
    omega
  rw [stages, count, List.range_succ, List.reverse_append, List.reverse_singleton,
    List.singleton_append, List.map_cons, resolve_eq_render_cut tree tree.height,
    cut_of_height_le (Int.le_refl _)]

theorem getLast?_stages (tree : Expression) :
    tree.stages.getLast? = some (Spelling.plain tree.evaluate) := by
  have some : 0 < (tree.depth + 1).toNat := by
    rw [depth_eq_height]
    omega
  have first : (List.range (tree.depth + 1).toNat).head? = Option.some 0 := by
    rw [List.head?_range, if_neg (by omega)]
  rw [stages, List.getLast?_map, List.getLast?_reverse, first, Option.map_some,
    resolve_eq_render_cut, cut_of_nonpos (by omega), render_leaf]

end Tree

theorem onOneLine_stages (formula : Formula) : ∀ stage ∈ formula.tree.stages, OnOneLine stage := by
  intro stage member
  obtain ⟨level, _, rfl⟩ := List.mem_map.mp member
  rw [Tree.resolve_eq_render_cut, ← Formula.tree_cut]
  exact onOneLine_render _

/-- The parts of a tree over the four operators are such trees. -/
theorem Formula.forall_mem_partsAt (formula : Formula) (target : Nat) :
    ∀ part ∈ formula.tree.partsAt target, ∃ formula : Formula, formula.tree = part := by
  refine Tree.forall_mem_partsAt (fun part => ∃ formula : Formula, formula.tree = part) ?_
    ⟨formula, rfl⟩ target
  rintro left operation right ⟨formula, same⟩
  cases formula with
  | leaf value => exact absurd same (by simp [tree])
  | node leftFormula operator rightFormula =>
    obtain ⟨onLeft, _, onRight⟩ := Tree.node.inj same
    exact ⟨⟨leftFormula, onLeft⟩, ⟨rightFormula, onRight⟩⟩

namespace CommandLine

/-! ### Command lines -/

/-- The arguments that choose the level of the journal. -/
def levelArguments : Option String → List String
  | none => []
  | some name => ["--log-level", name]

/-- A command line with the expression behind two dashes. The options of the command stand in front
of the dashes, its other operands behind the expression. -/
def argumentsFor (option : Option String) (command : String) (options : List String)
    (expression : String) (operands : List String) : List String :=
  levelArguments option ++ command :: (options ++ "--" :: expression :: operands)

/-- The commands with their options and operands that ask a question. -/
inductive Asks : Question → String → List String → List String → Prop
  | eval : Asks .eval "eval" [] []
  | render : Asks .render "render" [] []
  | depth : Asks .depth "depth" [] []
  | level {operand : String} {target : Int} (reads : Text.integer? operand = some target)
    (nonnegative : 0 ≤ target) : Asks (.level target) "level" [] [operand]
  | steps : Asks .steps "steps" [] []
  | tree : Asks (.document .yaml) "tree" [] []
  | yaml : Asks (.document .yaml) "tree" ["--format", "yaml"] []
  | json : Asks (.document .json) "tree" ["--format", "json"] []

/-! ### Answers -/

section
variable {settings : Settings} {expression : String} (serializer : Serializer)
  (loggers : Journal.Loggers) (question : Question)

/-- Where there is no tree, every question is answered with what is wrong. -/
theorem answer_of_error {error : ParseError}
    (refused : parse expression settings.maxDepth = .error error) :
    ∃ shown, answer serializer (settings, loggers) expression question =
      ⟨.exited 1, "", unlines (shown ++ ["Invalid expression: " ++ error.message])⟩ := by
  rw [parse] at refused
  simp only [answer, refused]
  exact ⟨_, rfl⟩

theorem answer_of_ok {tree : Expression} {lines : List String}
    (accepted : parse expression settings.maxDepth = .ok tree)
    (written : treeLines serializer tree question = some lines) :
    ∃ shown, answer serializer (settings, loggers) expression question =
      ⟨.returned (), unlines lines, shown⟩ := by
  rw [parse] at accepted
  simp only [answer, accepted, written]
  exact ⟨_, rfl⟩

variable {serializer}

/-- Every question about a tree over the four operators has an answer. -/
theorem exists_treeLines (writes : serializer.WritesTrees) (formula : Formula) :
    ∃ lines, treeLines serializer formula.tree question = some lines := by
  cases question with
  | document format =>
    obtain ⟨text, written⟩ := writes format formula
    exact ⟨_, by rw [treeLines, written]; rfl⟩
  | _ => exact ⟨_, rfl⟩

/-- Nothing stops a command but what is wrong with the expression. -/
theorem exists_exitCode? (writes : serializer.WritesTrees) :
    ∃ code, (answer serializer (settings, loggers) expression question).ending.exitCode? =
      some code := by
  cases outcome : parse expression settings.maxDepth with
  | error error =>
    obtain ⟨_, same⟩ := answer_of_error serializer loggers question outcome
    exact ⟨1, by rw [same]; rfl⟩
  | ok tree =>
    obtain ⟨formula, rfl⟩ := exists_formula_of_parse outcome
    obtain ⟨lines, written⟩ := exists_treeLines question writes formula
    obtain ⟨_, same⟩ := answer_of_ok serializer loggers question outcome written
    exact ⟨0, by rw [same]; rfl⟩

end

/-! ### Runs -/

section
variable {framework : Framework} {serializer : Serializer} {environment : Environment}
  {option : Option String} {settings : Settings} {loggers : Journal.Loggers} {expression : String}

theorem picks_level (conforms : framework.Conforms) (option : Option String) :
    framework.Picks (some levelFlag) (levelArguments option) option := by
  cases option with
  | none => exact .default levelFlag
  | some name => exact .given levelFlag (conforms.takesText name)

theorem values?_expression (conforms : framework.Conforms) (expression : String) :
    framework.values? [.text] [expression] = some (expression, ()) := by
  simp [Framework.values?, conforms.takesText]

theorem enter_of_prepared (prepared : prepare environment option = .ok (settings, loggers)) :
    enter environment option = ⟨.returned (settings, loggers), "", ""⟩ := by
  rw [enter, prepared]

theorem calls_argumentsFor (conforms : framework.Conforms) {action : Action Session}
    (member : action ∈ actions serializer) {options : List String} {picked : Picked action.flag}
    (picks : framework.Picks action.flag options picked) (expression : String)
    (operands : List String) :
    framework.Calls (program serializer environment) action option picked
      (expression :: operands) (argumentsFor option action.name options expression operands) :=
  .intro member (picks_level conforms option) picks

/-- An action that is called prints what its callback prints. -/
theorem run_action (conforms : framework.Conforms)
    (prepared : prepare environment option = .ok (settings, loggers)) {action : Action Session}
    (member : action ∈ actions serializer) {options operands : List String}
    {picked : Picked action.flag} (picks : framework.Picks action.flag options picked)
    {values : Values action.kinds}
    (taken : framework.values? action.kinds (expression :: operands) = some values) {code : Nat}
    (ended : (action.call (settings, loggers) picked values).ending.exitCode? = some code) :
    run framework serializer environment
        (argumentsFor option action.name options expression operands) =
      (action.call (settings, loggers) picked values).output := by
  have entered : (program serializer environment).enter option = _ := enter_of_prepared prepared
  rw [run, conforms.answers (calls_argumentsFor conforms member picks expression operands)
    (congrArg Outcome.ending entered) taken ended, entered]
  simp [Outcome.output, Ending.exitCode, ended]

/-- An operand that is not taken for a value is an error of usage, whatever the expression is. -/
theorem exitCode_of_untaken (conforms : framework.Conforms)
    (prepared : prepare environment option = .ok (settings, loggers)) {action : Action Session}
    (member : action ∈ actions serializer) {options operands : List String}
    {picked : Picked action.flag} (picks : framework.Picks action.flag options picked)
    (untaken : framework.values? action.kinds (expression :: operands) = none) :
    (run framework serializer environment
      (argumentsFor option action.name options expression operands)).exitCode = 2 := by
  have entered : (program serializer environment).enter option = _ := enter_of_prepared prepared
  exact conforms.misused (calls_argumentsFor conforms member picks expression operands)
    (congrArg Outcome.ending entered) untaken

/-- What has been asked is answered. -/
theorem run_asks (conforms : framework.Conforms) (writes : serializer.WritesTrees)
    (prepared : prepare environment option = .ok (settings, loggers)) {question : Question}
    {name : String} {options operands : List String} (asks : Asks question name options operands)
    (expression : String) :
    run framework serializer environment (argumentsFor option name options expression operands) =
      (answer serializer (settings, loggers) expression question).output := by
  have bare := values?_expression conforms expression
  have asking {name : String} {question : Question} (named : name.toList.head? ≠ some '-')
      (member : asking serializer name question named ∈ actions serializer) :
      run framework serializer environment (argumentsFor option name [] expression []) =
        (answer serializer (settings, loggers) expression question).output := by
    obtain ⟨_, ended⟩ := exists_exitCode? loggers question writes
    exact run_action conforms prepared member .nothing bare ended
  have shown {format : DocumentFormat} {options : List String} {picked : Option String}
      (picks : framework.Picks (some formatFlag) options picked)
      (named : formatNamed picked = format) :
      run framework serializer environment (argumentsFor option "tree" options expression []) =
        (answer serializer (settings, loggers) expression (.document format)).output := by
    obtain rfl := named
    obtain ⟨_, ended⟩ := exists_exitCode? loggers (.document (formatNamed picked)) writes
    have member : treeAction serializer ∈ actions serializer := by simp [actions]
    exact run_action conforms prepared member picks bare ended
  cases asks with
  | eval => exact asking (by decide) (by simp [actions])
  | render => exact asking (by decide) (by simp [actions])
  | depth => exact asking (by decide) (by simp [actions])
  | steps => exact asking (by decide) (by simp [actions])
  | tree => exact shown (.default formatFlag) (by decide)
  | yaml => exact shown (.given formatFlag (conforms.takesWord _ _ (by decide))) (by decide)
  | json => exact shown (.given formatFlag (conforms.takesWord _ _ (by decide))) (by decide)
  | @level operand target reads nonnegative =>
    have whole : framework.convert (.wholeFrom 0) operand = some target :=
      (conforms.takesWhole ..).mpr ⟨reads, nonnegative⟩
    have taken : framework.values? [.text, .wholeFrom 0] [expression, operand] =
        some (expression, target, ()) := by
      simp [Framework.values?, conforms.takesText, whole]
    obtain ⟨_, ended⟩ := exists_exitCode? loggers (.level target) writes
    have member : levelAction serializer ∈ actions serializer := by simp [actions]
    exact run_action conforms prepared member .nothing taken ended

theorem run_tokens (conforms : framework.Conforms)
    (prepared : prepare environment option = .ok (settings, loggers)) (expression : String) :
    run framework serializer environment (argumentsFor option "tokens" [] expression []) =
      ⟨0, unlines (tokenLines expression), ""⟩ := by
  have member : tokensAction ∈ actions serializer := by simp [actions]
  exact run_action conforms prepared member .nothing (values?_expression conforms expression) rfl

/-- The text of a number asks for a level if it is short enough to be read. -/
theorem asks_level {target : Nat} (short : (toString target).length ≤ Text.digitLimit) :
    Asks (.level target) "level" [] [toString target] :=
  .level ((Text.integer?_toString target).trans (if_pos short)) (Int.natCast_nonneg target)

/-- What is no whole number is no level. -/
theorem exitCode_of_unread (conforms : framework.Conforms)
    (prepared : prepare environment option = .ok (settings, loggers)) {operand : String}
    (unread : Text.integer? operand = none) (expression : String) :
    (run framework serializer environment
      (argumentsFor option "level" [] expression [operand])).exitCode = 2 := by
  have untaken : framework.convert (.wholeFrom 0) operand = none := by
    refine Option.eq_none_iff_forall_ne_some.mpr fun value taken => ?_
    have reads := ((conforms.takesWhole ..).mp taken).1
    simp [unread] at reads
  have none : framework.values? [.text, .wholeFrom 0] [expression, operand] = none := by
    simp [Framework.values?, conforms.takesText, untaken]
  have member : levelAction serializer ∈ actions serializer := by simp [actions]
  exact exitCode_of_untaken conforms prepared member .nothing none

/-- A number that is too long to be read is no level. -/
theorem exitCode_of_long (conforms : framework.Conforms)
    (prepared : prepare environment option = .ok (settings, loggers)) {target : Nat}
    (long : Text.digitLimit < (toString target).length) (expression : String) :
    (run framework serializer environment
      (argumentsFor option "level" [] expression [toString target])).exitCode = 2 :=
  exitCode_of_unread conforms prepared
    ((Text.integer?_toString target).trans (if_neg (Nat.not_le.mpr long))) expression

end

/-! ### Agreement -/

/-- How the lines that answer the questions about a tree hang together. -/
structure Agreement (shown : Question → List String) (value text : String) (depth : Nat) :
    Prop where
  evalLine : shown .eval = [value]
  renderLine : shown .render = [text]
  depthLine : shown .depth = [toString depth]
  stepCount : (shown .steps).length = depth + 1
  firstStep : (shown .steps).head? = some ("  " ++ text)
  laterSteps : ∀ line ∈ (shown .steps).tail, ∃ stage, line = "= " ++ stage
  lastStep : ∃ front : String, front.length = 2 ∧ (shown .steps).getLast? = some (front ++ value)
  levelZero : shown (.level 0) = [text]
  levels : ∀ target : Nat, shown (.level target) ≠ [] ↔ target ≤ depth

/-- The last stage keeps its text behind two characters. -/
theorem getLast?_stageLines {stages : List String} {last : String}
    (isLast : stages.getLast? = some last) :
    ∃ front : String, front.length = 2 ∧ (stageLines stages).getLast? = some (front ++ last) := by
  cases stages with
  | nil => exact absurd isLast (by simp)
  | cons first others =>
    rw [List.getLast?_cons] at isLast
    rw [stageLines, List.getLast?_cons, List.getLast?_map]
    cases latest : others.getLast? with
    | none =>
      rw [latest] at isLast
      exact ⟨"  ", rfl, by rw [← Option.some.inj isLast]; rfl⟩
    | some stage =>
      rw [latest] at isLast
      exact ⟨"= ", rfl, by rw [← Option.some.inj isLast]; rfl⟩

theorem onOneLine_stageLines {stages : List String} (single : ∀ stage ∈ stages, OnOneLine stage) :
    ∀ line ∈ stageLines stages, OnOneLine line := by
  cases stages with
  | nil => exact List.forall_mem_nil _
  | cons first others =>
    obtain ⟨here, behind⟩ := List.forall_mem_cons.mp single
    refine List.forall_mem_cons.mpr ⟨.append (by decide) here, fun line member => ?_⟩
    obtain ⟨stage, isStage, rfl⟩ := List.mem_map.mp member
    exact .append (by decide) (behind stage isStage)

/-- A question that is not about a document, nor about a level above the tree. -/
def Question.IsPlain : Question → Prop
  | .level target => 0 ≤ target
  | .document _ => False
  | _ => True

theorem onOneLine_treeLines {serializer : Serializer} (formula : Formula) {question : Question}
    (plain : question.IsPlain) {written : List String}
    (prints : treeLines serializer formula.tree question = some written) :
    ∀ line ∈ written, OnOneLine line := by
  cases question with
  | document format => exact plain.elim
  | eval =>
    obtain rfl := Option.some.inj prints
    exact List.forall_mem_singleton.mpr (onOneLine_plain _)
  | render =>
    obtain rfl := Option.some.inj prints
    exact List.forall_mem_singleton.mpr (onOneLine_render formula)
  | depth =>
    obtain rfl := Option.some.inj prints
    exact List.forall_mem_singleton.mpr (onOneLine_toString_int _)
  | steps =>
    obtain rfl := Option.some.inj prints
    exact onOneLine_stageLines (onOneLine_stages formula)
  | level target =>
    obtain rfl := Option.some.inj prints
    intro line member
    obtain ⟨part, isPart, rfl⟩ := List.mem_map.mp member
    obtain ⟨target, rfl⟩ := Int.eq_ofNat_of_zero_le plain
    rw [Tree.level_eq_partsAt] at isPart
    obtain ⟨part, rfl⟩ := formula.forall_mem_partsAt target _ isPart
    exact onOneLine_render part

/-- What is printed of a tree over the four operators hangs together. -/
theorem agreement (serializer : Serializer) (formula : Formula) {shown : Question → List String}
    (prints : ∀ question written, question.IsPlain →
      treeLines serializer formula.tree question = some written → shown question = written) :
    Agreement shown (Spelling.plain formula.tree.evaluate) formula.tree.render
      formula.tree.height := by
  have steps : shown .steps =
      ("  " ++ formula.tree.render) :: ((List.range formula.tree.height).reverse.map
        fun level : Nat => formula.tree.resolve level).map ("= " ++ ·) := by
    rw [prints .steps _ trivial rfl, Tree.stages_eq_cons, stageLines]
  have levels (target : Nat) :
      shown (.level target) = (formula.tree.partsAt target).map Tree.render := by
    rw [prints (.level target) _ (Int.natCast_nonneg target) rfl, Tree.level_eq_partsAt]
  constructor
  case evalLine => exact prints .eval _ trivial rfl
  case renderLine => exact prints .render _ trivial rfl
  case depthLine =>
    rw [prints .depth _ trivial rfl, Tree.depth_eq_height]
    rfl
  case stepCount =>
    rw [steps, List.length_cons, List.length_map, List.length_map, List.length_reverse,
      List.length_range]
  case firstStep =>
    rw [steps]
    rfl
  case laterSteps =>
    rw [steps]
    intro line member
    obtain ⟨stage, _, rfl⟩ := List.mem_map.mp member
    exact ⟨stage, rfl⟩
  case lastStep =>
    rw [prints .steps _ trivial rfl]
    exact getLast?_stageLines formula.tree.getLast?_stages
  case levelZero => exact (levels 0).trans (by rw [Tree.partsAt_zero, List.map_singleton])
  case levels =>
    intro target
    rw [levels, ne_eq, List.map_eq_nil_iff, Tree.partsAt_eq_nil_iff, Nat.not_lt]

/-- The commands agree. Let the library keep what it promises, let the documents of trees be
written, and let the settings and the level of the journal be valid. Then the tokens of any
expression are shown; and all questions about its tree are answered from the same tree, so that the
answers hang together, or all are refused with the same error as the last line. A number asks for
its level if it has no more digits than can be read, and is an error of usage if it has more. -/
theorem commands_agree {framework : Framework} (conforms : framework.Conforms)
    {serializer : Serializer} (writes : serializer.WritesTrees) {environment : Environment}
    {option : Option String} {settings : Settings} {loggers : Journal.Loggers}
    (prepared : prepare environment option = .ok (settings, loggers)) (expression : String) :
    (run framework serializer environment
      (argumentsFor option "tokens" [] expression [])).exitCode = 0 ∧
    (∀ target : Nat, Text.digitLimit < (toString target).length →
      (run framework serializer environment
        (argumentsFor option "level" [] expression [toString target])).exitCode = 2) ∧
    ∃ output : Question → Output,
      (∀ target : Nat, (toString target).length ≤ Text.digitLimit →
        run framework serializer environment
          (argumentsFor option "level" [] expression [toString target]) =
            output (.level target)) ∧
      (∀ question name options operands, Asks question name options operands →
        run framework serializer environment
          (argumentsFor option name options expression operands) = output question) ∧
      match parse expression settings.maxDepth with
      | .error error => ∀ question, (output question).exitCode = 1 ∧ (output question).stdout = "" ∧
          (lines (output question).stderr).getLast? =
            some ("Invalid expression: " ++ error.message)
      | .ok tree => (∀ question, (output question).exitCode = 0) ∧
          Agreement (fun question => lines (output question).stdout)
            (Spelling.plain tree.evaluate) tree.render tree.height := by
  have asked {question : Question} {name : String} {options operands : List String}
      (asks : Asks question name options operands) :=
    run_asks conforms writes prepared asks expression
  refine ⟨congrArg Output.exitCode (run_tokens conforms prepared expression),
    fun target long => exitCode_of_long conforms prepared long expression,
    fun question => (answer serializer (settings, loggers) expression question).output,
    fun target short => asked (asks_level short), fun question name options operands => asked, ?_⟩
  cases outcome : parse expression settings.maxDepth with
  | error error =>
    intro question
    obtain ⟨shown, same⟩ := answer_of_error serializer loggers question outcome
    simp only [same]
    exact ⟨rfl, rfl, getLast?_lines_unlines shown
      (.append (by decide) (onOneLine_message (mem_tokens_of_parse outcome)))⟩
  | ok tree =>
    obtain ⟨formula, rfl⟩ := exists_formula_of_parse outcome
    refine ⟨fun question => ?_, agreement serializer formula fun question written plain prints => ?_⟩
    · obtain ⟨written, prints⟩ := exists_treeLines question writes formula
      obtain ⟨_, same⟩ := answer_of_ok serializer loggers question outcome prints
      simp only [same]
      rfl
    · obtain ⟨_, same⟩ := answer_of_ok serializer loggers question outcome prints
      simp only [same]
      exact lines_unlines (onOneLine_treeLines formula plain prints)

/-- With a limit and a level that are set, an expression that is read and one that is not. -/
theorem commands_agree_one_plus_two_times_three :
    prepare ⟨some "2", some "info"⟩ (some "debug") = .ok (⟨2, "INFO"⟩, ⟨10, 10, 1⟩) ∧
    ∃ stages rendered parts refused,
      run .standard Document.write ⟨some "2", some "info"⟩
        ["--log-level", "debug", "steps", "--", "1 + 2 * 3"] = stages ∧
      run .standard Document.write ⟨some "2", some "info"⟩
        ["--log-level", "debug", "render", "--", "1 + 2 * 3"] = rendered ∧
      run .standard Document.write ⟨some "2", some "info"⟩
        ["--log-level", "debug", "level", "--", "1 + 2 * 3", "1"] = parts ∧
      run .standard Document.write ⟨some "2", some "info"⟩
        ["--log-level", "debug", "tree", "--format", "json", "--", "1 + (2"] = refused ∧
      (lines stages.stdout).length = 3 ∧
      (lines stages.stdout).head? = (lines rendered.stdout).head?.map ("  " ++ ·) ∧
      parts.exitCode = 0 ∧ lines parts.stdout ≠ [] ∧ refused.exitCode = 1 ∧
      refused.stdout = "" := by
  have prepared : prepare ⟨some "2", some "info"⟩ (some "debug") =
      .ok (⟨2, "INFO"⟩, ⟨10, 10, 1⟩) := rfl
  have accepted : parse "1 + 2 * 3" 2 = .ok (.node (.leaf (Numeral.value ['1']))
      Operator.sum.operation (.node (.leaf (Numeral.value ['2'])) Operator.product.operation
        (.leaf (Numeral.value ['3'])))) := by
    have stream : tokens "1 + 2 * 3" = [⟨.number, ['1'], 0, 0⟩, ⟨.operator .sum, ['+'], 2, 0⟩,
        ⟨.number, ['2'], 4, 0⟩, ⟨.operator .product, ['*'], 6, 0⟩, ⟨.number, ['3'], 8, 0⟩,
        ⟨.finish, [], 9, 0⟩] := by decide +kernel
    obtain ⟨finish, _, run⟩ := parse_eq_run "1 + 2 * 3" 2
    rw [run, words, stream]
    rfl
  have unclosed : ∃ error, parse "1 + (2" 2 = .error error := by
    have stream : tokens "1 + (2" = [⟨.number, ['1'], 0, 0⟩, ⟨.operator .sum, ['+'], 2, 0⟩,
        ⟨.opening .round, ['('], 4, 0⟩, ⟨.number, ['2'], 5, 0⟩, ⟨.finish, [], 6, 0⟩] := by
      decide +kernel
    obtain ⟨finish, _, run⟩ := parse_eq_run "1 + (2" 2
    rw [run, words, stream]
    exact ⟨_, rfl⟩
  obtain ⟨_, _, output, _, answered, outcome⟩ :=
    commands_agree standard_conforms Document.write_writesTrees prepared "1 + 2 * 3"
  obtain ⟨_, _, output', _, answered', outcome'⟩ :=
    commands_agree standard_conforms Document.write_writesTrees prepared "1 + (2"
  obtain ⟨error, refused⟩ := unclosed
  simp only [accepted] at outcome
  simp only [refused] at outcome'
  obtain ⟨exits, agreement⟩ := outcome
  refine ⟨prepared, output .steps, output .render, output (.level 1), output' (.document .json),
    answered _ _ _ _ .steps, answered _ _ _ _ .render,
    answered _ _ _ _ (.level rfl (by decide)), answered' _ _ _ _ .json, agreement.stepCount, ?_,
    exits _, (agreement.levels 1).mpr (by decide), (outcome' _).1, (outcome' _).2.1⟩
  rw [agreement.firstStep, agreement.renderLine]
  rfl

/-- A number of one digit more than can be read is an error of usage where every question is
answered. -/
theorem level_disagrees :
    (run .standard Document.write ⟨none, none⟩ (argumentsFor none "eval" [] "1" [])).exitCode = 0 ∧
    (run .standard Document.write ⟨none, none⟩
      (argumentsFor none "level" [] "1" [toString (10 ^ Text.digitLimit)])).exitCode = 2 := by
  have prepared : prepare ⟨none, none⟩ none =
      .ok (⟨Parser.defaultLimit, "WARNING"⟩, ⟨30, 30, 1⟩) := rfl
  have accepted : parse "1" (⟨Parser.defaultLimit, "WARNING"⟩ : Settings).maxDepth =
      .ok (.leaf (Numeral.value ['1'])) := by
    have stream : tokens "1" = [⟨.number, ['1'], 0, 0⟩, ⟨.finish, [], 1, 0⟩] := by decide +kernel
    obtain ⟨finish, _, run⟩ := parse_eq_run "1" Parser.defaultLimit
    rw [run, words, stream]
    rfl
  have long : Text.digitLimit < (toString (10 ^ Text.digitLimit)).length := by
    have length := @Nat.length_toDigits_le_iff 10 (10 ^ Text.digitLimit) Text.digitLimit
      (by decide) (by decide)
    rw [← Nat.toList_repr, String.length_toList] at length
    exact Nat.not_le.mp fun short => Nat.lt_irrefl _ (length.mp short)
  constructor
  · have answered := run_asks standard_conforms Document.write_writesTrees prepared .eval "1"
    obtain ⟨_, same⟩ := answer_of_ok Document.write ⟨30, 30, 1⟩ .eval accepted rfl
    rw [answered, same]
    rfl
  · exact exitCode_of_long standard_conforms prepared long "1"

end CommandLine

end Reckon
