/-
This file says that what is printed line by line can be read line by line.
Texts that are printed are on one line each: numbers, the expressions of trees
over the four operators, and what is wrong with a source. A token cannot carry
a line end into a message, for a line end is a blank and no token has one in it.
-/

import Reckon.CommandLine
import Reckon.Proofs.Calls
import Reckon.Proofs.Partition
import Reckon.Proofs.PlainText

namespace Reckon

/-! ### Lines -/

/-- A text has no line end in it. -/
def OnOneLine (text : String) : Prop :=
  '\n' ∉ text.toList

instance (text : String) : Decidable (OnOneLine text) :=
  inferInstanceAs (Decidable ('\n' ∉ text.toList))

/-- The lines of a text. What stands behind the last line end is no line. -/
def lines (text : String) : List String :=
  ((text.toList.splitOn '\n').dropLast).map String.ofList

section
variable {text first second : String}

theorem OnOneLine.append (left : OnOneLine first) (right : OnOneLine second) :
    OnOneLine (first ++ second) := by
  rw [OnOneLine, String.toList_append, List.mem_append]
  exact fun either => either.elim left right

/-- A text is on one line if its characters are of a kind that line ends are not. -/
theorem OnOneLine.of_all (belongs : Char → Bool)
    (all : ∀ char ∈ text.toList, belongs char = true) (apart : belongs '\n' = false) :
    OnOneLine text :=
  fun member => absurd (all _ member) (Bool.eq_false_iff.mp apart)

theorem OnOneLine.splitOn (single : OnOneLine text) :
    (text.toList.splitOn '\n').map String.ofList = [text] := by
  rw [List.splitOn_eq_singleton single, List.map_singleton, String.ofList_toList]

end

open CommandLine

/-- A printed text takes as many lines as it has parts between its line ends. -/
theorem lines_unlines_cons (text : String) (texts : List String) :
    lines (unlines (text :: texts)) =
      (text.toList.splitOn '\n').map String.ofList ++ lines (unlines texts) := by
  have parts :
      (unlines (text :: texts)).toList = text.toList ++ '\n' :: (unlines texts).toList := by
    simp [unlines]
  have split : (unlines (text :: texts)).toList.splitOn '\n' =
      text.toList.splitOn '\n' ++ (unlines texts).toList.splitOn '\n' := by
    rw [parts]
    exact List.splitOnP_append_cons _ _ rfl
  have some : (unlines texts).toList.splitOn '\n' ≠ [] := List.splitOnP_ne_nil _ _
  rw [lines, split, List.dropLast_append_of_ne_nil some, List.map_append]
  rfl

theorem lines_unlines {texts : List String} (single : ∀ text ∈ texts, OnOneLine text) :
    lines (unlines texts) = texts := by
  induction texts with
  | nil => rfl
  | cons text texts inductionHypothesis =>
    obtain ⟨here, others⟩ := List.forall_mem_cons.mp single
    rw [lines_unlines_cons, here.splitOn, inductionHypothesis others]
    rfl

/-- The last line is the last text, whatever the texts before it are. -/
theorem getLast?_lines_unlines (texts : List String) {last : String} (single : OnOneLine last) :
    (lines (unlines (texts ++ [last]))).getLast? = some last := by
  induction texts with
  | nil =>
    rw [List.nil_append, lines_unlines (List.forall_mem_singleton.mpr single)]
    rfl
  | cons text texts inductionHypothesis =>
    rw [List.cons_append, lines_unlines_cons, List.getLast?_append, inductionHypothesis]
    rfl

/-! ### Numbers -/

theorem onOneLine_toString (number : Nat) : OnOneLine (toString number) := by
  refine .of_all Char.isDigit (fun char member => ?_) (by decide)
  rw [show toString number = number.repr from rfl, Nat.toList_repr] at member
  exact Nat.isDigit_of_mem_toDigits (by decide) (by decide) member

theorem onOneLine_toString_int (number : Int) : OnOneLine (toString number) := by
  cases number with
  | ofNat number => exact onOneLine_toString number
  | negSucc number =>
    exact (by decide : OnOneLine "-").append (onOneLine_toString (number + 1))

theorem onOneLine_plain (value : Float) : OnOneLine (Spelling.plain value) := by
  have digits : OnOneLine (String.ofList (Spelling.plainDigits (Binary64.word value))) := by
    refine .of_all Numeral.isNumeric (fun char member => ?_) (by decide)
    rw [String.toList_ofList, ← Spelling.body_form] at member
    exact (Spelling.form value).isNumeric_body char member
  have sign : OnOneLine
      (if Binary64.isNegative value && Binary64.word value != 0 then "-" else "") := by
    split <;> decide
  rw [Spelling.plain]
  by_cases beyond : Binary64.infinity < Binary64.word value
  · rw [if_pos beyond]
    decide
  by_cases infinite : Binary64.word value = Binary64.infinity
  · rw [if_neg beyond, if_pos infinite]
    exact sign.append (by decide)
  · rw [if_neg beyond, if_neg infinite]
    exact sign.append digits

/-! ### Expressions -/

theorem onOneLine_symbol (operator : Operator) : OnOneLine operator.symbol := by
  cases operator <;> decide

theorem onOneLine_render (formula : Formula) : OnOneLine formula.tree.render := by
  induction formula with
  | leaf value =>
    rw [Formula.tree, Tree.render_leaf]
    exact onOneLine_plain value
  | node left operator right leftHypothesis rightHypothesis =>
    have operand {formula : Formula} (single : OnOneLine formula.tree.render) :
        OnOneLine (Visitor.operandText formula.tree operator.operation formula.tree.render) := by
      rw [Visitor.operandText]
      split
      · exact .append (.append (by decide) single) (by decide)
      · exact single
    rw [Formula.tree, Tree.render_node, Operation.join]
    exact .append (operand leftHypothesis)
      (.append (.append (.append (by decide) (onOneLine_symbol operator)) (by decide))
        (operand rightHypothesis))

/-! ### Errors -/

theorem onOneLine_lexeme {source : String} {token : Token} (member : token ∈ tokens source) :
    OnOneLine token.lexeme := by
  rw [Token.lexeme]
  split
  · decide
  · next more =>
    obtain ⟨before, rest, stands⟩ := (laid_tokens source).stands token member more
    rw [OnOneLine, String.toList_ofList]
    exact fun inText => absurd (stands.lexeme.isBlank_eq_false _ inText) (by decide)

/-- An error names a token of the source. -/
theorem mem_tokens_of_parse {source : String} {limit : Int} {error : ParseError}
    (refused : parse source limit = .error error) : error.token ∈ tokens source := by
  obtain ⟨_, _, effect⟩ := Parser.parse_effect (Parser.at_start source limit)
  obtain ⟨_, _, passed, _, named⟩ := effect.raised error refused
  rw [named]
  exact List.mem_of_getElem? (getElem?_tokens source passed)

theorem onOneLine_message {source : String} {error : ParseError}
    (member : error.token ∈ tokens source) : OnOneLine error.message := by
  have named := onOneLine_lexeme member
  have detail : OnOneLine error.detail := by
    rw [ParseError.detail]
    cases error.cause with
    | illegalToken => exact .append (.append (by decide) named) (by decide)
    | operatorExpected => exact .append (.append (by decide) named) (by decide)
    | operandExpected => exact .append (.append (by decide) named) (by decide)
    | notAGroup => exact .append (.append (by decide) named) (by decide)
    | unclosedGroup bracket =>
      have closer : OnOneLine (String.singleton bracket.closer) := by cases bracket <;> decide
      exact .append (.append (by decide) closer) (by decide)
    | emptyInput => exact (by decide : OnOneLine "Could not parse input: result is empty")
    | emptyGroup => exact (by decide : OnOneLine "Could not parse group: result is empty")
    | nestedTooDeeply limit =>
      exact .append (.append (by decide) (onOneLine_toString_int limit)) (by decide)
  exact .append (.append detail (by decide)) (onOneLine_toString _)

end Reckon
