/-
This file reads an expression one token at a time.

A reading knows the groups that are open and, in the innermost of them, what
is to come: an operand or an operator. Before an operand there are operations
that wait for it. A number that has just been read as the right operand of an
operation still waits too: if the next operator binds tighter it takes the
number, and otherwise the operation does. A group is never taken away in this
way, nor is the first operand of a chain, so `1 + 2 * 3` keeps the product
together and `1 + 2 * 3 * 4` multiplies the sum by four.
-/

import Reckon.Parser.Error
import Reckon.Tree

namespace Reckon

/-- Left operands with their operators that wait for one operand to the right of them all, the
innermost first. -/
abbrev Waiting := List (Expression × Operator)

/-- The tree of the waiting operators and the operand they wait for. -/
def Waiting.fill (waiting : Waiting) (operand : Expression) : Expression :=
  waiting.foldl (fun right entry => .node entry.1 entry.2.operation right) operand

/-- An open group: the token that opened it, its bracket, and what waits outside for its value. -/
structure OpenGroup where
  opener : Token
  bracket : Bracket
  outside : Waiting

/-- What is to come. Before an operator there is a value that the waiting operators may have to
give away. -/
inductive Stage
  | operand (waiting : Waiting)
  | operator (waiting : Waiting) (value : Expression)

/-- The open groups, the innermost first, and what is to come in the innermost. -/
structure Reading where
  groups : List OpenGroup
  stage : Stage

namespace Reading

/-- The reading that starts with an operand. -/
def atOperand : Reading := ⟨[], .operand []⟩

/-- The reading that goes on behind a complete value. -/
def after (value : Expression) : Reading := ⟨[], .operator [] value⟩

/-- Whether an operator takes a value away from the waiting operators. -/
def takes (operator : Operator) (waiting : Waiting) : Bool :=
  waiting.head?.any fun entry => entry.2.priority < operator.priority

/-- The error for a token that is not the one to come. -/
def refuse (expected : ParseError.Cause) (token : Token) : ParseError :=
  ⟨if token.kind = .illegal then .illegalToken else expected, token⟩

theorem cause_refuse (expected : ParseError.Cause) (token : Token) :
    (refuse expected token).cause = .illegalToken ∨ (refuse expected token).cause = expected := by
  unfold refuse
  split
  · exact .inl rfl
  · exact .inr rfl

/-- An operand begins with a token: a number or the opener of a group. A group is counted before
the limit is checked. The answer has the number of groups that now count as open. -/
def readOperand (limit : Int) (depth : Nat) (groups : List OpenGroup) (waiting : Waiting)
    (token : Token) : Nat × Except ParseError Reading :=
  match token.kind with
  | .number => (depth, .ok ⟨groups, .operator waiting (.leaf token.value)⟩)
  | .opening bracket =>
    if limit < depth + 1 then (depth + 1, .error ⟨.nestedTooDeeply limit, token⟩)
    else (depth + 1, .ok ⟨⟨token, bracket, waiting⟩ :: groups, .operand []⟩)
  | _ => (depth, .error (refuse .operandExpected token))

/-- A token behind a value has to be an operator. -/
def readOperator (depth : Nat) (groups : List OpenGroup) (waiting : Waiting) (value : Expression)
    (token : Token) : Nat × Except ParseError Reading :=
  match token.kind with
  | .operator operator =>
    if takes operator waiting then (depth, .ok ⟨groups, .operand ((value, operator) :: waiting)⟩)
    else (depth, .ok ⟨groups, .operand [(waiting.fill value, operator)]⟩)
  | _ => (depth, .error (refuse .operatorExpected token))

/-- The reading after one more token, or what is wrong with the token, and the number of groups
that now count as open. A group may end behind a value; it may not end before its first operand,
and the source may end at neither place. Behind an operator only an operand will do. -/
def step (limit : Int) (depth : Nat) (reading : Reading) (token : Token) :
    Nat × Except ParseError Reading :=
  match reading.stage, reading.groups with
  | .operand [], group :: groups =>
    if token.kind = .closing group.bracket then (depth - 1, .error ⟨.emptyGroup, group.opener⟩)
    else if token.kind = .finish then (depth, .error ⟨.unclosedGroup group.bracket, token⟩)
    else readOperand limit depth (group :: groups) [] token
  | .operand waiting, groups => readOperand limit depth groups waiting token
  | .operator waiting value, group :: groups =>
    if token.kind = .closing group.bracket then
      (depth - 1, .ok ⟨groups, .operator [] (group.outside.fill (waiting.fill value))⟩)
    else if token.kind = .finish then (depth, .error ⟨.unclosedGroup group.bracket, token⟩)
    else readOperator depth (group :: groups) waiting value token
  | .operator waiting value, [] => readOperator depth [] waiting value token

/-! ### What a step comes to -/

/-- The innermost group can end with a token: it is the closer of the group or the finish. -/
def CanEnd (groups : List OpenGroup) (token : Token) : Prop :=
  ∃ group ∈ groups.head?, token.kind = .closing group.bracket ∨ token.kind = .finish

/-- All that a step can come to, each with what makes it so: tokens of four kinds are read, and the
others are refused for one of five reasons. -/
inductive Steps (limit : Int) (depth : Nat) (token : Token) :
    Reading → Nat × Except ParseError Reading → Prop
  | number {groups : List OpenGroup} {waiting : Waiting} (isNumber : token.kind = .number) :
    Steps limit depth token ⟨groups, .operand waiting⟩
      (depth, .ok ⟨groups, .operator waiting (.leaf token.value)⟩)
  | opening {groups : List OpenGroup} {waiting : Waiting} {bracket : Bracket}
    (opens : token.kind = .opening bracket) (room : (depth : Int) < limit) :
    Steps limit depth token ⟨groups, .operand waiting⟩
      (depth + 1, .ok ⟨⟨token, bracket, waiting⟩ :: groups, .operand []⟩)
  | operator {groups : List OpenGroup} {waiting : Waiting} {value : Expression}
    {operator : Operator} (operates : token.kind = .operator operator) :
    Steps limit depth token ⟨groups, .operator waiting value⟩
      (depth, .ok ⟨groups, .operand
        (if takes operator waiting then (value, operator) :: waiting
        else [(waiting.fill value, operator)])⟩)
  | closing {group : OpenGroup} {groups : List OpenGroup} {waiting : Waiting} {value : Expression}
    (closes : token.kind = .closing group.bracket) :
    Steps limit depth token ⟨group :: groups, .operator waiting value⟩
      (depth - 1, .ok ⟨groups, .operator [] (group.outside.fill (waiting.fill value))⟩)
  | nested {groups : List OpenGroup} {waiting : Waiting} {bracket : Bracket}
    (opens : token.kind = .opening bracket) (full : limit ≤ depth) :
    Steps limit depth token ⟨groups, .operand waiting⟩
      (depth + 1, .error ⟨.nestedTooDeeply limit, token⟩)
  | empty {group : OpenGroup} {groups : List OpenGroup}
    (closes : token.kind = .closing group.bracket) :
    Steps limit depth token ⟨group :: groups, .operand []⟩
      (depth - 1, .error ⟨.emptyGroup, group.opener⟩)
  | unclosed {group : OpenGroup} {groups : List OpenGroup} {stage : Stage}
    (finished : token.kind = .finish)
    (complete : ∀ waiting, stage = .operand waiting → waiting = []) :
    Steps limit depth token ⟨group :: groups, stage⟩
      (depth, .error ⟨.unclosedGroup group.bracket, token⟩)
  | noOperand {groups : List OpenGroup} {waiting : Waiting} (noNumber : token.kind ≠ .number)
    (noOpener : ∀ bracket, token.kind ≠ .opening bracket)
    (inside : waiting = [] → ¬CanEnd groups token) :
    Steps limit depth token ⟨groups, .operand waiting⟩
      (depth, .error (refuse .operandExpected token))
  | noOperator {groups : List OpenGroup} {waiting : Waiting} {value : Expression}
    (noOperator : ∀ operator, token.kind ≠ .operator operator)
    (inside : ¬CanEnd groups token) :
    Steps limit depth token ⟨groups, .operator waiting value⟩
      (depth, .error (refuse .operatorExpected token))

section
variable {limit : Int} {depth : Nat} {groups : List OpenGroup} {waiting : Waiting}
  {value : Expression} {token : Token}

theorem not_canEnd_nil : ¬CanEnd [] token := by
  simp [CanEnd]

theorem not_canEnd_cons {group : OpenGroup} (inside : token.kind ≠ .closing group.bracket)
    (more : token.kind ≠ .finish) : ¬CanEnd (group :: groups) token := by
  simp [CanEnd, inside, more]

theorem steps_readOperand (inside : waiting = [] → ¬CanEnd groups token) :
    Steps limit depth token ⟨groups, .operand waiting⟩
      (readOperand limit depth groups waiting token) := by
  unfold readOperand
  split
  · next isNumber => exact .number isNumber
  · next bracket opens =>
    split
    · next full => exact .nested opens (by omega)
    · next room => exact .opening opens (by omega)
  · next noNumber noOpener => exact .noOperand noNumber noOpener inside

theorem steps_readOperator (inside : ¬CanEnd groups token) :
    Steps limit depth token ⟨groups, .operator waiting value⟩
      (readOperator depth groups waiting value token) := by
  unfold readOperator
  split
  · next operator operates =>
    have steps : Steps limit depth token ⟨groups, .operator waiting value⟩ _ := .operator operates
    split
    · next tighter => rwa [if_pos tighter] at steps
    · next notTighter => rwa [if_neg notTighter] at steps
  · next noOperator => exact .noOperator noOperator inside

theorem steps_step (limit : Int) (depth : Nat) (reading : Reading) (token : Token) :
    Steps limit depth token reading (reading.step limit depth token) := by
  obtain ⟨groups, stage⟩ := reading
  match groups, stage with
  | [], .operand [] | [], .operand (_ :: _) => exact steps_readOperand fun _ => not_canEnd_nil
  | _ :: _, .operand (_ :: _) => exact steps_readOperand (by simp)
  | [], .operator _ _ => exact steps_readOperator not_canEnd_nil
  | group :: groups, .operand [] =>
    simp only [step]
    split
    · next closes => exact .empty closes
    · next inside =>
      split
      · next finished => exact .unclosed finished (by simp)
      · next more => exact steps_readOperand fun _ => not_canEnd_cons inside more
  | group :: groups, .operator _ _ =>
    simp only [step]
    split
    · next closes => exact .closing closes
    · next inside =>
      split
      · next finished => exact .unclosed finished (by simp)
      · next more => exact steps_readOperator (not_canEnd_cons inside more)

/-- What is known of a step by its outcome: the only ones of these with the outcome. -/
theorem steps_of_eq {reading : Reading} {outcome : Nat × Except ParseError Reading}
    (same : reading.step limit depth token = outcome) : Steps limit depth token reading outcome :=
  same ▸ steps_step limit depth reading token

end

/-! ### The end of an expression -/

/-- The tree that has been read, once no group is open, nothing is to come, and the next token
takes nothing away. -/
def result? (reading : Reading) (next : Token) : Option Expression :=
  match reading.groups, reading.stage, next.kind with
  | [], .operator waiting value, .operator operator =>
    if takes operator waiting then none else some (waiting.fill value)
  | [], .operator waiting value, _ => some (waiting.fill value)
  | _, _, _ => none

end Reading

end Reckon
