/-
This file is a library that runs command line programs, as far as this project
needs one: it sorts the arguments, takes texts for values, and calls the
callbacks. Errors of usage are found in the order in which the arguments are
looked at, those of an action after the callback of the program has returned.
It adds no request for help to a program, and its texts of errors are its own.
-/

import Reckon.CommandLine.Arguments
import Reckon.CommandLine.Framework

namespace Reckon.CommandLine

/-! ### Texts and values -/

/-- The value that a text is taken for. -/
def valueOf? : (kind : Kind) → String → Option kind.Value
  | .text, text => some text
  | .wholeFrom least, text => (Text.integer? text).filter (least ≤ ·)
  | .oneOf words, text => if text ∈ words then some text else none

/-- The values of operands, one for each kind. -/
def takeValues : (kinds : List Kind) → List String → Except UsageError (Values kinds)
  | [], [] => .ok ()
  | [], text :: _ => .error (.extraOperand text)
  | _ :: _, [] => .error .missingOperand
  | kind :: kinds, text :: texts =>
    match valueOf? kind text with
    | none => .error (.badValue text)
    | some value => (takeValues kinds texts).map (value, ·)

/-- The value of an option that is given with a text or not at all. -/
def pick : (flag : Option Flag) → Option String → Except UsageError (Picked flag)
  | none, _ => .ok ()
  | some flag, none => .ok flag.default?
  | some flag, some text =>
    match valueOf? flag.kind text with
    | none => .error (.badValue text)
    | some value => .ok (some value)

/-! ### Runs -/

section
variable {Context : Type}

/-- The exit code of a callback. What stops it in any other way ends the run with one. -/
def Ending.exitCode {Result : Type} (ending : Ending Result) : Nat :=
  ending.exitCode?.getD 1

/-- The action that the operands of a program name, and the arguments that are left to it. -/
def Program.find (program : Program Context) :
    List String → Except UsageError (Action Context × List String)
  | [] => .error .missingCommand
  | name :: rest =>
    match program.actions.find? (·.name == name) with
    | none => .error (.unknownCommand name)
    | some action => .ok (action, rest)

/-- Calls an action with its arguments. -/
def Action.answer (action : Action Context) (context : Context) (arguments : List String) :
    Except UsageError (Outcome Unit) := do
  let sorted ← sortArguments (action.flag.map Flag.name) true arguments
  let picked ← pick action.flag sorted.value
  let values ← takeValues action.kinds sorted.operands
  return action.call context picked values

/-- What a run leaves behind when something is wrong with how it is used. -/
def UsageError.output (error : UsageError) : Output :=
  ⟨2, "", "Error: " ++ error.message ++ "\n"⟩

/-- What a run leaves behind, whether or not something is wrong with how it is used. -/
def outputOf : Except UsageError Output → Output
  | .ok output => output
  | .error error => error.output

/-- What a run leaves behind that goes on from what it has printed. -/
def Outcome.precede {Result : Type} (entered : Outcome Result) (later : Output) : Output :=
  ⟨later.exitCode, entered.stdout ++ later.stdout, entered.stderr ++ later.stderr⟩

def Outcome.output {Result : Type} (outcome : Outcome Result) : Output :=
  ⟨outcome.ending.exitCode, outcome.stdout, outcome.stderr⟩

/-- Runs a program, or says what is wrong with how it is used. -/
def Program.start (program : Program Context) (arguments : List String) :
    Except UsageError Output := do
  let sorted ← sortArguments (some program.flag.name) false arguments
  let chosen ← pick (some program.flag) sorted.value
  let (action, rest) ← program.find sorted.operands
  let entered := program.enter chosen
  match entered.ending with
  | .returned context =>
    return entered.precede (outputOf ((action.answer context rest).map Outcome.output))
  | _ => return entered.output

/-- The library itself. -/
def Framework.standard : Framework where
  convert := valueOf?
  run program arguments := outputOf (program.start arguments)

end

end Reckon.CommandLine
