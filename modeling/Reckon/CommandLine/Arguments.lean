/-
This file sorts the arguments of a command line into options and operands. An
argument that starts with a dash and is longer than the dash is an option; its
value stands behind an equals sign or is the next argument, whatever that
looks like. Two dashes alone end the options. A command takes options anywhere
among its operands, but the options of the program itself end at the first
operand, which names the command.
-/

namespace Reckon.CommandLine

/-- What is wrong with how a command line is built. -/
inductive UsageError
  | missingCommand
  | unknownCommand (name : String)
  | unknownOption (argument : String)
  | missingValue (option : String)
  | missingOperand
  | extraOperand (argument : String)
  | badValue (text : String)

def UsageError.message : UsageError → String
  | .missingCommand => "Missing command"
  | .unknownCommand name => "No such command: " ++ name
  | .unknownOption argument => "No such option: " ++ argument
  | .missingValue option => "Option needs a value: " ++ option
  | .missingOperand => "Missing argument"
  | .extraOperand argument => "Unexpected argument: " ++ argument
  | .badValue text => "Not a value that may stand here: " ++ text

/-- The value of the last use of the one option there is, and the operands in order. -/
structure Arguments where
  value : Option String
  operands : List String

/-- Arguments with one more use of the option in front. It counts unless the option is used
again. -/
def Arguments.precede (value : String) (later : Arguments) : Arguments :=
  { later with value := later.value.or (some value) }

/-- Whether an argument is an option. -/
def isOption (argument : List Char) : Bool :=
  argument.head? == some '-' && 1 < argument.length

/-- Sorts arguments among which there may be one option, if it has a name. Where operands do not
mix with options, the first operand ends the options. -/
def sortArguments (option : Option String) (mixed : Bool) :
    List String → Except UsageError Arguments
  | [] => .ok ⟨none, []⟩
  | argument :: rest =>
    if argument == "--" then .ok ⟨none, rest⟩
    else if isOption argument.toList then
      let name := String.ofList (argument.toList.takeWhile (· != '='))
      let attached := argument.toList.dropWhile (· != '=')
      if some name != option then .error (.unknownOption argument)
      else
        match attached, rest with
        | _ :: value, rest =>
          (sortArguments option mixed rest).map (Arguments.precede (String.ofList value))
        | [], value :: rest => (sortArguments option mixed rest).map (Arguments.precede value)
        | [], [] => .error (.missingValue name)
    else if mixed then
      (sortArguments option mixed rest).map fun sorted =>
        { sorted with operands := argument :: sorted.operands }
    else .ok ⟨none, argument :: rest⟩

end Reckon.CommandLine
