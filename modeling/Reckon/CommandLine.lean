/-
This file is the program that runs a command line. Its own option names the
level of the journal, and its callback reads the settings and configures the
journal. There are seven actions: one shows tokens, and the others answer a
question about the tree of an expression.

The library that takes the command line apart and what writes documents are
parameters of the program.
-/

import Reckon.CommandLine.Framework
import Reckon.Settings
import Reckon.Tree.Document
import Reckon.Tree.Exchange
import Reckon.Tree.Reduction

namespace Reckon.CommandLine

/-! ### Answers -/

/-- What is asked about the tree of an expression. -/
inductive Question
  | eval
  | render
  | depth
  | level (target : Int)
  | steps
  | document (format : DocumentFormat)

/-- Lines as text. -/
def unlines (lines : List String) : String :=
  String.join (lines.map (· ++ "\n"))

/-- The stages of a reduction, all but the first behind an equals sign. -/
def stageLines : List String → List String
  | [] => []
  | first :: others => ("  " ++ first) :: others.map ("= " ++ ·)

/-- A token as a line. -/
def tokenLine (token : Token) : String :=
  token.kind.name ++ " " ++ token.lexeme

/-- The tokens of a source as lines, without the finish. -/
def tokenLines (source : String) : List String :=
  (tokens source).dropLast.map tokenLine

/-- A document as it is shown, with nothing blank at the end of one in YAML. -/
def shownDocument : DocumentFormat → String → String
  | .yaml, text => String.ofList (Text.trimEnd Text.isBlank text.toList)
  | .json, text => text

/-- The answer to a question about a tree, if the tree can be written. -/
def treeLines (serializer : Serializer) (tree : Expression) : Question → Option (List String)
  | .eval => some [Spelling.plain tree.evaluate]
  | .render => some [tree.render]
  | .depth => some [toString tree.depth]
  | .level target => some ((tree.level target).map Tree.render)
  | .steps => some (stageLines tree.stages)
  | .document format => (serializer format tree.toData).map fun text => [shownDocument format text]

/-- What the callback of the program leaves to the actions: the settings and the configured
journal. -/
abbrev Session := Settings × Journal.Loggers

/-- Answers a question about the tree of an expression. What the reader of the expression wrote to
the journal comes first among the errors. -/
def answer (serializer : Serializer) (session : Session) (expression : String)
    (question : Question) : Outcome Unit :=
  let report := (Parser.start expression session.1.maxDepth).parse
  let shown := (report.records.filter session.2.shows).map Journal.Record.line
  match report.outcome with
  | .ok tree =>
    match treeLines serializer tree question with
    | some lines => ⟨.returned (), unlines lines, unlines shown⟩
    | none => ⟨.failed, "", unlines shown⟩
  | .error error =>
    ⟨.exited 1, "", unlines (shown ++ ["Invalid expression: " ++ error.message])⟩

/-! ### Actions -/

section
variable (serializer : Serializer)

/-- The action that answers a question about its only operand. -/
def asking (name : String) (question : Question) (named : name.toList.head? ≠ some '-') :
    Action Session where
  name
  flag := none
  kinds := [.text]
  call session _ values := answer serializer session values.1 question
  named

/-- The action that shows the parts of the tree at a level. -/
def levelAction : Action Session where
  name := "level"
  flag := none
  kinds := [.text, .wholeFrom 0]
  call session _ values := answer serializer session values.1 (.level values.2.1)
  named := by decide

/-- The action that shows tokens, which are there even where there is no tree. -/
def tokensAction : Action Session where
  name := "tokens"
  flag := none
  kinds := [.text]
  call _ _ values := ⟨.returned (), unlines (tokenLines values.1), ""⟩
  named := by decide

def formatFlag : Flag where
  name := "--format"
  kind := .oneOf ["yaml", "json"]
  default? := some "yaml"
  named := by decide

/-- The format with a name. -/
def formatNamed : Option String → DocumentFormat
  | some "json" => .json
  | _ => .yaml

/-- The action that shows the tree itself. -/
def treeAction : Action Session where
  name := "tree"
  flag := some formatFlag
  kinds := [.text]
  call session picked values :=
    answer serializer session values.1 (.document (formatNamed picked))
  named := by decide

def actions : List (Action Session) := [
  asking serializer "eval" .eval (by decide), asking serializer "render" .render (by decide),
  asking serializer "depth" .depth (by decide), levelAction serializer,
  asking serializer "steps" .steps (by decide), tokensAction, treeAction serializer]

end

/-! ### The whole run -/

/-- What is wrong with the settings. -/
inductive Problem
  | settings (problem : Settings.Problem)
  | journal (error : Journal.ConfigurationError)

def Problem.message : Problem → String
  | .settings problem => problem.message
  | .journal error => error.message

/-- The name of the level that counts: that of the option unless it is empty, else that of the
settings. -/
def chosenLevel (option : Option String) (settings : Settings) : String :=
  match option with
  | none | some "" => settings.logLevel
  | some name => name

/-- The settings and the configured journal. -/
def prepare (environment : Environment) (option : Option String) :
    Except Problem Session := do
  let settings ← (Settings.ofEnvironment environment).mapError .settings
  let loggers ←
    (Journal.Loggers.initial.configure (.named (chosenLevel option settings))).mapError .journal
  return (settings, loggers)

def levelFlag : Flag where
  name := "--log-level"
  kind := .text
  default? := none
  named := by decide

/-- The callback of the program. What is wrong with the settings ends the run. -/
def enter (environment : Environment) (option : Option String) : Outcome Session :=
  match prepare environment option with
  | .ok session => ⟨.returned session, "", ""⟩
  | .error problem => ⟨.exited 1, "", "Error: " ++ problem.message ++ "\n"⟩

def program (serializer : Serializer) (environment : Environment) : Program Session where
  flag := levelFlag
  enter := enter environment
  actions := actions serializer
  distinct := by
    show ["eval", "render", "depth", "level", "steps", "tokens", "tree"].Nodup
    decide

/-- Runs a command line. -/
def run (framework : Framework) (serializer : Serializer) (environment : Environment)
    (arguments : List String) : Output :=
  framework.run (program serializer environment) arguments

end Reckon.CommandLine
