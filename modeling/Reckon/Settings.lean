/-
This file reads the settings from the environment: how deep groups may nest,
and the level of the journal. A variable that is not set leaves the default,
and so does a blank one for the depth. The name of the level is only put into
capitals here; whether there is such a level shows when the journal is
configured.
-/

import Reckon.Parser
import Reckon.Text.Integer
import Reckon.Text.Uppercase

namespace Reckon

/-- The texts of the variables that are set. -/
structure Environment where
  maxDepth : Option String
  logLevel : Option String

structure Settings where
  maxDepth : Int
  logLevel : String

namespace Settings

/-- The name of the variable for the depth. -/
def maxDepthVariable : String := "NUMTREE_MAX_DEPTH"

/-- The name of the variable for the level. -/
def logLevelVariable : String := "NUMTREE_LOG_LEVEL"

def defaultLogLevel : String := "WARNING"

inductive Problem
  | notAnInteger (text : String)
  | tooSmall (value : Int)

def Problem.message : Problem → String
  | .notAnInteger text => maxDepthVariable ++ " must be an integer, got " ++ Text.quoted text
  | .tooSmall value => maxDepthVariable ++ " must be at least 1, got " ++ toString value

/-- The depth that a text asks for. -/
def readMaxDepth (text : String) : Except Problem Int :=
  if text.toList.all Text.isBlank then .ok Parser.defaultLimit
  else
    match Text.integer? text with
    | none => .error (.notAnInteger text)
    | some value => if value < 1 then .error (.tooSmall value) else .ok value

/-- The settings in an environment. -/
def ofEnvironment (environment : Environment) : Except Problem Settings := do
  let maxDepth ←
    match environment.maxDepth with
    | none => .ok Parser.defaultLimit
    | some text => readMaxDepth text
  return ⟨maxDepth, Text.upper (environment.logLevel.getD defaultLogLevel)⟩

end Settings

end Reckon
