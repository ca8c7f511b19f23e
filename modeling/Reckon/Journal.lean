/-
This file holds the journal: records with a level of importance, and the two
thresholds that decide which records are shown. The package has a threshold of
its own, and every configuration sets it. The root has one that only the first
configuration sets, together with the one handler that shows records. A
package without a threshold of its own uses the root's.
-/

import Reckon.Text.Quoted
import Reckon.Text.Uppercase

namespace Reckon.Journal

/-! ### Levels -/

def debug : Int := 10

def warning : Int := 30

/-- The level at which a threshold counts as not set. -/
def unset : Int := 0

/-- The names of levels. A level with two names is shown under the first. -/
def levelNames : List (String × Int) := [
  ("CRITICAL", 50), ("FATAL", 50), ("ERROR", 40), ("WARNING", warning), ("WARN", warning),
  ("INFO", 20), ("DEBUG", debug), ("NOTSET", unset)]

/-- The level with a name, in letters of either case. -/
def levelNamed? (name : String) : Option Int :=
  levelNames.lookup (Text.upper name)

/-- The name under which a level is shown. -/
def levelName (level : Int) : String :=
  match levelNames.find? (·.2 == level) with
  | some entry => entry.1
  | none => "Level " ++ toString level

/-! ### Records -/

/-- What a logger has to say, and how important it is. -/
structure Record where
  level : Int
  logger : String
  message : String

/-- A record as it is shown, without the time. -/
def Record.line (record : Record) : String :=
  levelName record.level ++ " " ++ record.logger ++ ": " ++ record.message

/-! ### Thresholds -/

/-- The thresholds of the package and of the root, and how many handlers the root has. -/
structure Loggers where
  package : Int
  root : Int
  handlers : Nat
deriving DecidableEq

/-- Before any configuration nothing is shown. -/
def Loggers.initial : Loggers := ⟨unset, warning, 0⟩

/-- A level as a caller gives it. -/
inductive Threshold
  | named (name : String)
  | numbered (level : Int)

inductive ConfigurationError
  | unknownLevel (name : String)

def ConfigurationError.message : ConfigurationError → String
  | .unknownLevel name => "Unknown log level: " ++ Text.quoted name

def Threshold.resolve : Threshold → Except ConfigurationError Int
  | .numbered level => .ok level
  | .named name =>
    match levelNamed? name with
    | some level => .ok level
    | none => .error (.unknownLevel name)

namespace Loggers

/-- Sets the threshold of the package, and that of the root if the root has no handler yet. -/
def configure (loggers : Loggers) (threshold : Threshold) : Except ConfigurationError Loggers :=
  match threshold.resolve with
  | .error cause => .error cause
  | .ok level =>
    if loggers.handlers = 0 then .ok ⟨level, level, 1⟩
    else .ok { loggers with package := level }

/-- The threshold that counts for the records of the package. -/
def effective (loggers : Loggers) : Int :=
  if loggers.package = unset then loggers.root else loggers.package

/-- Whether a record of the package is shown. -/
def shows (loggers : Loggers) (record : Record) : Bool :=
  0 < loggers.handlers && loggers.effective ≤ record.level

end Loggers

end Reckon.Journal
