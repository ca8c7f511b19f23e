/-
This file is the command line program. It reads the two variables of the
settings, runs the command line, and writes what the run leaves behind.
-/

import Reckon.CommandLine
import Reckon.CommandLine.Standard

open Reckon

def main (arguments : List String) : IO UInt32 := do
  let maxDepth ← IO.getEnv Settings.maxDepthVariable
  let logLevel ← IO.getEnv Settings.logLevelVariable
  let output := CommandLine.run .standard Document.write ⟨maxDepth, logLevel⟩ arguments
  (← IO.getStdout).putStr output.stdout
  (← IO.getStderr).putStr output.stderr
  return UInt32.ofNat output.exitCode
