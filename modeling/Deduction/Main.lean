import Deduction.CommandLine.Run
import Deduction.Yaml.Reader

namespace Deduction

/-- A code of the system for an error, which some of its calls give with the other sign. -/
def isCode (expected found : UInt32) : Bool :=
  found == expected || found == 0 - expected

/-- What is found at a path of the file system. -/
def entryAt (path : Path) : IO Entry := do
  try
    return .file (← IO.FS.readFile path.text)
  catch
    | .noFileOrDirectory .. => return .missing
    | .inappropriateType _ code _ => return if isCode 20 code then .blocked else .folder
    | .invalidArgument file code details =>
        if isCode 36 code then return .tooLong
        else throw (.invalidArgument file code details)
    | error => throw error

/-- The files at some paths. -/
def filesAt (paths : List Path) : IO Files := do
  let entries ← paths.mapM fun path => return (path, ← entryAt path)
  return fun path => ((entries.find? fun entry => entry.1 == path).map (·.2)).getD .missing

end Deduction

open Deduction in
/-- Runs the program with its arguments. -/
def main (arguments : List String) : IO UInt32 := do
  let policyFile ← IO.getEnv Policy.variableName
  let files ← filesAt (CommandLine.paths policyFile arguments)
  match CommandLine.run { files, policyFile, yaml := Yaml.read } arguments with
  | .ok output =>
      (← IO.getStdout).putStr output.out
      (← IO.getStderr).putStr output.err
      return output.status.toUInt32
  | .error misfit =>
      (← IO.getStderr).putStrLn misfit.message
      return 1
