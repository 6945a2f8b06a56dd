import Deduction.Files.Entry
import Deduction.Policy.Decoding
import Deduction.Yaml.Outcome

namespace Deduction

inductive LoadFault
  | policy (fault : PolicyFault)
  | file (error : FileError)
  deriving DecidableEq, Repr

/-- A policy error as a fault of loading. -/
def LoadFault.ofError (error : PolicyError) : LoadFault :=
  .policy (.invalid error)

def Policy.load (yaml : Yaml.Reader) (files : Files) (path : Path) : Except LoadFault Policy :=
  match files.has path, files.readText path with
  | .error error, _ => .error (.file error)
  | .ok false, _ => .error (.ofError (.fileMissing path.text))
  | .ok true, .error error => .error (.file error)
  | .ok true, .ok text =>
      match yaml text with
      | .error (.refused _) => .error (.ofError (.fileMalformed path.text))
      | .error (.misfit misfit) => .error (.policy (.misfit misfit))
      | .ok value =>
          match Policy.ofValue value with
          | .ok policy => .ok policy
          | .error fault => .error (.policy fault)

inductive PolicyWarning
  | ignored (path : String) (error : PolicyError)
  deriving DecidableEq, Repr

def PolicyWarning.message : PolicyWarning → String
  | .ignored path error =>
      "Ignoring invalid checker config " ++ path ++ ": " ++ error.message

/-- The file of the policy where none is named. -/
def Policy.standardPath : String := "config/proofcheck.yaml"

/-- The name of the variable that names the file of the policy. -/
def Policy.variableName : String := "PROOFCHECK_CONFIG"

/-- The policy of a process, by the variable that names its file. Without a file, or with an
invalid one, it is the default policy. -/
def Policy.ofProcess (yaml : Yaml.Reader) (files : Files) (configured : Option String) :
    Except LoadFault (Policy × List PolicyWarning) :=
  let path := Path.ofText (configured.getD Policy.standardPath)
  match files.has path, Policy.load yaml files path with
  | .error error, _ => .error (.file error)
  | .ok false, _ => .ok ({}, [])
  | .ok true, .ok policy => .ok (policy, [])
  | .ok true, .error (.policy (.invalid error)) => .ok ({}, [.ignored path.text error])
  | .ok true, .error fault => .error fault

end Deduction
