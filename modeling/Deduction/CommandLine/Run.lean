import Deduction.CommandLine.Command
import Deduction.Formula.Canonical
import Deduction.Json.Printer
import Deduction.Json.Reader
import Deduction.Policy.Loading
import Deduction.Validation.Basic
import Deduction.Validation.Report
import Deduction.Validation.Wire

/-!
Running commands.

A run depends on the files, on the variable that names the policy file and on how YAML is read. Most
faults end it with a message and status two; a value that lacks a member or is out of range is
reported to the caller.
-/

namespace Deduction.CommandLine

/-- What the outcome of a run depends on besides its arguments. -/
structure Surroundings where
  files : Files
  policyFile : Option String
  yaml : Yaml.Reader

inductive Fault
  | file (error : FileError)
  | json (error : Json.ReadError)
  | yaml (message : String)
  | notMapping (path : String)
  | misfit (misfit : Misfit)
  | policy (error : PolicyError)
  | ruleset (error : UnknownRuleset)
  deriving DecidableEq, Repr

def Fault.message : Fault → String
  | .file error => error.message
  | .json error => error.message
  | .yaml message => message
  | .notMapping path => path ++ ": proof document must be a mapping"
  | .misfit found => found.message
  | .policy error => error.message
  | .ruleset error => error.message

def Fault.ofLoad : LoadFault → Fault
  | .file error => .file error
  | .policy (.invalid error) => .policy error
  | .policy (.misfit found) => .misfit found

def Fault.ofYaml : Yaml.Failure → Fault
  | .refused message => .yaml message
  | .misfit found => .misfit found

/-- Keeps a value, or gives its error another form. -/
def relabel {ε α : Type} (wrap : ε → Fault) : Except ε α → Except Fault α
  | .ok value => .ok value
  | .error error => .error (wrap error)

/-- The policy under which documents are validated. -/
def Surroundings.policy (surroundings : Surroundings) (config : Option String) :
    Except Fault Policy :=
  match config with
  | some path =>
      relabel .ofLoad (Policy.load surroundings.yaml surroundings.files (Path.ofText path))
  | none => do
      let (policy, _) ← relabel .ofLoad
        (Policy.ofProcess surroundings.yaml surroundings.files surroundings.policyFile)
      return policy

def Surroundings.value (surroundings : Surroundings) (path : Path) : Except Fault Value := do
  let text ← relabel .file (surroundings.files.readText path)
  if path.hasSuffix ".json" then relabel .json (Json.read text)
  else relabel .ofYaml (surroundings.yaml text)

/-- The members of the document in a file. -/
def Surroundings.members (surroundings : Surroundings) (path : Path) : Except Fault Members := do
  match ← surroundings.value path with
  | .object members => return members
  | _ => .error (.notMapping path.text)

/-- The verdict on the document in a file. A ruleset that is asked for takes the place of the
document's own. -/
def Surroundings.verdict (surroundings : Surroundings) (file : String)
    (ruleset config : Option String) : Except Fault Verdict := do
  let policy ← surroundings.policy config
  let members ← surroundings.members (Path.ofText file)
  let members :=
    match ruleset with
    | some name => Value.setMember "ruleset" (.text name) members
    | none => members
  let document ← relabel .misfit (Document.ofValue (.object members))
  let validation ← relabel .ruleset (document.validate policy)
  return validation.verdict

def showVerdict (file : String) (asJson : Bool) (verdict : Verdict) : Output :=
  { status := if verdict.ok then 0 else 1
    out :=
      if asJson then Json.indented 0 verdict.toValue ++ "\n"
      else "Proof: " ++ file ++ "\n" ++ verdict.report }

def Surroundings.validate (surroundings : Surroundings) (file : String)
    (ruleset config : Option String) (asJson : Bool) : Except Misfit Output :=
  let failure (fault : Fault) : Output :=
    { status := 2, err := "Error: " ++ fault.message ++ "\n" }
  match surroundings.verdict file ruleset config with
  | .ok verdict => .ok (showVerdict file asJson verdict)
  | .error (.misfit found) =>
      if found.isPlain then .ok (failure (.misfit found)) else .error found
  | .error fault => .ok (failure fault)

/-- What is printed of a formula: its canonical form, or what is wrong with it. -/
def showCanonical (text : String) : Output :=
  match Formula.parse false text with
  | .ok formula => { status := 0, out := formula.canonical.render ++ "\n" }
  | .error error =>
      { status := 2
        err := "Error: " ++ Text.quoteString text ++ ": " ++ error.message ++ "\n" }

/-- Outputs one after the other, with the greatest status. -/
def Output.append (first second : Output) : Output :=
  { status := max first.status second.status
    out := first.out ++ second.out
    err := first.err ++ second.err }

def Command.run (surroundings : Surroundings) : Command → Except Misfit Output
  | .validate file ruleset config asJson =>
      surroundings.validate file ruleset config asJson
  | .canon formulas =>
      .ok ((formulas.map showCanonical).foldl Output.append { status := 0 })
  | .rulesets => .ok { status := 0, out := Json.indented 0 Ruleset.catalog ++ "\n" }

def run (surroundings : Surroundings) (texts : List String) : Except Misfit Output :=
  match Command.read texts with
  | .ok command => command.run surroundings
  | .error output => .ok output

def paths (policyFile : Option String) (texts : List String) : List Path :=
  match Command.read texts with
  | .ok (.validate file _ config _) =>
      [Path.ofText (config.getD (policyFile.getD Policy.standardPath)), Path.ofText file]
  | _ => []

end Deduction.CommandLine
