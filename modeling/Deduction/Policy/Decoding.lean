import Deduction.Policy
import Deduction.Value.Reading

namespace Deduction

open Value (lookUp?)

inductive PolicyError
  | rootNotMapping
  | sectionNotMapping
  | unknownRuleset (error : UnknownRuleset)
  | workerSettings (misfit : Misfit)
  | tooFewWorkers
  | timeoutNotPositive
  | invalidChoice (shown field : String) (allowed : List String)
  | fileMissing (path : String)
  | fileMalformed (path : String)
  deriving DecidableEq, Repr

def PolicyError.message : PolicyError → String
  | .rootNotMapping => "Configuration root must be a mapping"
  | .sectionNotMapping => "'policies' and 'worker' must be mappings"
  | .unknownRuleset error => error.message
  | .workerSettings misfit => "Invalid worker settings: " ++ misfit.message
  | .tooFewWorkers => "worker.max_workers must be at least 1"
  | .timeoutNotPositive => "worker.timeout_s must be positive"
  | .invalidChoice shown field allowed =>
      "Invalid value " ++ shown ++ " for '" ++ field ++ "' (allowed: " ++
        ", ".intercalate allowed ++ ")"
  | .fileMissing path => "Config file not found at: " ++ path
  | .fileMalformed path => "Error parsing YAML file: " ++ path

/-- What keeps a value from being read as a policy. -/
inductive PolicyFault
  | invalid (error : PolicyError)
  | misfit (misfit : Misfit)
  deriving DecidableEq, Repr

structure Choice (α : Type) where
  field : String
  options : List (String × α)

def UnknownRulePolicy.choice : Choice UnknownRulePolicy :=
  ⟨"policies.unknown_rule", [("accept", .accept), ("reject", .reject)]⟩

def MalformedPolicy.choice : Choice MalformedPolicy :=
  ⟨"policies.malformed_formula", [("strict", .strict), ("placeholder", .placeholder)]⟩

def ConjunctOrder.choice : Choice ConjunctOrder :=
  ⟨"policies.conjunction_order", [("ordered", .ordered), ("any", .any)]⟩

/-- The option that a value names, up to case and blanks at the ends. -/
def Choice.read {α : Type} (choice : Choice α) (default : α) :
    Option Value → Except PolicyFault α
  | none => .ok default
  | some value =>
      match value.displayed with
      | .error misfit => .error (.misfit misfit)
      | .ok text =>
          let name := Text.lowerString (Text.trimString text)
          match choice.options.find? fun option => option.1 == name with
          | some option => .ok option.2
          | none =>
              .error (.invalid
                (.invalidChoice value.shown choice.field (choice.options.map (·.1))))

def flagOr (default : Bool) : Option Value → Bool
  | some value => value.isTruthy
  | none => default

/-- The members of a section. One that is missing or counts as false is empty. -/
def sectionOf (field : Option Value) : Except PolicyFault Members :=
  match field with
  | none => .ok []
  | some (.object members) => .ok members
  | some value => if value.isTruthy then .error (.invalid .sectionNotMapping) else .ok []

/-- The ruleset that a policy names; what counts as false names the standard one. No foreign value
is the name of a ruleset. -/
def defaultRulesetOf (field : Option Value) : Except PolicyFault Ruleset :=
  match field with
  | none => .ok .standard
  | some (.text name) =>
      match Ruleset.resolve (some name) Ruleset.standard.name with
      | .ok ruleset => .ok ruleset
      | .error error => .error (.invalid (.unknownRuleset error))
  | some (.foreign thing) =>
      if !thing.isTruthy then .ok .standard
      else if thing.isTextual then .error (.invalid (.unknownRuleset ⟨some thing.shown⟩))
      else .error (.misfit (.lacksMember (.foreign thing.kindName) "strip"))
  | some value =>
      if value.isTruthy then .error (.misfit (.lacksMember value.kind "strip"))
      else .ok .standard

/-- A number of the worker section. A misfit is an error of the settings unless the number is out
of range. -/
def workerNumber {α : Type} (read : Value → Except Misfit α) (default : α) :
    Option Value → Except PolicyFault α
  | none => .ok default
  | some value =>
      match read value with
      | .ok number => .ok number
      | .error misfit =>
          if misfit.isPlain then .error (.invalid (.workerSettings misfit))
          else .error (.misfit misfit)

/-- The policy of the members of an object. -/
def Policy.ofMembers (members : Members) : Except PolicyFault Policy := do
  let policies ← sectionOf (lookUp? "policies" members)
  let worker ← sectionOf (lookUp? "worker" members)
  let defaultRuleset ← defaultRulesetOf (lookUp? "default_ruleset" members)
  let maxWorkers ← workerNumber Value.toInteger 4 (lookUp? "max_workers" worker)
  let timeout ← workerNumber Value.toReal (.ofInt 10) (lookUp? "timeout_s" worker)
  if maxWorkers < 1 then throw (.invalid .tooFewWorkers)
  if timeout.isNonpositive then throw (.invalid .timeoutNotPositive)
  let unknownRule ← UnknownRulePolicy.choice.read .reject (lookUp? "unknown_rule" policies)
  let malformed ← MalformedPolicy.choice.read .strict (lookUp? "malformed_formula" policies)
  let conjunctOrder ← ConjunctOrder.choice.read .ordered (lookUp? "conjunction_order" policies)
  return {
    unknownRule, malformed, conjunctOrder, defaultRuleset, timeout
    enforceScope := flagOr true (lookUp? "enforce_scope" policies)
    workerEnabled := flagOr true (lookUp? "enabled" worker)
    maxWorkers := maxWorkers.toNat }

/-- The policy that a value describes; null describes the default one. -/
def Policy.ofValue : Value → Except PolicyFault Policy
  | .null => .ok {}
  | .object members => Policy.ofMembers members
  | _ => .error (.invalid .rootNotMapping)

def Choice.nameOf {α : Type} [BEq α] (choice : Choice α) (option : α) : String :=
  ((choice.options.find? fun entry => entry.2 == option).map (·.1)).getD ""

end Deduction
