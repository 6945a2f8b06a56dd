import Deduction.Number.Binary64
import Deduction.Rule.Ruleset

namespace Deduction

/-- What becomes of a line whose rule has an unknown name. -/
inductive UnknownRulePolicy
  | accept
  | reject
  deriving DecidableEq, Repr

/-- How a formula is read: exactly, or with placeholders for what cannot be read. -/
inductive MalformedPolicy
  | strict
  | placeholder
  deriving DecidableEq, Repr

/-- Whether a conjunction is introduced from its citations in their order or in any. -/
inductive ConjunctOrder
  | ordered
  | any
  deriving DecidableEq, Repr

/-- The settings of a validation and of its worker, as they are loaded: the default ruleset is a
known one. -/
structure Policy where
  unknownRule : UnknownRulePolicy := .reject
  malformed : MalformedPolicy := .strict
  conjunctOrder : ConjunctOrder := .ordered
  enforceScope : Bool := true
  defaultRuleset : Ruleset := .standard
  workerEnabled : Bool := true
  maxWorkers : Nat := 4
  timeout : Binary64 := .ofInt 10
  deriving DecidableEq, Repr

/-- Formulas are read with placeholders. -/
def Policy.lenient (policy : Policy) : Bool :=
  policy.malformed == .placeholder

end Deduction
