import Deduction.Check.Finding
import Deduction.Formula.Token
import Deduction.Rule.Ruleset

namespace Deduction

inductive Issue
  | labelRequired
  | duplicateLabel (label : String)
  | formulaRequired
  | malformed (error : SyntaxError)
  | unknownRule (name : String)
  | ruleNotAvailable (rule : Rule) (ruleset : Ruleset)
  | citesItself (label : String)
  | citesClosed (label : String)
  | citesForward (label : String)
  | citesNothing (label : String)
  | arity (rule : Rule) (error : ArityError)
  | objection (found : Objection)
  | checkFailed (rule : Rule)
  deriving DecidableEq, Repr

def Issue.message : Issue → String
  | .labelRequired => "Line number required"
  | .duplicateLabel label => "Duplicate line number " ++ label
  | .formulaRequired => "Formula required"
  | .malformed error => "Formula does not parse: " ++ error.message
  | .unknownRule name => "Unknown rule '" ++ name ++ "'"
  | .ruleNotAvailable rule ruleset =>
      "Rule '" ++ rule.name ++ "' is not available in ruleset '" ++ ruleset.name ++ "'"
  | .citesItself label => "Line " ++ label ++ " cannot cite itself"
  | .citesClosed label => closedSubproofMessage label
  | .citesForward label => "Reference " ++ label ++ " is not yet available (forward reference)"
  | .citesNothing label => "Reference " ++ label ++ " does not exist"
  | .arity rule error => error.message rule.name
  | .objection found => found.message
  | .checkFailed rule => "Internal error while checking " ++ rule.name

inductive Warning
  | premiseUnparsed (premise : String)
  | checkFailed (rule : Rule) (label : String)
  deriving DecidableEq, Repr

def Warning.message : Warning → String
  | .premiseUnparsed premise =>
      "Premise " ++ Text.quoteString premise ++ " does not parse; matching it by text"
  | .checkFailed rule label => "Checker for " ++ rule.name ++ " failed on line " ++ label

end Deduction
