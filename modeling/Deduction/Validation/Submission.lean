import Deduction.Formula.Spelling
import Deduction.Proof.Decoding
import Deduction.Validation.Basic

namespace Deduction

open Value (lookUp?)

/-- A line of a submission: a description of one, or a line taken as it is. -/
inductive SubmittedLine
  | described (value : Value)
  | asGiven (line : Line)

/-- A proof whose parts are dynamic values. -/
structure Submission where
  premises : Value
  conclusion : Value
  lines : List SubmittedLine
  ruleset : Value

/-- Why a submission cannot be validated. -/
inductive SubmissionFault
  | misfit (misfit : Misfit)
  | unknownRuleset (error : UnknownRuleset)
  deriving DecidableEq, Repr

def SubmittedLine.line : SubmittedLine → Except Misfit Line
  | .described value => Line.ofValue value
  | .asGiven line => .ok line

/-- A list of values holds a spelling of a connective. -/
def holdsSpelling (items : List Value) : Bool :=
  Formula.spellings.any fun spelling =>
    items.any fun item =>
      match item with
      | .text value => value.toList == spelling.1
      | _ => false

/-- The text of a part of which the formula is wanted; nothing if the part counts as false. -/
def statedText (value : Value) : Except Misfit String :=
  match value with
  | .text text => .ok text
  | .list items =>
      if items.isEmpty then .ok ""
      else .error (.lacksMember .list (if holdsSpelling items then "replace" else "split"))
  | .object members =>
      if members.isEmpty then .ok ""
      else
        .error (.lacksMember .object
          (if holdsSpelling (members.map fun member => .scalar member.1) then "replace"
          else "split"))
  | value => if value.isTruthy then .error (.notContainer value.kind) else .ok ""

/-- The ruleset that a submission names. -/
def submittedRuleset (default : String) (value : Value) : Except SubmissionFault Ruleset :=
  let name : Except SubmissionFault (Option String) :=
    match value with
    | .text text => .ok (some text)
    | value =>
        if value.isTruthy then .error (.misfit (.lacksMember value.kind "strip")) else .ok none
  match name with
  | .error fault => .error fault
  | .ok name =>
      match Ruleset.resolve name default with
      | .ok ruleset => .ok ruleset
      | .error error => .error (.unknownRuleset error)

/-- A misfit as a fault of a submission. -/
def misfits {α : Type} : Except Misfit α → Except SubmissionFault α
  | .ok value => .ok value
  | .error misfit => .error (.misfit misfit)

/-- A conclusion that is no text is missed only when everything else is accepted. -/
def concludes (validation : Validation) (conclusion : Value) :
    Except SubmissionFault Validation :=
  match conclusion with
  | .text _ => .ok validation
  | value =>
      if validation.judgements.all Judgement.accepted then
        .error (.misfit (.lacksMember value.kind "strip"))
      else .ok validation

/-- Validates a submission with a table of checks. -/
def Submission.validateWith (checks : Rule → Check) (policy : Policy) (submission : Submission) :
    Except SubmissionFault Validation := do
  let lines ← misfits (submission.lines.mapM SubmittedLine.line)
  let premises ← misfits submission.premises.elements
  let ruleset ← submittedRuleset policy.defaultRuleset.name submission.ruleset
  let premises ← misfits (premises.mapM statedText)
  let conclusion ← misfits (statedText submission.conclusion)
  concludes (Validation.run policy checks ruleset premises conclusion lines)
    submission.conclusion

end Deduction
