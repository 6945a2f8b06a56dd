import Deduction.Check.Table
import Deduction.Formula.Parser
import Deduction.Rule.Naming
import Deduction.Validation.Issue
import Deduction.Validation.Verdict

/-!
Validation of proofs, line by line.

Each line is judged by the lines before it and the frames of the whole proof, whatever became of
other lines. A line is accepted when nothing is wrong with it: it has a label of its own and a
formula, its rule is known and available, its citations name earlier lines in scope, as many as
the rule takes, and the check of the rule objects to nothing.
-/

namespace Deduction

/-- A proof under validation. -/
structure Trial where
  policy : Policy
  ruleset : Ruleset
  checks : Rule → Check
  lines : List Line
  formulas : List (Option Formula)
  frames : List Frame

/-- A rule by its name, or the name where it is that of no rule. -/
inductive NamedRule
  | known (rule : Rule)
  | unknown (name : String)
  deriving DecidableEq, Repr

/-- The name of a rule, or the name that was given. -/
def NamedRule.name : NamedRule → String
  | .known rule => rule.name
  | .unknown name => name

structure Judgement where
  line : Line
  rule : NamedRule
  issues : List Issue
  remark : Option Remark := none
  approximate : Bool := false
  deriving DecidableEq, Repr

namespace Judgement

def accepted (judgement : Judgement) : Bool :=
  judgement.issues.isEmpty

def verdict (judgement : Judgement) : LineVerdict :=
  { label := judgement.line.label
    ok := judgement.accepted
    messages := judgement.issues.map Issue.message
    evidence := some
      { rule := judgement.rule.name
        citations := judgement.line.citations
        info := judgement.remark.map Remark.message
        approximate := judgement.approximate } }

/-- The warnings that a judgement gives rise to. -/
def warnings (judgement : Judgement) : List Warning :=
  judgement.issues.filterMap fun issue =>
    match issue with
    | .checkFailed rule => some (.checkFailed rule judgement.line.label)
    | _ => none

end Judgement

namespace Trial

def ofLines (policy : Policy) (ruleset : Ruleset) (checks : Rule → Check) (lines : List Line) :
    Trial :=
  { policy, ruleset, checks, lines
    formulas := lines.map fun line => Formula.parse? policy.lenient line.formula
    frames := Frame.ofLines lines }

/-- The first line before a position that carries a label. The empty label names no line. -/
def labelled? (trial : Trial) (position : Nat) (label : String) : Option Nat :=
  if label.isEmpty then none
  else (trial.lines.take position).findIdx? fun line => line.label == label

/-- Some line of the proof carries a label. -/
def hasLabel (trial : Trial) (label : String) : Bool :=
  !label.isEmpty && trial.lines.any fun line => line.label == label

/-- The line that a label cites, or what is wrong with citing it. -/
def cite (trial : Trial) (position : Nat) (line : Line) (discharges : Bool) (label : String) :
    Except Issue Citation :=
  if !line.label.isEmpty && label == line.label then .error (.citesItself label)
  else
    match trial.labelled? position label with
    | some cited =>
        if trial.policy.enforceScope && !discharges &&
            !Frame.isAccessible trial.frames cited position then
          .error (.citesClosed label)
        else
          .ok
            { label
              position := cited
              text := (trial.lines[cited]?.map (·.formula)).getD ""
              formula := trial.formulas[cited]?.join }
    | none =>
        if trial.hasLabel label then .error (.citesForward label) else .error (.citesNothing label)

/-- The citations of a line that were resolved. -/
def resolved (outcomes : List (Except Issue Citation)) : List Citation :=
  outcomes.filterMap Except.toOption

/-- What is wrong with the citations of a line. -/
def citationIssues (outcomes : List (Except Issue Citation)) : List Issue :=
  outcomes.filterMap fun outcome =>
    match outcome with
    | .ok _ => none
    | .error issue => some issue

/-- The formula of a line. A blank text is none, even where blanks could be read leniently. -/
def formulaOf? (trial : Trial) (line : Line) : Option Formula :=
  if Formula.isBlankText line.formula then none
  else Formula.parse? trial.policy.lenient line.formula

/-- What is wrong with the label of a line. -/
def labelIssues (trial : Trial) (position : Nat) (line : Line) : List Issue :=
  if line.label.isEmpty then [.labelRequired]
  else if (trial.labelled? position line.label).isSome then [.duplicateLabel line.label]
  else []

/-- What is wrong with the formula of a line. First-order texts need not be formulas. -/
def formulaIssues (trial : Trial) (line : Line) : List Issue :=
  if Formula.isBlankText line.formula then [.formulaRequired]
  else
    match Formula.parse trial.policy.lenient line.formula with
    | .ok _ => []
    | .error error => if trial.ruleset.isFirstOrder then [] else [.malformed error]

/-- What the check of a rule may consult about a line. -/
def context (trial : Trial) (position : Nat) (line : Line) (citations : List Citation) : Context :=
  { position, line, citations
    formula := trial.formulaOf? line
    frames := trial.frames
    formulas := trial.formulas
    conjunctOrder := trial.policy.conjunctOrder }

/-- Applies a rule to a line. The check is run only if the citations are in order. -/
def apply (trial : Trial) (position : Nat) (line : Line) (rule : Rule) : Judgement :=
  let outcomes := line.citations.map (trial.cite position line rule.signature.discharges)
  let arity := (rule.signature.arityError? line.citations.length).map (Issue.arity rule)
  let issues := citationIssues outcomes ++ arity.toList
  if !issues.isEmpty then { line, rule := .known rule, issues }
  else
    match trial.checks rule (trial.context position line (resolved outcomes)) with
    | some finding =>
        { line
          rule := .known rule
          issues := finding.objections.map Issue.objection
          remark := finding.remark
          approximate := finding.approximate || rule.signature.heuristic }
    | none =>
        { line
          rule := .known rule
          issues := [.checkFailed rule]
          approximate := rule.signature.heuristic }

def justify (trial : Trial) (position : Nat) (line : Line) : Judgement :=
  match Rule.parse? line.rule with
  | none =>
      let name := Text.trimString line.rule
      match trial.policy.unknownRule with
      | .accept =>
          { line, rule := .unknown name, issues := [], remark := some .acceptedUnchecked }
      | .reject => { line, rule := .unknown name, issues := [.unknownRule name] }
  | some rule =>
      if trial.ruleset.allows rule then trial.apply position line rule
      else { line, rule := .known rule, issues := [.ruleNotAvailable rule trial.ruleset] }

def judge (trial : Trial) (position : Nat) (line : Line) : Judgement :=
  let justified := trial.justify position line
  { justified with
    issues := trial.labelIssues position line ++ trial.formulaIssues line ++ justified.issues }

def judgements (trial : Trial) : List Judgement :=
  trial.lines.mapIdx trial.judge

end Trial

/-- What a text states, for telling whether it was established: its formula up to canonical form,
or its core where it spells none. -/
inductive Standing
  | formula (key : String)
  | text (core : List Char)
  deriving DecidableEq, Repr

def Standing.ofText (lenient : Bool) (text : String) : Standing :=
  match Formula.parse? lenient text with
  | some parsed => .formula parsed.canonicalKey
  | none => .text (Formula.core text.toList)

structure Validation where
  judgements : List Judgement
  frames : List Frame
  concluded : Bool
  conclusionReached : Bool
  warnings : List Warning

namespace Validation

/-- Every line is accepted, and a conclusion is stated. -/
def ok (validation : Validation) : Bool :=
  validation.judgements.all Judgement.accepted && validation.concluded

def verdict (validation : Validation) : Verdict :=
  { ok := validation.ok
    lines := validation.judgements.map Judgement.verdict
    frames := validation.frames
    conclusionReached := validation.conclusionReached }

/-- What is established and at which depth: the premises at the top, accepted lines at theirs. -/
def established (lenient : Bool) (premises : List String) (judgements : List Judgement) :
    List (Standing × Int) :=
  ((premises.filter fun premise => !Formula.isBlankText premise).map fun premise =>
      (Standing.ofText lenient premise, 0)) ++
    ((judgements.filter Judgement.accepted).map fun judgement =>
      (Standing.ofText lenient judgement.line.formula, judgement.line.depth))

/-- The least depth at which something is established. -/
def shallowest? (entries : List (Standing × Int)) (standing : Standing) : Option Int :=
  ((entries.filter fun entry => entry.1 == standing).map (·.2)).min?

/-- A conclusion counts as reached when it is stated and the least depth at which it is
established is the top. -/
def reaches (lenient : Bool) (entries : List (Standing × Int)) (conclusion : String) : Bool :=
  !Formula.isBlankText conclusion &&
    shallowest? entries (.ofText lenient conclusion) == some 0

/-- The premises that spell no formula, outside first-order logic. -/
def premiseWarnings (policy : Policy) (ruleset : Ruleset) (premises : List String) :
    List Warning :=
  if ruleset.isFirstOrder then []
  else
    (premises.filter fun premise =>
      !Formula.isBlankText premise && (Formula.parse? policy.lenient premise).isNone).map
      Warning.premiseUnparsed

def run (policy : Policy) (checks : Rule → Check) (ruleset : Ruleset) (premises : List String)
    (conclusion : String) (lines : List Line) : Validation :=
  let judgements := (Trial.ofLines policy ruleset checks lines).judgements
  let entries := established policy.lenient premises judgements
  { judgements
    frames := Frame.ofLines lines
    concluded := !(Text.trim conclusion.toList).isEmpty
    conclusionReached := reaches policy.lenient entries conclusion
    warnings :=
      premiseWarnings policy ruleset premises ++ judgements.flatMap Judgement.warnings }

end Validation

/-- Validates a document with a table of checks. -/
def Document.validateWith (checks : Rule → Check) (policy : Policy) (document : Document) :
    Except UnknownRuleset Validation :=
  match Ruleset.resolve document.ruleset policy.defaultRuleset.name with
  | .ok ruleset =>
      .ok (Validation.run policy checks ruleset document.premises document.conclusion
        document.lines)
  | .error error => .error error

def Document.validate (policy : Policy) (document : Document) :
    Except UnknownRuleset Validation :=
  document.validateWith Check.standard policy

end Deduction
