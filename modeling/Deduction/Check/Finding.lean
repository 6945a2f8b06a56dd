namespace Deduction

/-- Why a line does not follow by its rule. -/
inductive Objection
  | unparsed (labels : List String)
  | reiterationDiffers
  | conclusionNotConjunction
  | conjunctsDiffer
  | conjunctsOutOfOrder
  | textNotConjunction
  | leftConjunctDiffers
  | rightConjunctDiffers
  | citedNotConjunction
  | notAConjunct
  | notModusPonens
  | notModusTollens
  | notTwoConditionals
  | directionsDiffer
  | notBiconditionalSide
  | conclusionNotNegation
  | noFrameForAssumption
  | noFrameForNegation
  | noContradiction
  | conclusionNotConditional
  | noFrameAtCitation
  | frameNotClosedHere (label : String)
  | derivedOutside
  | derivedNested
  | antecedentDiffers
  | consequentDiffers
  | conclusionNotDisjunction
  | notADisjunct
  | noCases
  | notDoubleNegationOfCited
  | citedNotDoubleNegation
  | notDoublyNegatedByCited
  | notDeMorgan
  | citedNotContradiction
  | notExcludedMiddle
  | notDisjunctiveSyllogism
  | conclusionNotUniversal
  | citedNotInstanceOfUniversal
  | citedNotUniversal
  | conclusionNotInstance
  | conclusionNotExistential
  | citedNotInstanceOfExistential
  | citedClosed (label : String)
  | citedNotExistential
  | notConversion
  deriving DecidableEq, Repr

/-- The wording when a line is cited from outside the closed subproof that holds it. -/
def closedSubproofMessage (label : String) : String :=
  "Line " ++ label ++ " is inside a closed subproof and cannot be cited here"

def Objection.message : Objection → String
  | .unparsed labels =>
      "Cannot analyze: formula on line(s) " ++ ", ".intercalate labels ++ " does not parse"
  | .reiterationDiffers => "Reiteration formula must match referenced line"
  | .conclusionNotConjunction => "Conclusion must be a conjunction A^B"
  | .conjunctsDiffer => "Conjuncts must match the referenced lines"
  | .conjunctsOutOfOrder => "Conjuncts must match referenced lines in order"
  | .textNotConjunction => "Formula must be a conjunction like (A ^ B)"
  | .leftConjunctDiffers => "Left conjunct must match first reference"
  | .rightConjunctDiffers => "Right conjunct must match second reference"
  | .citedNotConjunction => "Referenced line is not a conjunction"
  | .notAConjunct => "Result must be one conjunct of the referenced conjunction"
  | .notModusPonens => "References must be A and (A->B); conclusion must be B"
  | .notModusTollens => "References must be (A->B) and !B; conclusion must be !A"
  | .notTwoConditionals => "Must use two conditionals to conclude a biconditional"
  | .directionsDiffer => "Conditionals must match both directions of the biconditional"
  | .notBiconditionalSide => "One reference must be a biconditional, the other a matching side"
  | .conclusionNotNegation => "¬Intro conclusion must be a negation !A"
  | .noFrameForAssumption => "No subproof frame found for assumption A"
  | .noFrameForNegation => "No subproof frame found with assumption !A"
  | .noContradiction => "No contradiction found inside subproof"
  | .conclusionNotConditional => "→Intro conclusion must be a conditional (A->B)"
  | .noFrameAtCitation => "No subproof frame matches the assumption ref"
  | .frameNotClosedHere label =>
      "Subproof opened at line " ++ label ++ " must close right before this line"
  | .derivedOutside => "Derived line must be inside the subproof"
  | .derivedNested => "Derived line must not lie inside a nested subproof"
  | .antecedentDiffers => "Assumption must match antecedent"
  | .consequentDiffers => "Derived line must match conditional consequent"
  | .conclusionNotDisjunction => "Conclusion must be a disjunction A v B"
  | .notADisjunct => "Referenced line must be one disjunct of the conclusion"
  | .noCases =>
      "Disjunction Elim needs a disjunction A v B and a case for each disjunct concluding C"
  | .notDoubleNegationOfCited => "Conclusion must be !!A where A is the referenced line"
  | .citedNotDoubleNegation => "Referenced line must be a double negation !!A"
  | .notDoublyNegatedByCited => "Conclusion must be A from the referenced !!A"
  | .notDeMorgan => "Conclusion must follow from the reference by a De Morgan law"
  | .citedNotContradiction => "Referenced line must be a contradiction A ^ !A"
  | .notExcludedMiddle => "Conclusion must have the form A v !A"
  | .notDisjunctiveSyllogism => "References must be (A v B) and !A; conclusion must be B"
  | .conclusionNotUniversal => "Universal Intro: conclusion must be forallx(P(x))"
  | .citedNotInstanceOfUniversal => "Reference must match body up to alpha-equivalence"
  | .citedNotUniversal => "Reference must be forallx(P(x))"
  | .conclusionNotInstance => "Conclusion must be instance of body (capture-avoiding)"
  | .conclusionNotExistential => "Conclusion must be existsx(P(x))"
  | .citedNotInstanceOfExistential => "Reference must be instance of body"
  | .citedClosed label => closedSubproofMessage label
  | .citedNotExistential => "First reference must be existsx(P(x))"
  | .notConversion =>
      "Conclusion must convert the referenced quantifier " ++
        "(!forallx <-> existsx!, !existsx <-> forallx!)"

/-- What a verdict tells beside the rule and the citations. -/
inductive Remark
  | opensSubproof (level : Nat)
  | discharged (label : String)
  | assumption (label : String)
  | caseSplit (label : String)
  | acceptedUnchecked
  deriving DecidableEq, Repr

def Remark.message : Remark → String
  | .opensSubproof level => "Opens subproof at depth " ++ toString level
  | .discharged label => "Discharged @" ++ label
  | .assumption label => "Assumption @" ++ label
  | .caseSplit label => "Cases on line " ++ label
  | .acceptedUnchecked => "Unrecognized rule accepted without checking"

structure Finding where
  objections : List Objection := []
  remark : Option Remark := none
  approximate : Bool := false
  deriving DecidableEq, Repr

namespace Finding

def clean : Finding := {}

def object (objection : Objection) : Finding := { objections := [objection] }

/-- An objection unless a condition holds. -/
def require (condition : Bool) (objection : Objection) : Finding :=
  if condition then clean else object objection

/-- The same finding, from a textual comparison. -/
def textual (finding : Finding) : Finding := { finding with approximate := true }

end Finding

end Deduction
