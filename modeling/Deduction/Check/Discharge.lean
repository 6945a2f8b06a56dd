import Deduction.Check.Context

namespace Deduction.Check

/-- The first contradiction among citations: a line that is one by itself, else two lines that
contradict each other. The answer tells whether it was found by comparing texts. -/
def contradiction? (citations : List Citation) : Option Bool :=
  if citations.any fun cited => cited.formula.any Formula.isContradiction then some false
  else search citations
where
  /-- Compares two citations. -/
  compare (first second : Citation) : Option Bool :=
    match first.formula, second.formula with
    | some a, some b => if a.contradicts b then some false else none
    | _, _ =>
        if Formula.textContradicts first.text.toList second.text.toList then some true else none
  /-- Compares each citation with those after it. -/
  search : List Citation → Option Bool
    | [] => none
    | first :: rest =>
        match rest.findSome? (compare first) with
        | some textual => some textual
        | none => search rest

/-- Closes a subproof by a contradiction. The candidates are the frames whose assumption fits;
`textual` tells whether texts were compared to find them. -/
def dischargeByContradiction (context : Context) (candidates : List Frame) (textual : Bool)
    (missing : Objection) : Finding :=
  match candidates with
  | [] => { objections := [missing, .noContradiction], approximate := textual }
  | first :: _ =>
      let found := candidates.findSome? fun frame =>
        (contradiction? (context.citationsIn frame)).map fun byText => (frame, byText)
      match found with
      | some (frame, byText) =>
          { remark := some (.assumption frame.startLabel), approximate := textual || byText }
      | none =>
          { objections := [.noContradiction]
            remark := some (.assumption first.startLabel)
            approximate := textual }

/-- The frames that the line may close, each with the statement it assumes. -/
def assumptions? (context : Context) : Option (List (Frame × Sentence)) :=
  context.dischargeable.mapM fun frame =>
    match context.formulas[frame.start]? with
    | some formula => some (frame, { text := frame.assumption.toList, formula })
    | none => none

def negationTarget? (context : Context) : Option Sentence :=
  match context.formula with
  | some (.neg operand) => some (.ofFormula operand)
  | some _ => none
  | none => (Formula.negatedText? context.text).map Sentence.ofText

/-- The line negates the assumption of a subproof that leads to a contradiction. -/
def negationIntro : Check := fun context =>
  match negationTarget? context with
  | none => some (.object .conclusionNotNegation)
  | some target =>
      match assumptions? context with
      | none => none
      | some assumed =>
          let candidates := assumed.filter fun entry => entry.2.agrees target
          let textual := assumed.any fun entry => entry.2.isTextual target
          some (dischargeByContradiction context (candidates.map (·.1)) textual
            .noFrameForAssumption)

/-- An assumption is the negation of a conclusion. The second answer tells whether texts were
compared for it. -/
def assumesDenial (conclusion assumption : Sentence) : Bool × Bool :=
  match assumption.formula, conclusion.formula with
  | some (.neg operand), some formula => (operand.agrees formula, false)
  | some _, some _ => (false, false)
  | _, _ =>
      match Formula.negatedText? assumption.text with
      | some operand => ((Sentence.ofText operand).agrees (.ofText conclusion.text), true)
      | none => (false, false)

/-- The negation of the line, assumed in a subproof, leads to a contradiction. -/
def indirectProof : Check := fun context =>
  match assumptions? context with
  | none => none
  | some assumed =>
      let conclusion : Sentence := { text := context.text, formula := context.formula }
      let candidates := assumed.filter fun entry => (assumesDenial conclusion entry.2).1
      let textual := assumed.any fun entry => (assumesDenial conclusion entry.2).2
      some (dischargeByContradiction context (candidates.map (·.1)) textual .noFrameForNegation)

/-- Antecedent and consequent of the line. -/
def conditionalSides? (context : Context) : Option (Sentence × Sentence) :=
  match context.formula with
  | some (.imp left right) => some (.ofFormula left, .ofFormula right)
  | some _ => none
  | none =>
      (Formula.implicationParts? (Formula.compact context.text)).map fun sides =>
        (.ofText sides.1, .ofText sides.2)

/-- The line closes the subproof that assumes its antecedent and derives its consequent. -/
def conditionalIntro : Check := fun context =>
  match context.citations with
  | [assumed, derived] =>
      match conditionalSides? context with
      | none => some (.object .conclusionNotConditional)
      | some (antecedent, consequent) =>
          match Frame.startingAt? context.frames assumed.position with
          | none => some (.object .noFrameAtCitation)
          | some frame =>
              let assumption : Sentence :=
                { text := frame.assumption.toList, formula := assumed.formula }
              let result : Sentence := { text := derived.text.toList, formula := derived.formula }
              let closing :=
                if context.dischargeable.contains frame then []
                else [.frameNotClosedHere frame.startLabel]
              let inside :=
                if !frame.covers derived.position then [.derivedOutside]
                else if !Frame.isAtLevel context.frames frame derived.position then
                  [.derivedNested]
                else []
              let atLeft := if assumption.agrees antecedent then [] else [.antecedentDiffers]
              let atRight := if result.agrees consequent then [] else [.consequentDiffers]
              some
                { objections := closing ++ inside ++ atLeft ++ atRight
                  remark := some (.discharged frame.startLabel)
                  approximate := assumption.isTextual antecedent || result.isTextual consequent }
  | _ => none

/-- What a citation proves by cases, as assumption and result: the first and the last line of a
subproof that the line under check may close, or the sides of an accessible conditional. The
outer option is missing where the proof lacks a line of the subproof. -/
def caseOf? (context : Context) (cited : Citation) : Option (Option (Formula × Formula)) :=
  let conditional :=
    match cited.formula with
    | some (.imp left right) =>
        if context.canAccess cited.position then some (left, right) else none
    | _ => none
  match Frame.startingAt? context.frames cited.position with
  | none => some conditional
  | some frame =>
      if !context.dischargeable.contains frame then some conditional
      else if !Frame.isAtLevel context.frames frame frame.last then some none
      else
        match context.formulas[frame.start]?, context.formulas[frame.last]? with
        | some assumption, some result =>
            some (assumption.bind fun a => result.map fun c => (a, c))
        | _, _ => none

/-- Each element of a list with the others, in order. -/
def selections {α : Type} : List α → List (α × List α)
  | [] => []
  | first :: rest =>
      (first, rest) :: (selections rest).map fun chosen => (chosen.1, first :: chosen.2)

/-- The disjunction and the two cases prove the conclusion. -/
def casesProve (conclusion : Formula) (disjunction : Citation)
    (first second : Formula × Formula) : Bool :=
  match disjunction.formula with
  | some (.disj left right) =>
      ((first.1.agrees left && second.1.agrees right) ||
          (first.1.agrees right && second.1.agrees left)) &&
        first.2.agrees conclusion && second.2.agrees conclusion
  | _ => false

/-- One citation as the disjunction, the others as its cases. -/
def provesByCases? (context : Context) (conclusion : Formula) (disjunction : Citation)
    (others : List Citation) : Option Bool :=
  match disjunction.formula with
  | some (.disj _ _) =>
      if !context.canAccess disjunction.position then some false
      else
        match others.mapM (caseOf? context) with
        | none => none
        | some [some first, some second] =>
            some (casesProve conclusion disjunction first second)
        | some cases => if cases.any Option.isNone then some false else none
  | _ => some false

/-- The first citation that is a disjunction proved by cases from the others. -/
def findCases? (context : Context) (conclusion : Formula) :
    List (Citation × List Citation) → Option (Option Citation)
  | [] => some none
  | (disjunction, others) :: rest =>
      match provesByCases? context conclusion disjunction others with
      | none => none
      | some true => some (some disjunction)
      | some false => findCases? context conclusion rest

/-- The line follows from both sides of a disjunction. -/
def disjunctionElim : Check := fun context =>
  context.whenParsed fun conclusion _ =>
    match findCases? context conclusion (selections context.citations) with
    | none => none
    | some (some disjunction) => some { remark := some (.caseSplit disjunction.label) }
    | some none => some (.object .noCases)

end Deduction.Check
