import Deduction.Check.Context

namespace Deduction.Check

def premise : Check := fun _ => some .clean

/-- An assumption is always granted; the remark tells whether it opens a subproof. -/
def assumption : Check := fun context =>
  some
    { remark := (Frame.startingAt? context.frames context.position).map fun frame =>
        .opensSubproof frame.level }

def reiteration : Check := fun context =>
  match context.citations with
  | [cited] =>
      match context.formula, cited.formula with
      | some conclusion, some formula =>
          some (.require (conclusion == formula) .reiterationDiffers)
      | _, _ =>
          let same := Formula.sameText cited.text.toList context.text
          some (Finding.require same .reiterationDiffers).textual
  | _ => none

def conjunctionIntro : Check := fun context =>
  match context.citations with
  | [first, second] =>
      let anyOrder := context.conjunctOrder == .any
      match context.formula, first.formula, second.formula with
      | some (.conj left right), some a, some b =>
          let inOrder := left.agrees a && right.agrees b
          let swapped := left.agrees b && right.agrees a
          some (.require (inOrder || (anyOrder && swapped))
            (if anyOrder then .conjunctsDiffer else .conjunctsOutOfOrder))
      | some _, some _, some _ => some (.object .conclusionNotConjunction)
      | _, _, _ =>
          match Formula.conjunctionParts? (Formula.compact context.text) with
          | none => some (Finding.object .textNotConjunction).textual
          | some (left, right) =>
              let a := first.text.toList
              let b := second.text.toList
              let inOrder := Formula.sameText left a && Formula.sameText right b
              let swapped := Formula.sameText left b && Formula.sameText right a
              if inOrder || (anyOrder && swapped) then some Finding.clean.textual
              else
                let atLeft := if Formula.sameText left a then [] else [.leftConjunctDiffers]
                let atRight := if Formula.sameText right b then [] else [.rightConjunctDiffers]
                some { objections := atLeft ++ atRight, approximate := true }
  | _ => none

/-- The line is one side of the cited conjunction. -/
def conjunctionElim : Check := fun context =>
  match context.citations with
  | [cited] =>
      match context.formula, cited.formula with
      | some conclusion, some (.conj left right) =>
          some (.require (conclusion.agrees left || conclusion.agrees right) .notAConjunct)
      | some _, some _ => some (.object .citedNotConjunction)
      | _, _ =>
          match Formula.conjunctionParts? (Formula.compact cited.text.toList) with
          | none => some (Finding.object .citedNotConjunction).textual
          | some (left, right) =>
              let side := Formula.sameText left context.text || Formula.sameText right context.text
              some (Finding.require side .notAConjunct).textual
  | _ => none

/-- The conditional leads from the premise to the conclusion. -/
def detaches (conclusion premise : Formula) : Formula → Bool
  | .imp left right => left.agrees premise && conclusion.agrees right
  | _ => false

/-- The text of the conditional leads from that of the premise to that of the conclusion. -/
def detachesText (conclusion premise conditional : List Char) : Bool :=
  match Formula.implicationParts? (Formula.compact conditional) with
  | some (left, right) => Formula.sameText left premise && Formula.sameText right conclusion
  | none => false

/-- The line is the consequent of one citation, the other being its antecedent. -/
def conditionalElim : Check := fun context =>
  match context.citations with
  | [first, second] =>
      match context.formula, first.formula, second.formula with
      | some conclusion, some a, some b =>
          some (.require (detaches conclusion a b || detaches conclusion b a) .notModusPonens)
      | _, _, _ =>
          let a := first.text.toList
          let b := second.text.toList
          let fits := detachesText context.text a b || detachesText context.text b a
          some (Finding.require fits .notModusPonens).textual
  | _ => none

/-- The denial of the consequent gives the denial of the antecedent. -/
def deniesAntecedent : Formula → Formula → Formula → Bool
  | .neg conclusion, .imp left right, .neg denied => denied.agrees right && conclusion.agrees left
  | _, _, _ => false

/-- The line denies the antecedent of one citation, the other denying its consequent. -/
def modusTollens : Check := fun context =>
  context.whenParsed fun conclusion cited =>
    match cited with
    | [a, b] =>
        some (.require (deniesAntecedent conclusion a b || deniesAntecedent conclusion b a)
          .notModusTollens)
    | _ => none

/-- The two conditionals are the directions of the biconditional, in this order. -/
def areDirections (left right : Formula) : Formula → Formula → Bool
  | .imp a b, .imp c d => a.agrees left && b.agrees right && c.agrees right && d.agrees left
  | _, _ => false

/-- The line joins the two directions cited. -/
def biconditionalIntro : Check := fun context =>
  context.whenParsed fun conclusion cited =>
    match cited with
    | [first, second] =>
        match conclusion, first, second with
        | .iff left right, .imp _ _, .imp _ _ =>
            some (.require
              (areDirections left right first second || areDirections right left first second)
              .directionsDiffer)
        | _, _, _ => some (.object .notTwoConditionals)
    | _ => none

/-- The side of a biconditional opposite to a formula. -/
def otherSide? (side : Formula) : Formula → Option Formula
  | .iff left right =>
      if side.agrees left then some right
      else if side.agrees right then some left
      else none
  | _ => none

/-- The line is the side of one citation opposite to the other citation. -/
def biconditionalElim : Check := fun context =>
  context.whenParsed fun conclusion cited =>
    match cited with
    | [a, b] =>
        let concludes := fun (side biconditional : Formula) =>
          match otherSide? side biconditional with
          | some other => conclusion.agrees other
          | none => false
        some (.require (concludes b a || concludes a b) .notBiconditionalSide)
    | _ => none

/-- The line has the cited one as a side. -/
def disjunctionIntro : Check := fun context =>
  context.whenParsed fun conclusion cited =>
    match cited with
    | [formula] =>
        match conclusion with
        | .disj left right =>
            some (.require (formula.agrees left || formula.agrees right) .notADisjunct)
        | _ => some (.object .conclusionNotDisjunction)
    | _ => none

/-- The line negates the cited one twice. -/
def doubleNegationIntro : Check := fun context =>
  context.whenParsed fun conclusion cited =>
    match cited with
    | [formula] =>
        match conclusion with
        | .neg (.neg operand) => some (.require (operand.agrees formula) .notDoubleNegationOfCited)
        | _ => some (.object .notDoubleNegationOfCited)
    | _ => none

/-- The cited line negates this one twice. -/
def doubleNegationElim : Check := fun context =>
  context.whenParsed fun conclusion cited =>
    match cited with
    | [.neg (.neg operand)] => some (.require (operand.agrees conclusion) .notDoublyNegatedByCited)
    | [_] => some (.object .citedNotDoubleNegation)
    | _ => none

/-- A negated conjunction or disjunction with the negation moved to the sides, or the converse. -/
def deMorganDual? : Formula → Option Formula
  | .neg (.conj left right) => some (.disj (.neg left) (.neg right))
  | .neg (.disj left right) => some (.conj (.neg left) (.neg right))
  | .disj (.neg left) (.neg right) => some (.neg (.conj left right))
  | .conj (.neg left) (.neg right) => some (.neg (.disj left right))
  | _ => none

/-- The second formula is the dual of the first. -/
def isDeMorganDual (source target : Formula) : Bool :=
  match deMorganDual? source with
  | some dual => dual.agrees target
  | none => false

/-- The line and the cited one are dual in one direction. -/
def deMorgan : Check := fun context =>
  context.whenParsed fun conclusion cited =>
    match cited with
    | [formula] =>
        some (.require (isDeMorganDual formula conclusion || isDeMorganDual conclusion formula)
          .notDeMorgan)
    | _ => none

/-- Anything follows from a contradiction, so only the cited line has to be a formula. -/
def explosion : Check := fun context =>
  match context.citations with
  | [cited] =>
      match cited.formula with
      | some formula => some (.require formula.isContradiction .citedNotContradiction)
      | none => some (.object (.unparsed context.unparsedLabels))
  | _ => none

/-- The line is a formula or its negation. -/
def excludedMiddle : Check := fun context =>
  context.whenParsed fun conclusion _ =>
    match conclusion with
    | .disj left right => some (.require (left.contradicts right) .notExcludedMiddle)
    | _ => some (.object .notExcludedMiddle)

/-- The denial of one side of the disjunction leaves the other. If it denies the left side, the
right side has to be concluded. -/
def leavesOther (conclusion : Formula) : Formula → Formula → Bool
  | .disj left right, .neg denied =>
      if denied.agrees left then conclusion.agrees right
      else if denied.agrees right then conclusion.agrees left
      else false
  | _, _ => false

/-- The line is the side of one citation that the other citation leaves. -/
def disjunctiveSyllogism : Check := fun context =>
  context.whenParsed fun conclusion cited =>
    match cited with
    | [a, b] =>
        some (.require (leavesOther conclusion a b || leavesOther conclusion b a)
          .notDisjunctiveSyllogism)
    | _ => none

end Deduction.Check
