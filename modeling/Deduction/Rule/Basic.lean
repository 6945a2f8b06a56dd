namespace Deduction

/-- A rule that can justify a line. -/
inductive Rule
  | premise
  | assumption
  | reiteration
  | conjunctionIntro
  | conjunctionElim
  | conditionalIntro
  | conditionalElim
  | modusTollens
  | disjunctionIntro
  | disjunctionElim
  | doubleNegationIntro
  | doubleNegationElim
  | biconditionalIntro
  | biconditionalElim
  | negationIntro
  | deMorgan
  | explosion
  | excludedMiddle
  | disjunctiveSyllogism
  | indirectProof
  | universalIntro
  | universalElim
  | existentialIntro
  | existentialElim
  | quantifierConversion
  deriving DecidableEq, Repr

namespace Rule

def all : List Rule :=
  [ .premise, .assumption, .reiteration, .conjunctionIntro, .conjunctionElim, .conditionalIntro
  , .conditionalElim, .modusTollens, .disjunctionIntro, .disjunctionElim, .doubleNegationIntro
  , .doubleNegationElim, .biconditionalIntro, .biconditionalElim, .negationIntro, .deMorgan
  , .explosion, .excludedMiddle, .disjunctiveSyllogism, .indirectProof, .universalIntro
  , .universalElim, .existentialIntro, .existentialElim, .quantifierConversion ]

def name : Rule → String
  | .premise => "Premise"
  | .assumption => "Assumption"
  | .reiteration => "Reiteration"
  | .conjunctionIntro => "Conjunction Intro"
  | .conjunctionElim => "Conjunction Elim"
  | .conditionalIntro => "Conditional Intro"
  | .conditionalElim => "Conditional Elim"
  | .modusTollens => "Modus Tollens"
  | .disjunctionIntro => "Disjunction Intro"
  | .disjunctionElim => "Disjunction Elim"
  | .doubleNegationIntro => "Double Negation Intro"
  | .doubleNegationElim => "Double Negation Elim"
  | .biconditionalIntro => "Biconditional Intro"
  | .biconditionalElim => "Biconditional Elim"
  | .negationIntro => "Negation Intro"
  | .deMorgan => "De Morgan"
  | .explosion => "Explosion"
  | .excludedMiddle => "Excluded Middle"
  | .disjunctiveSyllogism => "Disjunctive Syllogism"
  | .indirectProof => "Indirect Proof"
  | .universalIntro => "Universal Intro"
  | .universalElim => "Universal Elim"
  | .existentialIntro => "Existential Intro"
  | .existentialElim => "Existential Elim"
  | .quantifierConversion => "Conversion of Quantifiers"

def ofName? (name : String) : Option Rule :=
  all.find? fun rule => rule.name == name

theorem mem_all (rule : Rule) : rule ∈ all := by
  cases rule <;> decide

end Rule

/-- How a rule cites: the least and the greatest number of citations, whether it closes a subproof
and so may cite inside it, and whether its check is textual and only approximate. -/
structure Signature where
  least : Nat
  greatest : Option Nat
  discharges : Bool := false
  heuristic : Bool := false
  deriving DecidableEq, Repr

/-- Why a number of citations does not fit. -/
inductive ArityError
  | takesNone
  | exactly (count : Nat)
  | atLeast (count : Nat)
  | atMost (count : Nat)
  deriving DecidableEq, Repr

def ArityError.noun (count : Nat) : String :=
  if count == 1 then "reference" else "references"

/-- The wording, with the name of the rule in front. -/
def ArityError.message (name : String) : ArityError → String
  | .takesNone => name ++ " takes no references"
  | .exactly count =>
      name ++ " needs exactly " ++ toString count ++ " " ++ ArityError.noun count
  | .atLeast count =>
      name ++ " needs at least " ++ toString count ++ " " ++ ArityError.noun count
  | .atMost count => name ++ " accepts at most " ++ toString count ++ " references"

/-- What is wrong with a number of citations, if anything. -/
def Signature.arityError? (signature : Signature) (count : Nat) : Option ArityError :=
  if signature.greatest == some signature.least then
    if count == signature.least then none
    else if signature.least == 0 then some .takesNone
    else some (.exactly signature.least)
  else if count < signature.least then some (.atLeast signature.least)
  else
    match signature.greatest with
    | some greatest => if greatest < count then some (.atMost greatest) else none
    | none => none

def Rule.signature : Rule → Signature
  | .premise => ⟨0, some 0, false, false⟩
  | .assumption => ⟨0, some 0, false, false⟩
  | .reiteration => ⟨1, some 1, false, false⟩
  | .conjunctionIntro => ⟨2, some 2, false, false⟩
  | .conjunctionElim => ⟨1, some 1, false, false⟩
  | .conditionalIntro => ⟨2, some 2, true, false⟩
  | .conditionalElim => ⟨2, some 2, false, false⟩
  | .modusTollens => ⟨2, some 2, false, false⟩
  | .disjunctionIntro => ⟨1, some 1, false, false⟩
  | .disjunctionElim => ⟨3, some 3, true, false⟩
  | .doubleNegationIntro => ⟨1, some 1, false, false⟩
  | .doubleNegationElim => ⟨1, some 1, false, false⟩
  | .biconditionalIntro => ⟨2, some 2, false, false⟩
  | .biconditionalElim => ⟨2, some 2, false, false⟩
  | .negationIntro => ⟨1, none, true, false⟩
  | .deMorgan => ⟨1, some 1, false, false⟩
  | .explosion => ⟨1, some 1, false, false⟩
  | .excludedMiddle => ⟨0, some 0, false, false⟩
  | .disjunctiveSyllogism => ⟨2, some 2, false, false⟩
  | .indirectProof => ⟨1, none, true, false⟩
  | .universalIntro => ⟨1, some 1, false, true⟩
  | .universalElim => ⟨1, some 1, false, true⟩
  | .existentialIntro => ⟨1, some 1, false, true⟩
  | .existentialElim => ⟨2, none, true, true⟩
  | .quantifierConversion => ⟨1, some 1, false, true⟩

end Deduction
