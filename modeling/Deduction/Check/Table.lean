import Deduction.Check.Discharge
import Deduction.Check.Propositional
import Deduction.Check.Quantifier

namespace Deduction.Check

def standard : Rule → Check
  | .premise => premise
  | .assumption => assumption
  | .reiteration => reiteration
  | .conjunctionIntro => conjunctionIntro
  | .conjunctionElim => conjunctionElim
  | .conditionalIntro => conditionalIntro
  | .conditionalElim => conditionalElim
  | .modusTollens => modusTollens
  | .disjunctionIntro => disjunctionIntro
  | .disjunctionElim => disjunctionElim
  | .doubleNegationIntro => doubleNegationIntro
  | .doubleNegationElim => doubleNegationElim
  | .biconditionalIntro => biconditionalIntro
  | .biconditionalElim => biconditionalElim
  | .negationIntro => negationIntro
  | .deMorgan => deMorgan
  | .explosion => explosion
  | .excludedMiddle => excludedMiddle
  | .disjunctiveSyllogism => disjunctiveSyllogism
  | .indirectProof => indirectProof
  | .universalIntro => universalIntro
  | .universalElim => universalElim
  | .existentialIntro => existentialIntro
  | .existentialElim => existentialElim
  | .quantifierConversion => quantifierConversion

/-- A table of checks with some of the rules left without one that works. -/
def without (table : Rule → Check) (broken : List Rule) : Rule → Check := fun rule =>
  if broken.contains rule then fun _ => none else table rule

end Deduction.Check
