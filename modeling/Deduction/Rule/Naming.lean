import Deduction.Rule.Basic
import Deduction.Text.Blank
import Deduction.Text.Letter
import Deduction.Text.Replace

namespace Deduction.Rule

/-- The symbols and the words that stand for them in keys, in the order of replacement. -/
def symbolWords : List (List Char × List Char) :=
  [ ("<->".toList, "bicond".toList)
  , ("↔".toList, "bicond".toList)
  , ("->".toList, "cond".toList)
  , ("→".toList, "cond".toList)
  , ("⊃".toList, "cond".toList)
  , ("∧".toList, "and".toList)
  , ("&".toList, "and".toList)
  , ("^".toList, "and".toList)
  , ("∨".toList, "or".toList)
  , ("¬".toList, "not".toList)
  , ("~".toList, "not".toList)
  , ("!".toList, "not".toList)
  , ("∀".toList, "forall".toList)
  , ("∃".toList, "exists".toList) ]

/-- The characters that keys are made of. -/
def isKeyChar (c : Char) : Bool :=
  (97 ≤ c.toNat && c.toNat ≤ 122) || Text.isDigit c

def spellOut (text : List Char) : List Char :=
  symbolWords.foldl (fun current entry => Text.replaceAll entry.1 entry.2 current) text

def nameKey (text : String) : String :=
  let bare := (spellOut (Text.lower (Text.trim text.toList))).filter isKeyChar
  let short := Text.replaceAll "introduction".toList "intro".toList bare
  String.ofList (Text.replaceAll "elimination".toList "elim".toList short)

def keys : Rule → List String
  | .premise => ["", "premise", "pr", "given"]
  | .assumption => ["assumption", "assume", "as", "hyp", "hypothesis"]
  | .reiteration => ["reiteration", "reit", "r"]
  | .conjunctionIntro => ["conjunctionintro", "andintro", "andi", "ci", "conj"]
  | .conjunctionElim =>
      ["conjunctionelim", "andelim", "ande", "ce", "simp", "simplification"]
  | .conditionalIntro => ["conditionalintro", "condintro", "condi", "cp", "conditionalproof"]
  | .conditionalElim => ["conditionalelim", "condelim", "conde", "mp", "modusponens"]
  | .modusTollens => ["modustollens", "mt"]
  | .disjunctionIntro => ["disjunctionintro", "orintro", "ori", "di", "addition", "add"]
  | .disjunctionElim => ["disjunctionelim", "orelim", "ore", "de", "proofbycases"]
  | .doubleNegationIntro => ["doublenegationintro", "dni", "notnoti"]
  | .doubleNegationElim => ["doublenegationelim", "dne", "dn", "notnote"]
  | .biconditionalIntro => ["biconditionalintro", "bicondintro", "bicondi", "bi", "iffi"]
  | .biconditionalElim => ["biconditionalelim", "bicondelim", "biconde", "be", "iffe"]
  | .negationIntro => ["negationintro", "notintro", "noti", "ni"]
  | .deMorgan => ["demorgan", "demorgans", "dem", "dm"]
  | .explosion => ["explosion", "x", "efq", "exfalso"]
  | .excludedMiddle => ["excludedmiddle", "lem", "em"]
  | .disjunctiveSyllogism => ["disjunctivesyllogism", "ds"]
  | .indirectProof => ["indirectproof", "ip", "raa", "reductio"]
  | .universalIntro => ["universalintro", "foralli", "ui", "ug"]
  | .universalElim => ["universalelim", "foralle", "ue"]
  | .existentialIntro => ["existentialintro", "existsi", "ei", "eg"]
  | .existentialElim => ["existentialelim", "existse", "ee"]
  | .quantifierConversion => ["conversionofquantifiers", "quantifierconversion", "cq"]

/-- The rule that a key names; no key names two. -/
def ofKey? (key : String) : Option Rule :=
  all.find? fun rule => rule.keys.contains key

/-- The rule that a free-form name means. -/
def parse? (text : String) : Option Rule :=
  ofKey? (nameKey text)

end Deduction.Rule
