import Deduction.Rule.Basic
import Deduction.Text.Blank
import Deduction.Text.Letter

namespace Deduction

inductive Ruleset
  | tflBasic
  | tflDerived
  | folBasic
  | folDerived
  deriving DecidableEq, Repr

/-- A text that names no ruleset; nothing where no name was given. -/
structure UnknownRuleset where
  name : Option String
  deriving DecidableEq, Repr

namespace Ruleset

/-- Every ruleset, in the order of the catalog. -/
def all : List Ruleset := [.tflBasic, .tflDerived, .folBasic, .folDerived]

def name : Ruleset → String
  | .tflBasic => "tfl_basic"
  | .tflDerived => "tfl_derived"
  | .folBasic => "fol_basic"
  | .folDerived => "fol_derived"

/-- A set with the rules for quantifiers. -/
def isFirstOrder : Ruleset → Bool
  | .tflBasic => false
  | .tflDerived => false
  | .folBasic => true
  | .folDerived => true

/-- The ruleset where none is named. -/
def standard : Ruleset := .tflBasic

def propositional : List Rule :=
  [ .premise, .assumption, .reiteration, .conjunctionIntro, .conjunctionElim, .conditionalElim
  , .modusTollens, .disjunctionIntro, .doubleNegationIntro, .doubleNegationElim
  , .biconditionalIntro, .biconditionalElim, .disjunctionElim, .negationIntro, .deMorgan
  , .explosion, .conditionalIntro, .excludedMiddle, .disjunctiveSyllogism, .indirectProof ]

def quantificational : List Rule :=
  [.universalIntro, .universalElim, .existentialIntro, .existentialElim, .quantifierConversion]

/-- The rules of a set, in the order of the catalog. -/
def rules (ruleset : Ruleset) : List Rule :=
  if ruleset.isFirstOrder then propositional ++ quantificational else propositional

def allows (ruleset : Ruleset) (rule : Rule) : Bool :=
  ruleset.rules.contains rule

/-- The display names of the rules, in alphabetical order. -/
def sortedNames (ruleset : Ruleset) : List String :=
  (ruleset.rules.map Rule.name).mergeSort fun first second => !decide (second < first)

/-- The ruleset of a name, up to case and blanks at the ends. -/
def ofName? (text : String) : Option Ruleset :=
  let key := String.ofList (Text.lower (Text.trim text.toList))
  all.find? fun ruleset => ruleset.name == key

/-- The ruleset that a document names. A missing or empty name means the default. -/
def resolve (name : Option String) (default : String) : Except UnknownRuleset Ruleset :=
  let chosen :=
    match name with
    | some text => if text.isEmpty then default else text
    | none => default
  match ofName? chosen with
  | some ruleset => .ok ruleset
  | none => .error { name }

end Ruleset

/-- The wording, with the name as it was given. -/
def UnknownRuleset.message (error : UnknownRuleset) : String :=
  "Unknown ruleset '" ++ error.name.getD "None" ++
    "' (known: fol_basic, fol_derived, tfl_basic, tfl_derived)"

end Deduction
