import Deduction.Check.Finding
import Deduction.Formula.Canonical
import Deduction.Formula.Quantified
import Deduction.Policy
import Deduction.Proof.Frame

namespace Deduction

/-- A cited line, with its formula where the text spells one. -/
structure Citation where
  label : String
  position : Nat
  text : String
  formula : Option Formula
  deriving DecidableEq, Repr

/-- The line under check, its citations, and the proof around it. `formulas` has the formula of
every line of the proof, missing where the text spells none. -/
structure Context where
  position : Nat
  line : Line
  formula : Option Formula
  citations : List Citation
  frames : List Frame
  formulas : List (Option Formula)
  conjunctOrder : ConjunctOrder

abbrev Check := Context → Option Finding

namespace Context

def text (context : Context) : List Char :=
  context.line.formula.toList

/-- The labels of the lines whose text spells no formula, the line under check first. -/
def unparsedLabels (context : Context) : List String :=
  let cited := (context.citations.filter fun citation => citation.formula.isNone).map (·.label)
  if context.formula.isNone then context.line.label :: cited else cited

/-- Judges by the formulas of the line and its citations; objects if one of them is missing. -/
def whenParsed (context : Context) (judge : Formula → List Formula → Option Finding) :
    Option Finding :=
  match context.formula, context.citations.mapM (·.formula) with
  | some conclusion, some cited => judge conclusion cited
  | _, _ => some (.object (.unparsed context.unparsedLabels))

/-- The frames that the line under check may close. -/
def dischargeable (context : Context) : List Frame :=
  Frame.dischargedAt context.frames context.position context.line.depth

/-- A line of the proof is accessible from the line under check. -/
def canAccess (context : Context) (position : Nat) : Bool :=
  Frame.isAccessible context.frames position context.position

/-- The citations that lie in a frame and in none nested deeper. -/
def citationsIn (context : Context) (frame : Frame) : List Citation :=
  context.citations.filter fun citation =>
    Frame.isAtLevel context.frames frame citation.position

end Context

/-- A statement by its text and, where the text spells one, its formula. -/
structure Sentence where
  text : List Char
  formula : Option Formula

namespace Sentence

def ofFormula (formula : Formula) : Sentence :=
  { text := formula.render.toList, formula := some formula }

/-- The statement of a text that spells no formula. -/
def ofText (text : List Char) : Sentence :=
  { text, formula := none }

/-- Two statements agree: as formulas where both are, by their texts otherwise. -/
def agrees (first second : Sentence) : Bool :=
  match first.formula, second.formula with
  | some a, some b => a.agrees b
  | _, _ => Quantified.alphaEqual (Formula.core first.text) (Formula.core second.text)

/-- The comparison of two statements is one of texts. -/
def isTextual (first second : Sentence) : Bool :=
  !(first.formula.isSome && second.formula.isSome)

end Sentence

namespace Formula

/-- The first formula is the negation of the second, up to canonical form. -/
def negates : Formula → Formula → Bool
  | .neg operand, other => operand.agrees other
  | _, _ => false

/-- One formula is the negation of the other, up to canonical form. -/
def contradicts (first second : Formula) : Bool :=
  first.negates second || second.negates first

/-- A conjunction of a formula and its negation. -/
def isContradiction : Formula → Bool
  | .conj left right => left.contradicts right
  | _ => false

/-- The first text is the negation of the second. -/
def textNegates (first second : List Char) : Bool :=
  match negatedText? first with
  | some operand => Quantified.alphaEqual (Text.stripOuter operand) (core second)
  | none => false

/-- One text is the negation of the other. -/
def textContradicts (first second : List Char) : Bool :=
  textNegates first second || textNegates second first

end Formula

end Deduction
