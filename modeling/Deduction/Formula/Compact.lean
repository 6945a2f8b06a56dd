import Deduction.Formula.Spelling
import Deduction.Text.Blank
import Deduction.Text.Parens
import Deduction.Text.Split

/-!
Formulas as compact text: in the plain alphabet and without blanks.

Where a formula cannot be read as a tree, its text is still compared and taken apart. The splits
respect parentheses and the rank of the connectives, except that a disjunction, a bare letter in
compact text, is never split.

A compact text may be compacted further: without the blank between them two bars spell a
disjunction. So each operation says where it compacts its text.
-/

namespace Deduction.Formula

def compact (text : List Char) : List Char :=
  Text.removeBlanks (respell text)

/-- The compact text without enclosing parentheses. -/
def core (text : List Char) : List Char :=
  Text.stripOuter (compact text)

/-- Nothing is left of the text without blanks. -/
def isBlankText (text : String) : Bool :=
  (compact text.toList).isEmpty

/-- The two sides of an equivalence sign outside parentheses. -/
def splitEquivalence? (text : List Char) : Option (List Char × List Char) :=
  Text.splitTop? text ['<', '-', '>']

/-- Antecedent and consequent of a text whose main connective is an implication. -/
def implicationParts? (text : List Char) : Option (List Char × List Char) :=
  let body := Text.stripOuter text
  if (splitEquivalence? body).isSome then none
  else
    match Text.splitTop? body Text.arrow with
    | some (left, right) => some (Text.stripOuter left, Text.stripOuter right)
    | none => none

/-- The two sides of the last conjunction sign of a text without equivalence and implication
outside parentheses. Chains of conjunctions join to the left, so the last sign is the main one. -/
def conjunctionParts? (text : List Char) : Option (List Char × List Char) :=
  let body := Text.stripOuter text
  if (splitEquivalence? body).isSome || (Text.splitTop? body Text.arrow).isSome then none
  else
    match Text.splitLast? body '^' with
    | some (left, right) => some (Text.stripOuter left, Text.stripOuter right)
    | none => none

/-- Two texts have the same core, and it is not empty. -/
def sameText (first second : List Char) : Bool :=
  !(core first).isEmpty && core first == core second

/-- What a negated text negates; a negation sign alone negates nothing. -/
def negatedText? (text : List Char) : Option (List Char) :=
  match core text with
  | '!' :: c :: rest => some (c :: rest)
  | _ => none

end Deduction.Formula
