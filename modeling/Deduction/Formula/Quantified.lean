import Deduction.Formula.Compact
import Deduction.Text.Word

namespace Deduction

inductive Quantifier
  | universal
  | existential
  deriving DecidableEq, Repr

namespace Quantifier

def word : Quantifier → String
  | .universal => "forall"
  | .existential => "exists"

def dual : Quantifier → Quantifier
  | .universal => .existential
  | .existential => .universal

/-- The word of the other quantifier. A word that names none counts as existential. -/
def dualWord (kind : String) : String :=
  if kind == Quantifier.universal.word then Quantifier.existential.word
  else Quantifier.universal.word

/-- Reads a quantifier word at the head of a text. -/
def read? : List Char → Option (Quantifier × List Char)
  | 'f' :: 'o' :: 'r' :: 'a' :: 'l' :: 'l' :: rest => some (.universal, rest)
  | 'e' :: 'x' :: 'i' :: 's' :: 't' :: 's' :: rest => some (.existential, rest)
  | _ => none

end Quantifier

structure Quantified where
  quantifier : Quantifier
  bound : Char
  body : List Char
  deriving DecidableEq, Repr

namespace Quantified

/-- The compact text of a quantified statement. -/
def render (statement : Quantified) : List Char :=
  statement.quantifier.word.toList ++ statement.bound :: '(' :: statement.body ++ [')']

/-- Reads a quantified statement from compact text. The body runs to the last character and is
balanced in itself. -/
def read? (text : List Char) : Option Quantified :=
  match Quantifier.read? text with
  | some (quantifier, bound :: '(' :: rest) =>
      let body := rest.dropLast
      if Text.isLetter bound && rest.getLast? == some ')' && Text.isBalanced body then
        some { quantifier, bound, body }
      else none
  | _ => none

/-- Reads a quantified statement in any spelling. -/
def parse? (text : List Char) : Option Quantified :=
  read? (Formula.compact text)

/-- The word that stands for the bound variable in comparisons; no identifier begins so. -/
def boundWord : List Char := ['_', 'v']

/-- The body with the bound variable replaced. -/
def instantiate (statement : Quantified) (term : List Char) : List Char :=
  Text.replaceWord statement.body [statement.bound] term

/-- Equality of compact texts up to the name of the outermost bound variable. -/
def alphaEqual (first second : List Char) : Bool :=
  let first := Formula.compact first
  let second := Formula.compact second
  first == second ||
    match parse? first, parse? second with
    | some a, some b =>
        a.quantifier == b.quantifier && a.instantiate boundWord == b.instantiate boundWord
    | _, _ => false

/-- The quantifier words, which are no terms. -/
def isQuantifierWord (word : List Char) : Bool :=
  word == Quantifier.universal.word.toList || word == Quantifier.existential.word.toList

/-- The identifiers of a text other than quantifier words, each once, in order of appearance. -/
def terms (text : List Char) : List (List Char) :=
  (Text.identifiers text).foldl
    (fun seen word => if isQuantifierWord word || seen.contains word then seen else seen ++ [word])
    []

/-- The target is the body itself, or the body with the bound word replaced by an identifier that
occurs in the target, both as compact texts. An empty target is no instance. -/
def isInstance (body word target : List Char) : Bool :=
  let body := Formula.compact body
  let target := Formula.compact target
  !target.isEmpty &&
    (body == target || (terms target).any fun term => Text.replaceWord body word term == target)

/-- The text consists of negation signs, an identifier and at most one argument list of word
characters and commas. A final line end is passed over. -/
def isSimple (text : List Char) : Bool :=
  match text.dropWhile (· == '!') with
  | [] => false
  | c :: rest =>
      Text.isLetter c &&
        match rest.dropWhile Text.isWordChar with
        | [] => true
        | ['\n'] => true
        | '(' :: inside =>
            match inside.dropWhile fun d => Text.isWordChar d || d == ',' with
            | [')'] => true
            | [')', '\n'] => true
            | _ => false
        | _ => false

/-- The accepted spellings of the negation of a text. -/
def negations (text : List Char) : List (List Char) :=
  let body := Text.stripOuter text
  let enclosed := '!' :: '(' :: body ++ [')']
  if isSimple body then ['!' :: body, enclosed] else [enclosed]

/-- `negated` is the negation of a quantified statement and `statement` its converse, the dual
quantifier over the negated body. -/
def convertsTo (negated statement : List Char) : Bool :=
  match Formula.compact negated with
  | '!' :: rest =>
      match parse? (Text.stripOuter rest) with
      | some inner =>
          (negations inner.body).any fun body =>
            alphaEqual
              (render { quantifier := inner.quantifier.dual, bound := inner.bound, body })
              statement
      | none => false
  | _ => false

/-- One step of quantifier conversion, in either direction. -/
def isConversion (first second : List Char) : Bool :=
  convertsTo first second || convertsTo second first

end Quantified

end Deduction
