import Deduction.Formula.Basic
import Deduction.Formula.Spelling
import Deduction.Formula.Token

/-!
Reading formulas.

Equivalence binds weakest and joins to the left; implication joins to the right; then come
disjunction and conjunction, both joining to the left, and negation. An atom is a name, a name
with a list of names in parentheses, or a formula in parentheses.

A lenient reading never fails: a token that starts no formula is taken for the placeholder atom,
and a text that still cannot be read is the placeholder as a whole.
-/

namespace Deduction.Formula

/-- What a reader makes of tokens: a formula and the tokens after it. -/
abbrev Reading := Except SyntaxError (Formula × List Token)

/-- Reads names up to a closing parenthesis, with commas between them. -/
def arguments? : List Token → Option (List String × List Token)
  | ⟨.identifier, name, _⟩ :: ⟨.closeParen, _, _⟩ :: rest => some ([name], rest)
  | ⟨.identifier, name, _⟩ :: ⟨.comma, _, _⟩ :: rest =>
      match arguments? rest with
      | some (names, after) => some (name :: names, after)
      | none => none
  | _ => none

/-- A quantifier word and one letter, which takes no argument list. -/
def isQuantifierPrefix (name : String) : Bool :=
  match name.toList with
  | ['f', 'o', 'r', 'a', 'l', 'l', c] => Text.isLetter c
  | ['e', 'x', 'i', 's', 't', 's', c] => Text.isLetter c
  | _ => false

/-- The name of a predicate application. -/
def applicationName (name : String) (arguments : List String) : String :=
  name ++ "(" ++ ",".intercalate arguments ++ ")"

/-- The atom that a name begins, with its argument list if it has one. -/
def readAtom (name : String) (tokens : List Token) : Formula × List Token :=
  match tokens with
  | ⟨.openParen, _, _⟩ :: rest =>
      if isQuantifierPrefix name then (.atom name, tokens)
      else
        match arguments? rest with
        | some (names, after) => (.atom (applicationName name names), after)
        | none => (.atom name, tokens)
  | _ => (.atom name, tokens)

/-- Reads the closing parenthesis after a formula. -/
def readClose (finish : Nat) (formula : Formula) : List Token → Reading
  | ⟨.closeParen, _, _⟩ :: rest => .ok (formula, rest)
  | token :: _ => .error (.unclosed token.kind token.position)
  | [] => .error (.unclosed .finish finish)

/-- Reads an atom or, by `nested`, a formula in parentheses. -/
def readPrimary (lenient : Bool) (finish : Nat) (nested : List Token → Reading) :
    List Token → Reading
  | [] => if lenient then .ok (placeholder, []) else .error (.unexpectedEnd finish)
  | ⟨.identifier, name, _⟩ :: rest => .ok (readAtom name rest)
  | ⟨.openParen, _, _⟩ :: rest =>
      match nested rest with
      | .ok (formula, after) => readClose finish formula after
      | .error e => .error e
  | token :: rest =>
      if lenient then .ok (placeholder, rest)
      else .error (.unexpectedToken token.text token.position)

/-- Reads negations in front of a primary formula. -/
def readNegation (primary : List Token → Reading) : List Token → Reading
  | ⟨.negation, _, _⟩ :: rest =>
      match readNegation primary rest with
      | .ok (formula, after) => .ok (.neg formula, after)
      | .error e => .error e
  | tokens => primary tokens

/-- Goes on reading operands after `left` while the connective follows. Each round takes a token,
so as many rounds as there are tokens suffice. -/
def readChainFrom (connective : TokenKind) (join : Formula → Formula → Formula)
    (operand : List Token → Reading) : Nat → Formula → List Token → Reading
  | rounds + 1, left, token :: rest =>
      if token.kind == connective then
        match operand rest with
        | .ok (right, after) => readChainFrom connective join operand rounds (join left right) after
        | .error e => .error e
      else .ok (left, token :: rest)
  | _, left, tokens => .ok (left, tokens)

/-- Reads operands joined to the left by one connective. -/
def readLeftChain (connective : TokenKind) (join : Formula → Formula → Formula)
    (operand : List Token → Reading) (tokens : List Token) : Reading :=
  match operand tokens with
  | .ok (first, rest) => readChainFrom connective join operand rest.length first rest
  | .error e => .error e

/-- Reads operands joined to the right by implication, as many as the rounds allow. -/
def readImplicationFrom (operand : List Token → Reading) : Nat → List Token → Reading
  | 0, tokens => operand tokens
  | rounds + 1, tokens =>
      match operand tokens with
      | .ok (left, ⟨.implication, _, _⟩ :: rest) =>
          match readImplicationFrom operand rounds rest with
          | .ok (right, after) => .ok (.imp left right, after)
          | .error e => .error e
      | .ok (left, rest) => .ok (left, rest)
      | .error e => .error e

/-- Reads operands joined to the right by implication. -/
def readImplication (operand : List Token → Reading) (tokens : List Token) : Reading :=
  readImplicationFrom operand tokens.length tokens

/-- Reads a formula whose parentheses nest less deep than the bound. -/
def readWithin (lenient : Bool) (finish : Nat) : Nat → List Token → Reading
  | 0, _ => .error (.unexpectedEnd finish)
  | bound + 1, tokens =>
      let negation := readNegation (readPrimary lenient finish (readWithin lenient finish bound))
      let conjunction := readLeftChain .conjunction .conj negation
      let disjunction := readLeftChain .disjunction .disj conjunction
      readLeftChain .equivalence .iff (readImplication disjunction) tokens

/-- Reads all tokens as one formula; `finish` is the position of the end of the text. Parentheses
nest no deeper than there are tokens. -/
def ofTokens (lenient : Bool) (finish : Nat) (tokens : List Token) : Except SyntaxError Formula :=
  if tokens.isEmpty then .error .empty
  else
    match readWithin lenient finish (tokens.length + 1) tokens with
    | .ok (formula, []) => .ok formula
    | .ok (_, token :: _) => .error (.unexpectedToken token.text token.position)
    | .error e => .error e

def parsePlain (lenient : Bool) (text : List Char) : Except SyntaxError Formula :=
  match Token.scan lenient text with
  | .ok tokens => ofTokens lenient text.length tokens
  | .error e => .error e

/-- Reads a formula in any accepted spelling. -/
def parse (lenient : Bool) (text : String) : Except SyntaxError Formula :=
  match parsePlain lenient (respell text.toList) with
  | .ok formula => .ok formula
  | .error e => if lenient then .ok placeholder else .error e

/-- The formula that a text spells, if it spells one. -/
def parse? (lenient : Bool) (text : String) : Option Formula :=
  (parse lenient text).toOption

end Deduction.Formula
