import Deduction.Formula.Parser

/-!
Reading formulas by an index into their tokens.

The tokens are all there at once, with the end of the text as the last of them, and a reader moves
an index over them. To look beyond the last token is a failure of its own, and so is to go on for
more rounds than there are tokens left.
-/

namespace Deduction.Formula.Cursor

inductive Failure
  | refused (error : SyntaxError)
  | mismatch (wanted found : TokenKind) (position : Nat)
  | overrun (index : Nat)
  deriving DecidableEq, Repr

/-- A syntax error as a failure. An unclosed parenthesis is a token of another kind than wanted. -/
def Failure.ofError : SyntaxError → Failure
  | .unclosed found position => .mismatch .closeParen found position
  | error => .refused error

/-- What a reader makes of tokens: a formula and the index after it. -/
abbrev Reading := Except Failure (Formula × Nat)

section Tokens

variable (tokens : List Token)

def current (index : Nat) : Except Failure Token :=
  match tokens[index]? with
  | some token => .ok token
  | none => .error (.overrun index)

/-- The token at a distance from the index, or the last one if they are not that many. -/
def peek (index offset : Nat) : Except Failure Token :=
  current tokens (min (index + offset) (tokens.length - 1))

/-- Steps over a token of the kind that is wanted. -/
def consume (kind : TokenKind) (index : Nat) : Except Failure Nat := do
  let token ← current tokens index
  if token.kind == kind then return index + 1
  else throw (.mismatch kind token.kind token.position)

/-- Looks for names with commas between them and a closing parenthesis after them, from an offset
on. Nothing is stepped over if that is not what is there. -/
def argumentsFrom (index : Nat) : Nat → Nat → Except Failure (Option (List String × Nat))
  | 0, offset => throw (.overrun (index + offset))
  | rounds + 1, offset => do
      let token ← peek tokens index offset
      if token.kind != .identifier || token.text == "v" then return none
      else
        let separator ← peek tokens index (offset + 1)
        if separator.kind == .closeParen then return some ([token.text], index + (offset + 2))
        else if separator.kind != .comma then return none
        else
          match ← argumentsFrom index rounds (offset + 2) with
          | some (names, after) => return some (token.text :: names, after)
          | none => return none

/-- The argument list of a name, if it has one. -/
def arguments? (name : String) (index : Nat) : Except Failure (Option (List String × Nat)) := do
  let token ← current tokens index
  if token.kind != .openParen || isQuantifierPrefix name then return none
  else argumentsFrom tokens index tokens.length 1

/-- The atom that a name begins, with its argument list if it has one. -/
def readAtom (name : String) (index : Nat) : Reading := do
  match ← arguments? tokens name index with
  | some (names, after) => return (.atom (applicationName name names), after)
  | none => return (.atom name, index)

/-- Reads an atom or, by `nested`, a formula in parentheses. -/
def readPrimary (lenient : Bool) (nested : Nat → Reading) (index : Nat) : Reading := do
  let token ← current tokens index
  if token.kind == .identifier then
    let next ← consume tokens .identifier index
    readAtom tokens token.text next
  else if token.kind == .openParen then
    let next ← consume tokens .openParen index
    let (formula, after) ← nested next
    let last ← consume tokens .closeParen after
    return (formula, last)
  else if lenient then
    return (placeholder, if token.kind != .finish then index + 1 else index)
  else if token.kind == .finish then throw (.refused (.unexpectedEnd token.position))
  else throw (.refused (.unexpectedToken token.text token.position))

/-- Reads negations in front of a primary formula. -/
def readNegationFrom (primary : Nat → Reading) : Nat → Nat → Reading
  | 0, index => throw (.overrun index)
  | rounds + 1, index => do
      let token ← current tokens index
      if token.kind == .negation then
        let next ← consume tokens .negation index
        let (formula, after) ← readNegationFrom primary rounds next
        return (.neg formula, after)
      else primary index

def readNegation (primary : Nat → Reading) (index : Nat) : Reading :=
  readNegationFrom tokens primary (tokens.length - index) index

/-- Goes on reading operands after `left` while the connective follows. -/
def readChainFrom (connective : TokenKind) (join : Formula → Formula → Formula)
    (operand : Nat → Reading) : Nat → Formula → Nat → Reading
  | 0, _, index => throw (.overrun index)
  | rounds + 1, left, index => do
      let token ← current tokens index
      if token.kind == connective then
        let next ← consume tokens connective index
        let (right, after) ← operand next
        readChainFrom connective join operand rounds (join left right) after
      else return (left, index)

/-- Reads operands joined to the left by one connective. -/
def readLeftChain (connective : TokenKind) (join : Formula → Formula → Formula)
    (operand : Nat → Reading) (index : Nat) : Reading := do
  let (first, next) ← operand index
  readChainFrom tokens connective join operand (tokens.length - next) first next

/-- Reads operands joined to the right by implication. -/
def readImplicationFrom (operand : Nat → Reading) : Nat → Nat → Reading
  | 0, index => throw (.overrun index)
  | rounds + 1, index => do
      let (left, next) ← operand index
      let token ← current tokens next
      if token.kind == .implication then
        let next ← consume tokens .implication next
        let (right, after) ← readImplicationFrom operand rounds next
        return (.imp left right, after)
      else return (left, next)

def readImplication (operand : Nat → Reading) (index : Nat) : Reading :=
  readImplicationFrom tokens operand (tokens.length - index) index

/-- Reads a formula whose parentheses nest less deep than the bound. -/
def readWithin (lenient : Bool) : Nat → Nat → Reading
  | 0, index => throw (.overrun index)
  | bound + 1, index =>
      let negation := readNegation tokens (readPrimary tokens lenient (readWithin lenient bound))
      let conjunction := readLeftChain tokens .conjunction .conj negation
      let disjunction := readLeftChain tokens .disjunction .disj conjunction
      readLeftChain tokens .equivalence .iff (readImplication tokens disjunction) index

def read (lenient : Bool) : Except Failure Formula := do
  let first ← current tokens 0
  if first.kind == .finish then throw (.refused .empty)
  else
    let (formula, index) ← readWithin tokens lenient tokens.length 0
    let token ← current tokens index
    if token.kind == .finish then return formula
    else throw (.refused (.unexpectedToken token.text token.position))

end Tokens

def parsePlain (lenient : Bool) (text : List Char) : Except Failure Formula :=
  match Token.scanToEnd lenient text with
  | .ok tokens => read tokens lenient
  | .error error => .error (.ofError error)

/-- Reads a formula in any accepted spelling. A lenient reading gives the placeholder for a text
that is no formula, but an overrun is none of its errors. -/
def parse (lenient : Bool) (text : String) : Except Failure Formula :=
  match parsePlain lenient (respell text.toList) with
  | .ok formula => .ok formula
  | .error (.overrun index) => .error (.overrun index)
  | .error failure => if lenient then .ok placeholder else .error failure

end Deduction.Formula.Cursor
