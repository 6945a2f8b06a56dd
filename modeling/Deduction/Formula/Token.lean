import Deduction.Text.Blank
import Deduction.Text.Letter
import Deduction.Text.Quoted

/-!
Tokens of formulas in the plain alphabet, and the ways in which a text fails to be a formula.

Positions count characters from the start of the text. The readers of formulas take the tokens and
the position of the end apart; the end is itself a token where the tokens are shown.
-/

namespace Deduction

/-- What a token is; `finish` names the end of the text in messages. -/
inductive TokenKind
  | identifier
  | negation
  | conjunction
  | disjunction
  | implication
  | equivalence
  | openParen
  | closeParen
  | comma
  | finish
  deriving DecidableEq, Repr

/-- The name of a kind of token in messages. -/
def TokenKind.name : TokenKind → String
  | .identifier => "IDENT"
  | .negation => "NOT"
  | .conjunction => "AND"
  | .disjunction => "OR"
  | .implication => "IMPLIES"
  | .equivalence => "IFF"
  | .openParen => "LPAREN"
  | .closeParen => "RPAREN"
  | .comma => "COMMA"
  | .finish => "EOF"

/-- A token with its text and the position where it starts. -/
structure Token where
  kind : TokenKind
  text : String
  position : Nat
  deriving DecidableEq, Repr

inductive SyntaxError
  | empty
  | unexpectedCharacter (character : Char) (position : Nat)
  | unexpectedToken (text : String) (position : Nat)
  | unexpectedEnd (position : Nat)
  | unclosed (found : TokenKind) (position : Nat)
  deriving DecidableEq, Repr

namespace SyntaxError

/-- The position that an error points to. -/
def position : SyntaxError → Nat
  | .empty => 0
  | .unexpectedCharacter _ position => position
  | .unexpectedToken _ position => position
  | .unexpectedEnd position => position
  | .unclosed _ position => position

def message : SyntaxError → String
  | .empty => "Empty formula"
  | .unexpectedCharacter character position =>
      "Unexpected character " ++ Text.quoteString (String.ofList [character]) ++ " at position " ++
        toString position
  | .unexpectedToken text position =>
      "Unexpected " ++ Text.quoteString text ++ " at position " ++ toString position
  | .unexpectedEnd position => "Unexpected end of formula at position " ++ toString position
  | .unclosed found position =>
      "Expected " ++ TokenKind.closeParen.name ++ ", got " ++ found.name ++ " at position " ++
        toString position

end SyntaxError

namespace Token

/-- The kind and the text of the token at the head of a text. The word `v` is a disjunction, every
other identifier a name. -/
def lexeme? : List Char → Option (TokenKind × List Char)
  | '!' :: _ => some (.negation, ['!'])
  | '^' :: _ => some (.conjunction, ['^'])
  | '<' :: '-' :: '>' :: _ => some (.equivalence, ['<', '-', '>'])
  | '-' :: '>' :: _ => some (.implication, ['-', '>'])
  | '(' :: _ => some (.openParen, ['('])
  | ')' :: _ => some (.closeParen, [')'])
  | ',' :: _ => some (.comma, [','])
  | text =>
      match Text.identifier? text with
      | some (word, _) => some (if word == ['v'] then .disjunction else .identifier, word)
      | none => none

/-- Scans a text from a position on. The second number counts the characters of the last token
that are still to be passed over. A lenient scan passes over a character that starts no token. -/
def scanFrom (lenient : Bool) : Nat → Nat → List Char → Except SyntaxError (List Token)
  | _, _, [] => .ok []
  | position, skip + 1, _ :: rest => scanFrom lenient (position + 1) skip rest
  | position, 0, c :: rest =>
      if Text.isBlank c then scanFrom lenient (position + 1) 0 rest
      else
        match lexeme? (c :: rest) with
        | some (kind, word) =>
            match scanFrom lenient (position + 1) (word.length - 1) rest with
            | .ok tokens => .ok ({ kind, text := String.ofList word, position } :: tokens)
            | .error e => .error e
        | none =>
            if lenient then scanFrom lenient (position + 1) 0 rest
            else .error (.unexpectedCharacter c position)

def scan (lenient : Bool) (text : List Char) : Except SyntaxError (List Token) :=
  scanFrom lenient 0 0 text

/-- The end of a text as a token, at the length of the text. -/
def ending (text : List Char) : Token :=
  { kind := .finish, text := "", position := text.length }

/-- The tokens of a text, its end being the last of them. -/
def scanToEnd (lenient : Bool) (text : List Char) : Except SyntaxError (List Token) :=
  match scan lenient text with
  | .ok tokens => .ok (tokens ++ [ending text])
  | .error e => .error e

end Token

end Deduction
