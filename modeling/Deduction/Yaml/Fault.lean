import Deduction.Value.Reading
import Deduction.Yaml.Cursor

namespace Deduction.Yaml

inductive Activity
  | simpleKey
  | directive
  | directiveAddress
  | alias
  | anchor
  | tag
  | tagAddress
  | blockScalar
  | doubleQuoted
  | quoted
  | nextToken
  | node
  | blockNode
  | flowNode
  | flowSequence
  | flowMapping
  | blockSequence
  | blockMapping
  | members
  | onlyDocument
  | firstAnchor (name : String)
  deriving DecidableEq, Repr

def Activity.text : Activity → String
  | .simpleKey => "while scanning a simple key"
  | .directive => "while scanning a directive"
  | .directiveAddress => "while parsing a directive"
  | .alias => "while scanning an alias"
  | .anchor => "while scanning an anchor"
  | .tag => "while scanning a tag"
  | .tagAddress => "while parsing a tag"
  | .blockScalar => "while scanning a block scalar"
  | .doubleQuoted => "while scanning a double-quoted scalar"
  | .quoted => "while scanning a quoted scalar"
  | .nextToken => "while scanning for the next token"
  | .node => "while parsing a node"
  | .blockNode => "while parsing a block node"
  | .flowNode => "while parsing a flow node"
  | .flowSequence => "while parsing a flow sequence"
  | .flowMapping => "while parsing a flow mapping"
  | .blockSequence => "while parsing a block collection"
  | .blockMapping => "while parsing a block mapping"
  | .members => "while constructing a mapping"
  | .onlyDocument => "expected a single document in the stream"
  | .firstAnchor name => "found duplicate anchor " ++ Text.quoteString name ++ "; first occurrence"

/-- A problem. Tokens and nodes are given by their names. -/
inductive Problem
  | missingColon
  | misplaced (subject : String)
  | noToken (found : Char)
  | expected (wanted : String) (found : Char)
  | zeroIndentation
  | unknownEscape (found : Char)
  | undecodable
  | endOfText
  | separator
  | noContent (token : String)
  | noBlockEnd (token : String)
  | noComma (closing token : String)
  | noDocument (token : String)
  | repeatedVersion
  | otherVersion
  | repeatedHandle (handle : String)
  | undefinedHandle (handle : String)
  | anotherDocument
  | undefinedAlias (name : String)
  | secondAnchor
  | recursive
  | unhashableKey
  | notMergeable (node : String)
  | notMapping (node : String)
  | unknownTag (tag : String)
  | otherNode (wanted found : String)
  deriving DecidableEq, Repr

def quotedChar (c : Char) : String :=
  Text.quoteString (String.ofList [c])

def Problem.text : Problem → String
  | .missingColon => "could not find expected ':'"
  | .misplaced subject => subject ++ " are not allowed here"
  | .noToken found => "found character " ++ quotedChar found ++ " that cannot start any token"
  | .expected wanted found => "expected " ++ wanted ++ ", but found " ++ quotedChar found
  | .zeroIndentation => "expected indentation indicator in the range 1-9, but found 0"
  | .unknownEscape found => "found unknown escape character " ++ quotedChar found
  | .undecodable => "'utf-8' codec can't decode the escaped bytes"
  | .endOfText => "found unexpected end of stream"
  | .separator => "found unexpected document separator"
  | .noContent token => "expected the node content, but found " ++ Text.quoteString token
  | .noBlockEnd token => "expected <block end>, but found " ++ Text.quoteString token
  | .noComma closing token =>
      "expected ',' or '" ++ closing ++ "', but got " ++ Text.quoteString token
  | .noDocument token => "expected '<document start>', but found " ++ Text.quoteString token
  | .repeatedVersion => "found duplicate YAML directive"
  | .otherVersion => "found incompatible YAML document (version 1.* is required)"
  | .repeatedHandle handle => "duplicate tag handle " ++ Text.quoteString handle
  | .undefinedHandle handle => "found undefined tag handle " ++ Text.quoteString handle
  | .anotherDocument => "but found another document"
  | .undefinedAlias name => "found undefined alias " ++ Text.quoteString name
  | .secondAnchor => "second occurrence"
  | .recursive => "found unconstructable recursive node"
  | .unhashableKey => "found unhashable key"
  | .notMergeable node =>
      "expected a mapping or list of mappings for merging, but found " ++ node
  | .notMapping node => "expected a mapping for merging, but found " ++ node
  | .unknownTag tag => "could not determine a constructor for the tag " ++ Text.quoteString tag
  | .otherNode wanted found => "expected a " ++ wanted ++ " node, but found " ++ found

/-- A refusal: what was read and where that began, if it is known, then the problem and its
place. -/
structure Refusal where
  activity : Option Activity
  origin : Option Nat
  problem : Problem
  position : Nat
  deriving DecidableEq, Repr

inductive Fault
  | unacceptable (character : Char) (position : Nat)
  | refused (refusal : Refusal)
  | misfit (misfit : Misfit)
  deriving DecidableEq, Repr

/-- The fault of a problem that needs no explanation. -/
def Problem.at (problem : Problem) (position : Nat) : Fault :=
  .refused ⟨none, none, problem, position⟩

/-- The fault of a problem with what was read since a place. -/
def Activity.fault (activity : Activity) (origin : Nat) (problem : Problem) (position : Nat) :
    Fault :=
  .refused ⟨some activity, some origin, problem, position⟩

/-- Hexadecimal digits, at least a number of them. -/
def hexadecimal (width n : Nat) : String :=
  let digits := Nat.toDigits 16 n
  String.ofList (List.replicate (width - digits.length) '0' ++ digits)

/-- The part of a line right before a position, cut to some forty characters. -/
def snippetHead (before : List Char) : String × List Char :=
  let line := (before.reverse.takeWhile fun c => !isBreak c).reverse
  if line.length ≤ 36 then ("", line) else (" ... ", line.drop (line.length - 32))

/-- The part of a line from a position on, cut to some forty characters. -/
def snippetTail (after : List Char) : List Char × String :=
  let line := after.takeWhile fun c => !isBreak c
  if line.length ≤ 36 then (line, "") else (line.take 32, " ... ")

/-- A place in a text: line, column, and the line itself with a pointer below it. -/
def mark (text : List Char) (position : Nat) : String :=
  let place := (Cursor.start text).advance position
  let (head, left) := snippetHead (text.take position)
  let (right, tail) := snippetTail (text.drop position)
  "  in \"<unicode string>\", line " ++ toString (place.line + 1) ++ ", column " ++
    toString (place.column + 1) ++ ":\n    " ++ head ++ String.ofList (left ++ right) ++ tail ++
    "\n" ++ String.ofList (List.replicate (4 + head.length + left.length) ' ') ++ "^"

/-- The wording of a refusal of a text. The beginning is left out where it is the place of the
problem. -/
def Refusal.message (text : List Char) (refusal : Refusal) : String :=
  let origin :=
    match refusal.origin with
    | some origin => if origin == refusal.position then [] else [mark text origin]
    | none => []
  "\n".intercalate ((refusal.activity.map Activity.text).toList ++ origin ++
    [refusal.problem.text, mark text refusal.position])

def Fault.message (text : List Char) : Fault → String
  | .unacceptable character position =>
      "unacceptable character #x" ++ hexadecimal 4 character.toNat ++
        ": special characters are not allowed\n  in \"<unicode string>\", position " ++
        toString position
  | .refused refusal => refusal.message text
  | .misfit found => found.message

end Deduction.Yaml
