import Deduction.Text.Letter

namespace Deduction

/-- A path: how it starts, and its parts. -/
structure Path where
  root : String
  parts : List String
  deriving DecidableEq, Repr

namespace Path

def divide : List Char → List (List Char)
  | [] => [[]]
  | c :: rest =>
      match divide rest with
      | [] => [[c]]
      | part :: parts => if c == '/' then [] :: part :: parts else (c :: part) :: parts

/-- How a path starts: two slashes are kept, more count as one. -/
def rootOf : List Char → String
  | '/' :: '/' :: '/' :: _ => "/"
  | '/' :: '/' :: _ => "//"
  | '/' :: _ => "/"
  | _ => ""

def ofText (text : String) : Path :=
  { root := rootOf text.toList
    parts :=
      ((divide text.toList).map String.ofList).filter fun part => part != "" && part != "." }

def text (path : Path) : String :=
  if path.root.isEmpty && path.parts.isEmpty then "."
  else path.root ++ "/".intercalate path.parts

def name (path : Path) : String :=
  path.parts.getLast?.getD ""

/-- The suffix of the name, from its last dot on. A dot at either end makes none. -/
def suffix (path : Path) : String :=
  let reversed := path.name.toList.reverse
  let ending := reversed.takeWhile (· != '.')
  let before := reversed.drop (ending.length + 1)
  if ending.isEmpty || before.isEmpty then "" else String.ofList ('.' :: ending.reverse)

/-- The suffix is this one, in any case. -/
def hasSuffix (path : Path) (suffix : String) : Bool :=
  Text.lowerString path.suffix == suffix

/-- A part that is too long for the name of a file. -/
def isLongName (part : String) : Bool :=
  255 < part.utf8ByteSize

def isLong (path : Path) : Bool :=
  4095 < path.text.utf8ByteSize

end Path

end Deduction
