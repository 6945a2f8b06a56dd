import Deduction.Yaml.Node
import Deduction.Yaml.Outcome

/-!
A reader of YAML: values that are described by scalars, sequences and mappings.

Of several faults of the nodes the one counts that is nearest to the root, and of these the first.
A mapping takes over the members of the mappings under its merge keys, its own members counting
more. Tags of bytes, sets and ordered mappings are not known here, and a node that holds itself is
refused.
-/

namespace Deduction.Yaml

/-- A fault of a node, with the level at which it is found. -/
abbrev Found := Nat × Fault

namespace Node

/-- The value of a scalar node, or its fault. -/
def scalarOf (start : Nat) (tag : Tag) (text : String) : Except Fault Scalar :=
  match tag.scalar? text with
  | some (.ok value) => .ok value
  | some (.error misfit) => .error (.misfit misfit)
  | none =>
      match tag with
      | .sequence => .error ((Problem.otherNode "sequence" "scalar").at start)
      | .mapping => .error ((Problem.otherNode "mapping" "scalar").at start)
      | _ => .error ((Problem.unknownTag tag.name).at start)

/-- The tag of a key; the sign for the standard value is a text among keys. -/
def keyTag (tag : Tag) : Tag :=
  if tag == .standard then .text else tag

/-- The fault of a tag that does not go with a collection. `own` is the tag that does. -/
def tagFault (start : Nat) (own tag : Tag) (sort : String) : Option Fault :=
  if tag == own then none
  else
    match tag with
    | .sequence => some ((Problem.otherNode "sequence" sort).at start)
    | .mapping => some ((Problem.otherNode "mapping" sort).at start)
    | .merge => some ((Problem.unknownTag tag.name).at start)
    | .standard => some ((Problem.unknownTag tag.name).at start)
    | .other name => some ((Problem.unknownTag name).at start)
    | _ => some ((Problem.otherNode "scalar" sort).at start)

/-- The fault of a node that is to be merged into a mapping. -/
def mergeFault (start : Nat) (value : Node) : Option Fault :=
  match value with
  | .mapping .. => none
  | .sequence _ _ items =>
      let other := items.find? fun item =>
        match item with
        | .mapping .. => false
        | _ => true
      other.map fun item => Activity.members.fault start (.notMapping item.sort) item.start
  | .scalar .. =>
      some (Activity.members.fault start (.notMergeable value.sort) value.start)

def keyFaults (level start : Nat) : Node → List Found
  | .scalar place tag text =>
      match scalarOf place (keyTag tag) text with
      | .ok _ => []
      | .error fault => [(level, fault)]
  | key => [(level, Activity.members.fault start .unhashableKey key.start)]

mutual

def faults (level : Nat) : Node → List Found
  | .scalar start tag text =>
      match scalarOf start tag text with
      | .ok _ => []
      | .error fault => [(level, fault)]
  | .sequence start tag items =>
      match tagFault start .sequence tag "sequence" with
      | some fault => [(level, fault)]
      | none => itemFaults (level + 1) items
  | .mapping start tag members =>
      match tagFault start .mapping tag "mapping" with
      | some fault => [(level, fault)]
      | none => memberFaults (level + 1) start members

/-- The faults of the items of a sequence. -/
def itemFaults (level : Nat) : List Node → List Found
  | [] => []
  | item :: rest => item.faults level ++ itemFaults level rest

/-- The faults of the members of a mapping. -/
def memberFaults (level start : Nat) : List (Node × Node) → List Found
  | [] => []
  | (key, value) :: rest =>
      let found :=
        if key.tag == .merge then
          match mergeFault start value with
          | some fault => [(level, fault)]
          | none => value.faults level
        else keyFaults level start key ++ value.faults level
      found ++ memberFaults level start rest

end

def keyScalar : Node → Scalar
  | .scalar start tag text =>
      match scalarOf start (keyTag tag) text with
      | .ok value => value
      | .error _ => .null
  | _ => .null

/-- The members of a value that is merged into a mapping: of several objects the first counts
most. -/
def mergedMembers : Value → Members
  | .object members => members
  | .list items =>
      items.reverse.flatMap fun item =>
        match item with
        | .object members => members
        | _ => []
  | _ => []

mutual

def value : Node → Value
  | .scalar start tag text =>
      match scalarOf start tag text with
      | .ok value => .scalar value
      | .error _ => .null
  | .sequence _ _ items => .list (itemValues items)
  | .mapping _ _ members => Value.ofMembers (mergedValues members ++ ownValues members)

/-- The values of the items of a sequence. -/
def itemValues : List Node → List Value
  | [] => []
  | item :: rest => item.value :: itemValues rest

/-- The members that a mapping takes over. -/
def mergedValues : List (Node × Node) → Members
  | [] => []
  | (key, node) :: rest =>
      let merged := if key.tag == .merge then mergedMembers node.value else []
      merged ++ mergedValues rest

def ownValues : List (Node × Node) → Members
  | [] => []
  | (key, node) :: rest =>
      let own := if key.tag == .merge then [] else [(key.keyScalar, node.value)]
      own ++ ownValues rest

end

/-- The first of the faults at the least level. -/
def firstFault? (found : List Found) : Option Fault :=
  let least := found.foldl (fun level entry => min level entry.1) (found.head?.elim 0 (·.1))
  (found.find? fun entry => entry.1 == least).map (·.2)

end Node

/-- A character that a text may hold. -/
def isAcceptable (c : Char) : Bool :=
  let n := c.toNat
  n == 9 || n == 0xA || n == 0xD || (0x20 ≤ n && n ≤ 0x7E) || n == 0x85 ||
    (0xA0 ≤ n && n ≤ 0xD7FF) || (0xE000 ≤ n && n ≤ 0xFFFD) || 0x10000 ≤ n

/-- The fault of the first character that is not acceptable. -/
def acceptance (text : List Char) : Except Fault Unit :=
  let before := text.takeWhile isAcceptable
  match text.drop before.length with
  | [] => .ok ()
  | c :: _ => .error (.unacceptable c before.length)

def Node.read (node : Node) : Except Fault Value :=
  match firstFault? (node.faults 0) with
  | some fault => .error fault
  | none => .ok node.value

/-- The value that a text describes, null for an empty text, or its fault. -/
def readAll (text : List Char) : Except Fault Value := do
  acceptance text
  match ← Node.ofText text with
  | some root => root.read
  | none => return .null

/-- What a reader says of a fault of a text. -/
def Fault.failure (text : List Char) : Fault → Failure
  | .misfit found => .misfit found
  | fault => .refused (fault.message text)

/-- Reads the value that a text describes. -/
def read : Reader := fun text =>
  match readAll text.toList with
  | .ok value => .ok value
  | .error fault => .error (fault.failure text.toList)

end Deduction.Yaml
