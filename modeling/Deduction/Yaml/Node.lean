import Deduction.Yaml.Scalar
import Deduction.Yaml.Stream

namespace Deduction.Yaml

inductive Node
  | scalar (start : Nat) (tag : Tag) (text : String)
  | sequence (start : Nat) (tag : Tag) (items : List Node)
  | mapping (start : Nat) (tag : Tag) (members : List (Node × Node))

namespace Node

def start : Node → Nat
  | .scalar start _ _ => start
  | .sequence start _ _ => start
  | .mapping start _ _ => start

def tag : Node → Tag
  | .scalar _ tag _ => tag
  | .sequence _ tag _ => tag
  | .mapping _ tag _ => tag

/-- The name of a sort of nodes in messages. -/
def sort : Node → String
  | .scalar .. => "scalar"
  | .sequence .. => "sequence"
  | .mapping .. => "mapping"

/-- The scalar that stands for a node that is left out. -/
def empty (start : Nat) : Node :=
  .scalar start .null ""

end Node

/-- A node with an anchor: where it starts, and the node itself once it is complete. -/
structure Anchored where
  name : String
  start : Nat
  node : Option Node

/-- The tokens that are left, what is wrong with the text after them, the anchors so far, and the
meanings of tag handles. -/
structure Reading where
  tokens : List Token
  fault : Option Fault
  anchors : List Anchored := []
  handles : List (String × String) := [("!", "!"), ("!!", commonTag)]

abbrev Parse := StateT Reading (Except Fault)

namespace Parse

def peek : Parse Token := do
  let reading ← get
  match reading.tokens, reading.fault with
  | token :: _, _ => return token
  | [], some fault => throw fault
  | [], none => return ⟨.streamEnd, 0, 0⟩

/-- Passes over the next token, which is returned. -/
def take : Parse Token := do
  let token ← peek
  modify fun reading => { reading with tokens := reading.tokens.tail }
  return token

/-- Passes over the next token if it is of a form. -/
def skip (form : Form) : Parse Bool := do
  let token ← peek
  if token.form == form then
    let _ ← take
    return true
  else return false

/-- The next token is of one of some forms. -/
def isNext (forms : List Form) : Parse Bool := do
  let token ← peek
  return forms.contains token.form

/-- Where a node may stand: in a flow collection, in a block, or after a key in a block, where the
entries of a sequence need not be indented. -/
inductive Setting
  | flow
  | block
  | member
  deriving DecidableEq, Repr

/-- What stands before the content of a node. -/
structure Properties where
  start : Option Nat := none
  anchor : Option String := none
  tag : Option String := none

def fullTag (start : Nat) (token : Token) (handle : Option String) (suffix : String) :
    Parse String := do
  match handle with
  | none => return suffix
  | some handle =>
      match (← get).handles.find? fun entry => entry.1 == handle with
      | some entry => return entry.2 ++ suffix
      | none => throw (Activity.node.fault start (.undefinedHandle handle) token.start)

/-- Reads anchor and tag of a node, in either order. -/
def properties : Parse Properties := do
  let first ← peek
  match first.form with
  | .anchor name =>
      let _ ← take
      let second ← peek
      match second.form with
      | .tag handle suffix =>
          let _ ← take
          let tag ← fullTag first.start second handle suffix
          return ⟨some first.start, some name, some tag⟩
      | _ => return ⟨some first.start, some name, none⟩
  | .tag handle suffix =>
      let _ ← take
      let second ← peek
      let anchor ←
        match second.form with
        | .anchor name => do
            let _ ← take
            pure (some name)
        | _ => pure none
      let tag ← fullTag first.start first handle suffix
      return ⟨some first.start, anchor, some tag⟩
  | _ => return {}

/-- Notes an anchor, which has to be a new one. -/
def noteAnchor (start : Nat) (anchor : Option String) : Parse Unit := do
  match anchor with
  | none => return
  | some name =>
      match (← get).anchors.find? fun entry => entry.name == name with
      | some entry =>
          throw ((Activity.firstAnchor name).fault entry.start .secondAnchor start)
      | none =>
          modify fun reading =>
            { reading with anchors := reading.anchors ++ [⟨name, start, none⟩] }

/-- Keeps a complete node for its anchor. -/
def keep (anchor : Option String) (node : Node) : Parse Node := do
  match anchor with
  | none => return node
  | some name =>
      modify fun reading =>
        { reading with
          anchors := reading.anchors.map fun entry =>
            if entry.name == name then { entry with node := some node } else entry }
      return node

def repeated (start : Nat) (name : String) : Parse Node := do
  match (← get).anchors.find? fun entry => entry.name == name with
  | none => throw ((Problem.undefinedAlias name).at start)
  | some ⟨_, _, some node⟩ => return node
  | some ⟨_, origin, none⟩ => throw (Problem.recursive.at origin)

/-- The tag that was written, unless it leaves the choice open. -/
def tagOr (written : Option String) (default : Tag) : Tag :=
  match written with
  | none => default
  | some name => if name == "!" then default else .ofName name

/-- The tag of a scalar. Quotes make a text of it unless a tag leaves the choice open. -/
def scalarTag (written : Option String) (isPlain : Bool) (text : String) : Tag :=
  tagOr written (if isPlain || written.isSome then .ofPlain text else .text)

/-- A node that is left out before a token of one of some forms, and read otherwise. -/
def unlessNext (forms : List Form) (place : Nat) (read : Parse Node) : Parse Node := do
  if ← isNext forms then return .empty place else read

/-- A value, if there is a colon. Before a token of one of some forms it is left out. -/
def valueOr (forms : List Form) (read : Parse Node) : Parse Node := do
  let token ← peek
  if ← skip .value then unlessNext forms token.finish read else return .empty token.start

mutual

/-- Reads a node. The fuel bounds nesting and number of the nodes together, which the number of
tokens does. -/
def node : Nat → Setting → Parse Node
  | 0, _ => do return .empty (← peek).start
  | fuel + 1, setting => do
      let first ← peek
      match first.form with
      | .alias name =>
          let _ ← take
          repeated first.start name
      | _ =>
          let properties ← properties
          let token ← peek
          let start := properties.start.getD token.start
          let anchor := properties.anchor
          let collection (tag : Tag) : Tag := tagOr properties.tag tag
          match token.form, setting with
          | .blockEntry, .member =>
              noteAnchor start anchor
              keep anchor (.sequence start (collection .sequence) (← entries fuel))
          | .scalar text isPlain, _ =>
              let _ ← take
              noteAnchor start anchor
              keep anchor (.scalar start (scalarTag properties.tag isPlain text) text)
          | .flowSequenceStart, _ =>
              noteAnchor start anchor
              let _ ← take
              let items ← flowItems fuel true token.start
              keep anchor (.sequence start (collection .sequence) items)
          | .flowMappingStart, _ =>
              noteAnchor start anchor
              let _ ← take
              let members ← flowMembers fuel true token.start
              keep anchor (.mapping start (collection .mapping) members)
          | form, setting =>
              if form == .blockSequenceStart && setting != .flow then
                noteAnchor start anchor
                let _ ← take
                let items ← blockItems fuel token.start
                keep anchor (.sequence start (collection .sequence) items)
              else if form == .blockMappingStart && setting != .flow then
                noteAnchor start anchor
                let _ ← take
                let members ← blockMembers fuel token.start
                keep anchor (.mapping start (collection .mapping) members)
              else if anchor.isSome || properties.tag.isSome then
                noteAnchor start anchor
                keep anchor (.scalar start (scalarTag properties.tag true "") "")
              else
                throw ((if setting == .flow then Activity.flowNode else .blockNode).fault start
                  (.noContent form.name) token.start)

/-- Reads the entries of a flow sequence up to its end. `isFirst` says that no comma is needed. -/
def flowItems : Nat → Bool → Nat → Parse (List Node)
  | 0, _, _ => return []
  | fuel + 1, isFirst, opening => do
      if ← skip .flowSequenceEnd then return []
      if !isFirst then
        if !(← skip .flowEntry) then
          let token ← peek
          throw (Activity.flowSequence.fault opening (.noComma "]" token.form.name) token.start)
      let token ← peek
      if token.form == .flowSequenceEnd then
        let _ ← take
        return []
      else if token.form == .key then
        let _ ← take
        let ends := [Form.flowEntry, .flowSequenceEnd]
        let key ← unlessNext (.value :: ends) token.finish (node fuel .flow)
        let value ← valueOr ends (node fuel .flow)
        let items ← flowItems fuel false opening
        return .mapping token.start .mapping [(key, value)] :: items
      else
        let item ← node fuel .flow
        let items ← flowItems fuel false opening
        return item :: items

/-- Reads the members of a flow mapping up to its end. `isFirst` says that no comma is needed. -/
def flowMembers : Nat → Bool → Nat → Parse (List (Node × Node))
  | 0, _, _ => return []
  | fuel + 1, isFirst, opening => do
      if ← skip .flowMappingEnd then return []
      if !isFirst then
        if !(← skip .flowEntry) then
          let token ← peek
          throw (Activity.flowMapping.fault opening (.noComma "\x7d" token.form.name)
            token.start)
      let token ← peek
      if token.form == .flowMappingEnd then
        let _ ← take
        return []
      else if token.form == .key then
        let _ ← take
        let ends := [Form.flowEntry, .flowMappingEnd]
        let key ← unlessNext (.value :: ends) token.finish (node fuel .flow)
        let value ← valueOr ends (node fuel .flow)
        let members ← flowMembers fuel false opening
        return (key, value) :: members
      else
        let key ← node fuel .flow
        let value := Node.empty (← peek).start
        let members ← flowMembers fuel false opening
        return (key, value) :: members

/-- Reads the entries of a block sequence up to its end. -/
def blockItems : Nat → Nat → Parse (List Node)
  | 0, _ => return []
  | fuel + 1, opening => do
      let token ← peek
      if ← skip .blockEntry then
        let item ← unlessNext [.blockEntry, .blockEnd] token.finish (node fuel .block)
        let items ← blockItems fuel opening
        return item :: items
      else if ← skip .blockEnd then return []
      else
        throw (Activity.blockSequence.fault opening (.noBlockEnd token.form.name) token.start)

/-- Reads the entries of a sequence that is not indented. -/
def entries : Nat → Parse (List Node)
  | 0 => return []
  | fuel + 1 => do
      let token ← peek
      if ← skip .blockEntry then
        let item ←
          unlessNext [.blockEntry, .key, .value, .blockEnd] token.finish (node fuel .block)
        let items ← entries fuel
        return item :: items
      else return []

/-- Reads the members of a block mapping up to its end. -/
def blockMembers : Nat → Nat → Parse (List (Node × Node))
  | 0, _ => return []
  | fuel + 1, opening => do
      let token ← peek
      if ← skip .key then
        let ends := [Form.key, .value, .blockEnd]
        let key ← unlessNext ends token.finish (node fuel .member)
        let value ← valueOr ends (node fuel .member)
        let members ← blockMembers fuel opening
        return (key, value) :: members
      else if ← skip .blockEnd then return []
      else
        throw (Activity.blockMapping.fault opening (.noBlockEnd token.form.name) token.start)

end

/-- Passes over the signs that end documents. -/
def skipEnds : Nat → Parse Unit
  | 0 => return
  | fuel + 1 => do
      if ← skip .documentEnd then skipEnds fuel

/-- Reads directives, given whether there was one for the version and what the handles stand for so
far. -/
def directives : Nat → Bool → List (String × String) → Parse (List (String × String))
  | 0, _, handles => return handles
  | fuel + 1, hadVersion, handles => do
      let token ← peek
      match token.form with
      | .directive (.version major) =>
          if hadVersion then throw (Problem.repeatedVersion.at token.start)
          if major != 1 then throw (Problem.otherVersion.at token.start)
          let _ ← take
          directives fuel true handles
      | .directive (.handle handle meaning) =>
          if handles.any fun entry => entry.1 == handle then
            throw ((Problem.repeatedHandle handle).at token.start)
          let _ ← take
          directives fuel hadVersion (handles ++ [(handle, meaning)])
      | .directive .other =>
          let _ ← take
          directives fuel hadVersion handles
      | _ => return handles

/-- Reads up to the start of the next document, if there is one. The answer is the place where its
directives start. -/
def nextDocument (fuel : Nat) : Parse (Option Nat) := do
  skipEnds fuel
  let first ← peek
  if first.form == .streamEnd then return none
  let handles ← directives fuel false []
  let token ← peek
  if !(← skip .documentStart) then
    throw ((Problem.noDocument token.form.name).at token.start)
  modify fun reading => { reading with handles := handles ++ reading.handles }
  return some first.start

/-- A token that ends or starts documents, or ends the text. -/
def isDocumentBorder : Form → Bool
  | .directive _ => true
  | .documentStart => true
  | .documentEnd => true
  | .streamEnd => true
  | _ => false

/-- Reads the only document of a text, if there is one. -/
def onlyDocument (fuel : Nat) : Parse (Option Node) := do
  let first ← peek
  let isBare := !isDocumentBorder first.form || first.form == .documentEnd
  let hasRoot ← if isBare then pure true else Option.isSome <$> nextDocument fuel
  if !hasRoot then return none
  let token ← peek
  let root ←
    if !isBare && isDocumentBorder token.form then pure (Node.empty token.start)
    else node fuel .block
  let _ ← skip .documentEnd
  match ← nextDocument fuel with
  | none => return some root
  | some other => throw (Activity.onlyDocument.fault root.start .anotherDocument other)

end Parse

/-- The node that a text describes; an empty text describes none. -/
def Node.ofText (text : List Char) : Except Fault (Option Node) :=
  let stream := Stream.ofText text
  let reading : Reading := { tokens := stream.tokens, fault := stream.fault }
  match (Parse.onlyDocument (4 * stream.tokens.length + 8)).run reading with
  | .ok (root, _) => .ok root
  | .error fault => .error fault

end Deduction.Yaml
