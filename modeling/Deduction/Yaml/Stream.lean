import Deduction.Yaml.Lexeme

/-!
The tokens of a YAML text.

A scalar or a collection may turn out to be a key only when the colon after it is found. The token
that marks the key, and the one that opens a mapping with it, are then put before it. A key is
found on one line and within 1024 characters. Until it is settled whether something is a key,
nothing from there on is known to a reader of the tokens: if the text is refused in the meantime,
the reader learns of the refusal first.
-/

namespace Deduction.Yaml

/-- Something that may turn out to be a key: its place among the tokens and in the text, and
whether it has to be one. -/
structure PossibleKey where
  level : Int
  token : Nat
  isRequired : Bool
  position : Nat
  line : Nat
  column : Nat
  deriving DecidableEq, Repr

/-- The tokens of a text as far as it was read, with the nesting at that place. The level of flow
collections may fall below zero, which counts as inside of one. -/
structure Progress where
  cursor : Cursor
  tokens : Array Token := #[]
  level : Int := 0
  indent : Int := -1
  outerIndents : List Int := []
  mayStartKey : Bool := true
  keys : List PossibleKey := []
  isDone : Bool := false

/-- The tokens of a text, and what is wrong with the text after them. -/
structure Stream where
  tokens : List Token
  fault : Option Fault

namespace Progress

abbrev Step := Except Fault Progress

/-- Inside of a flow collection. -/
def inFlow (progress : Progress) : Bool :=
  progress.level != 0

def push (progress : Progress) (form : Form) (cursor : Cursor) : Progress :=
  { progress with
    tokens := progress.tokens.push ⟨form, progress.cursor.position, cursor.position⟩
    cursor }

def pushMark (progress : Progress) (form : Form) (length : Nat) : Progress :=
  progress.push form (progress.cursor.advance length)

/-- Puts a token of no length before one that is there already. -/
def insert (progress : Progress) (form : Form) (key : PossibleKey) : Progress :=
  { progress with
    tokens :=
      progress.tokens.insertIdxIfInBounds key.token ⟨form, key.position, key.position⟩ }

/-- The fault of a key that was required and is none. -/
def keyFault (progress : Progress) (key : PossibleKey) : Fault :=
  Activity.simpleKey.fault key.position .missingColon progress.cursor.position

/-- Gives up the possible keys of a class. -/
def giveUp (progress : Progress) (isLost : PossibleKey → Bool) : Step :=
  match progress.keys.find? fun key => isLost key && key.isRequired with
  | some key => .error (progress.keyFault key)
  | none => .ok { progress with keys := progress.keys.filter fun key => !isLost key }

/-- Gives up the possible keys that are too far back. -/
def giveUpStale (progress : Progress) : Step :=
  progress.giveUp fun key =>
    key.line != progress.cursor.line || 1024 < progress.cursor.position - key.position

/-- Gives up the possible key of the current level. -/
def giveUpKey (progress : Progress) : Step :=
  progress.giveUp fun key => key.level == progress.level

/-- Notes that the next token may be a key. -/
def noteKey (progress : Progress) : Step :=
  if progress.mayStartKey then do
    let progress ← progress.giveUpKey
    let key : PossibleKey :=
      { level := progress.level
        token := progress.tokens.size
        isRequired := !progress.inFlow && progress.indent == progress.cursor.column
        position := progress.cursor.position
        line := progress.cursor.line
        column := progress.cursor.column }
    return { progress with keys := progress.keys ++ [key] }
  else .ok progress

/-- Closes the blocks that are indented more than a column, given the ones around them. -/
def unwindFrom (column : Int) : List Int → Progress → Progress
  | [], progress => progress
  | outer :: others, progress =>
      if column < progress.indent then
        unwindFrom column others
          { progress.pushMark .blockEnd 0 with indent := outer, outerIndents := others }
      else progress

/-- Closes the blocks that are indented more than a column. -/
def unwind (progress : Progress) (column : Int) : Progress :=
  if progress.inFlow then progress else unwindFrom column progress.outerIndents progress

/-- The column is indented more than the current block. -/
def isDeeper (progress : Progress) (column : Nat) : Bool :=
  progress.indent < column

def enter (progress : Progress) (column : Nat) : Progress :=
  { progress with
    indent := column
    outerIndents := progress.indent :: progress.outerIndents }

/-- Opens a block at the current column if it is deeper than the current block. -/
def openBlock (progress : Progress) (form : Form) : Progress :=
  if progress.isDeeper progress.cursor.column then
    (progress.enter progress.cursor.column).pushMark form 0
  else progress

/-- Passes over spaces, comments and line breaks. The answer says whether there was a break. -/
def toNextToken : Nat → Bool → Cursor → Bool × Cursor
  | 0, hadBreak, cursor => (hadBreak, cursor)
  | fuel + 1, hadBreak, cursor =>
      let after := cursor.skipSpaces.skipComment
      match after.lineBreak with
      | ([], _) => (hadBreak, after)
      | (_, next) => toNextToken fuel true next

/-- Goes to the next token. After a line break outside of flow collections, keys may start. -/
def approach (progress : Progress) : Progress :=
  let cursor :=
    if progress.cursor.position == 0 && progress.cursor.peek == orderMark then
      progress.cursor.next
    else progress.cursor
  let (hadBreak, cursor) := toNextToken (cursor.rest.length + 1) false cursor
  { progress with
    cursor
    mayStartKey := progress.mayStartKey || (hadBreak && !progress.inFlow) }

def finish (progress : Progress) : Step := do
  let progress ← (progress.unwind (-1)).giveUpKey
  return { progress.pushMark .streamEnd 0 with mayStartKey := false, keys := [], isDone := true }

def addDirective (progress : Progress) : Step := do
  let progress ← (progress.unwind (-1)).giveUpKey
  let ((directive, finish), cursor) ← readDirective progress.cursor
  return { progress with
    tokens := progress.tokens.push ⟨.directive directive, progress.cursor.position, finish⟩
    cursor
    mayStartKey := false }

/-- Reads a sign that divides documents. -/
def addSeparator (form : Form) (progress : Progress) : Step := do
  let progress ← (progress.unwind (-1)).giveUpKey
  return { progress.pushMark form 3 with mayStartKey := false }

def addOpening (form : Form) (progress : Progress) : Step := do
  let progress ← progress.noteKey
  return { progress.pushMark form 1 with level := progress.level + 1, mayStartKey := true }

def addClosing (form : Form) (progress : Progress) : Step := do
  let progress ← progress.giveUpKey
  return { progress.pushMark form 1 with level := progress.level - 1, mayStartKey := false }

/-- Reads a comma between the entries of a flow collection. -/
def addComma (progress : Progress) : Step := do
  let progress ← progress.giveUpKey
  return { progress.pushMark .flowEntry 1 with mayStartKey := true }

/-- What starts a block has to stand where keys may. -/
def requireStart (progress : Progress) (subject : String) : Step :=
  if progress.inFlow || progress.mayStartKey then .ok progress
  else .error ((Problem.misplaced subject).at progress.cursor.position)

/-- Opens a block unless inside of a flow collection. -/
def openOutside (progress : Progress) (form : Form) : Progress :=
  if progress.inFlow then progress else progress.openBlock form

def addEntry (progress : Progress) : Step := do
  let progress ← progress.requireStart "sequence entries"
  let progress ← (progress.openOutside .blockSequenceStart).giveUpKey
  return { progress.pushMark .blockEntry 1 with mayStartKey := true }

/-- Reads the question mark before a key. -/
def addKey (progress : Progress) : Step := do
  let progress ← progress.requireStart "mapping keys"
  let progress ← (progress.openOutside .blockMappingStart).giveUpKey
  return { progress.pushMark .key 1 with mayStartKey := !progress.inFlow }

/-- Reads the colon after what thereby is a key. -/
def addColonAfter (progress : Progress) (key : PossibleKey) : Progress :=
  let progress :=
    { progress with keys := progress.keys.filter fun other => other.level != key.level }
  let progress := progress.insert .key key
  let progress :=
    if !progress.inFlow && progress.isDeeper key.column then
      (progress.enter key.column).insert .blockMappingStart key
    else progress
  { progress.pushMark .value 1 with mayStartKey := false }

def addColon (progress : Progress) : Step :=
  match progress.keys.find? fun key => key.level == progress.level with
  | some key => .ok (progress.addColonAfter key)
  | none => do
      let progress ← progress.requireStart "mapping values"
      let progress ← (progress.openOutside .blockMappingStart).giveUpKey
      return { progress.pushMark .value 1 with mayStartKey := !progress.inFlow }

def addPart (read : Cursor → Except Fault (Form × Cursor)) (progress : Progress) : Step := do
  let progress ← progress.noteKey
  let (form, cursor) ← read progress.cursor
  return { progress.push form cursor with mayStartKey := false }

/-- Reads a block scalar, after which keys may start. -/
def addBlock (isFolded : Bool) (progress : Progress) : Step := do
  let progress ← { progress with mayStartKey := true }.giveUpKey
  let (text, cursor) ← readBlock isFolded progress.indent progress.cursor
  return progress.push (.scalar (String.ofList text) false) cursor

def addPlain (progress : Progress) : Step := do
  let progress ← progress.noteKey
  let plain := readPlain progress.inFlow (progress.indent + 1) progress.cursor
  return { progress with
    tokens :=
      progress.tokens.push
        ⟨.scalar (String.ofList plain.text) true, progress.cursor.position, plain.finish⟩
    cursor := plain.cursor
    mayStartKey := plain.atLineStart }

def named (form : String → Form) : Except Fault (String × Cursor) → Except Fault (Form × Cursor)
  | .ok (name, cursor) => .ok (form name, cursor)
  | .error fault => .error fault

def quotedForm (isDouble : Bool) (cursor : Cursor) : Except Fault (Form × Cursor) := do
  let (text, after) ← readQuoted isDouble cursor
  return (.scalar (String.ofList text) false, after)

/-- A character that may start a plain scalar. -/
def startsPlain (inFlow : Bool) (cursor : Cursor) : Bool :=
  let c := cursor.peek
  !(endsWord c || "-?:,[]\x7b\x7d#&*!|>'\"%@".toList.contains c || c.toNat == 0x60) ||
    (!endsWord (cursor.ahead 1) && (c == '-' || (!inFlow && (c == '?' || c == ':'))))

/-- Reads the next token at a character. -/
def addAt (progress : Progress) : Step :=
  let cursor := progress.cursor
  let c := cursor.peek
  let isFirst := cursor.column == 0
  let isAlone := endsWord (cursor.ahead 1)
  if c == endMark then progress.finish
  else if c == '%' && isFirst then progress.addDirective
  else if isFirst && cursor.startsWith "---" then progress.addSeparator .documentStart
  else if isFirst && cursor.startsWith "..." then progress.addSeparator .documentEnd
  else if c == '[' then progress.addOpening .flowSequenceStart
  else if c == '\x7b' then progress.addOpening .flowMappingStart
  else if c == ']' then progress.addClosing .flowSequenceEnd
  else if c == '\x7d' then progress.addClosing .flowMappingEnd
  else if c == ',' then progress.addComma
  else if c == '-' && isAlone then progress.addEntry
  else if c == '?' && (progress.inFlow || isAlone) then progress.addKey
  else if c == ':' && (progress.inFlow || isAlone) then progress.addColon
  else if c == '*' then progress.addPart fun place => named .alias (readAnchor .alias place)
  else if c == '&' then progress.addPart fun place => named .anchor (readAnchor .anchor place)
  else if c == '!' then progress.addPart readTag
  else if c == '|' && !progress.inFlow then progress.addBlock false
  else if c == '>' && !progress.inFlow then progress.addBlock true
  else if c == '\'' then progress.addPart (quotedForm false)
  else if c == '"' then progress.addPart (quotedForm true)
  else if startsPlain progress.inFlow cursor then progress.addPlain
  else .error (.refused ⟨some .nextToken, none, .noToken c, cursor.position⟩)

def step (progress : Progress) : Step := do
  let progress ← progress.approach.giveUpStale
  (progress.unwind progress.cursor.column).addAt

/-- The number of tokens before the first possible key. -/
def settled (progress : Progress) : Nat :=
  progress.keys.foldl (fun least key => min least key.token) progress.tokens.size

/-- Reads tokens up to the end of the text or a fault. Every step but the last passes over a
character. -/
def run : Nat → Progress → Stream
  | 0, progress => ⟨progress.tokens.toList, none⟩
  | fuel + 1, progress =>
      let next := do
        let next ← progress.step
        if next.isDone then return next else next.giveUpStale
      match next with
      | .error fault => ⟨progress.tokens.toList.take progress.settled, some fault⟩
      | .ok next => if next.isDone then ⟨next.tokens.toList, none⟩ else next.run fuel

end Progress

def Stream.ofText (text : List Char) : Stream :=
  Progress.run (text.length + 2) { cursor := .start text }

end Deduction.Yaml
