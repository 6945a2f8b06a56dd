import Deduction.Json.Reader
import Deduction.Yaml.Fault
import Deduction.Yaml.Token

namespace Deduction.Yaml

/-- Joins the breaks between two lines: one counts as a space. -/
def foldBreaks (first : List Char) (others : List Char) : List Char :=
  if first != ['\n'] then first ++ others
  else if others.isEmpty then [' ']
  else others

/-! ### Plain scalars -/

/-- A character that divides the parts of flow collections. -/
def isFlowMark (c : Char) : Bool :=
  c == ',' || c == '[' || c == ']' || c == '\x7b' || c == '\x7d'

/-- The number of characters of a plain scalar up to a blank or a mark. -/
def plainLength (inFlow : Bool) : List Char → Nat
  | [] => 0
  | c :: rest =>
      let next := rest.headD endMark
      if endsWord c || (c == ':' && (endsWord next || (inFlow && isFlowMark next))) ||
          (inFlow && (isFlowMark c || c == '?')) then 0
      else plainLength inFlow rest + 1

/-- Reads spaces and line breaks within a plain scalar, up to a sign that divides documents, for
which the answer is nothing. -/
def plainBreaks : Nat → Cursor → Option (List Char) × Cursor
  | 0, cursor => (some [], cursor)
  | fuel + 1, cursor =>
      if cursor.peek == ' ' then plainBreaks fuel cursor.next
      else
        match cursor.lineBreak with
        | ([], _) => (some [], cursor)
        | (first, after) =>
            if after.atSeparator then (none, after)
            else
              let (others, last) := plainBreaks fuel after
              (others.map (first ++ ·), last)

/-- What stands between two parts of a plain scalar. -/
structure Gap where
  text : List Char
  hasBreak : Bool
  cursor : Cursor

/-- Reads what stands between two parts of a plain scalar. No text means that none follows. -/
def plainGap (cursor : Cursor) : Gap :=
  let (spaces, after) := cursor.takeWhile (· == ' ')
  match after.lineBreak with
  | ([], _) => ⟨spaces, false, after⟩
  | (first, next) =>
      if next.atSeparator then ⟨[], true, next⟩
      else
        match plainBreaks (next.rest.length + 1) next with
        | (some others, last) => ⟨foldBreaks first others, true, last⟩
        | (none, last) => ⟨[], true, last⟩

/-- A plain scalar: its text, whether it ended at the start of a line, and the places of its end
and of what follows. -/
structure PlainScalar where
  text : List Char
  atLineStart : Bool
  finish : Nat
  cursor : Cursor

/-- Reads the parts of a plain scalar. Outside of flow collections it ends at a line that is not
indented enough. `sofar` is the scalar up to the gap before the next part. -/
def plainFrom (inFlow : Bool) (indent : Int) : Nat → PlainScalar → List Char → PlainScalar
  | 0, sofar, _ => sofar
  | fuel + 1, sofar, gap =>
      let length := plainLength inFlow sofar.cursor.rest
      if sofar.cursor.peek == '#' || length == 0 then sofar
      else
        let finish := sofar.cursor.advance length
        let next := plainGap finish
        let longer : PlainScalar :=
          { text := sofar.text ++ gap ++ sofar.cursor.rest.take length
            atLineStart := next.hasBreak
            finish := finish.position
            cursor := next.cursor }
        if next.text.isEmpty || (!inFlow && (next.cursor.column : Int) < indent) then longer
        else plainFrom inFlow indent fuel longer next.text

def readPlain (inFlow : Bool) (indent : Int) (cursor : Cursor) : PlainScalar :=
  plainFrom inFlow indent (cursor.rest.length + 1) ⟨[], false, cursor.position, cursor⟩ []

/-! ### Quoted scalars -/

/-- Reads line breaks and blanks within a quoted scalar, after a first break. -/
def quotedBreaks (opening : Nat) : Nat → Cursor → Except Fault (List Char × Cursor)
  | 0, cursor => .ok ([], cursor)
  | fuel + 1, cursor =>
      if cursor.atSeparator then
        .error (Activity.quoted.fault opening .separator cursor.position)
      else
        let after := cursor.skipWhile isBlank
        match after.lineBreak with
        | ([], _) => .ok ([], after)
        | (first, next) => do
            let (others, last) ← quotedBreaks opening fuel next
            return (first ++ others, last)

/-- The character that a letter stands for after a backslash. -/
def escape? : Char → Option Char
  | '0' => some (Char.ofNat 0)
  | 'a' => some (Char.ofNat 7)
  | 'b' => some (Char.ofNat 8)
  | 't' => some '\t'
  | '\t' => some '\t'
  | 'n' => some '\n'
  | 'v' => some (Char.ofNat 0xB)
  | 'f' => some (Char.ofNat 0xC)
  | 'r' => some '\r'
  | 'e' => some (Char.ofNat 0x1B)
  | ' ' => some ' '
  | '"' => some '"'
  | '\\' => some '\\'
  | '/' => some '/'
  | 'N' => some (Char.ofNat 0x85)
  | '_' => some (Char.ofNat 0xA0)
  | 'L' => some (Char.ofNat 0x2028)
  | 'P' => some (Char.ofNat 0x2029)
  | _ => none

/-- The number of hexadecimal digits that follow a letter after a backslash. -/
def escapeWidth? : Char → Option Nat
  | 'x' => some 2
  | 'u' => some 4
  | 'U' => some 8
  | _ => none

/-- The character of a code; a surrogate gives the replacement character. -/
def codeChar (code : Nat) : Except Misfit Char :=
  if 0x80000000 ≤ code then .error .characterTooLarge
  else if 0x110000 ≤ code then .error .notCharacter
  else if 0xD800 ≤ code && code < 0xE000 then .ok (Char.ofNat 0xFFFD)
  else .ok (Char.ofNat code)

/-- The next characters, so many of them. -/
def nextChars (cursor : Cursor) (count : Nat) : List Char :=
  (List.range count).map cursor.ahead

def readEscape (opening : Nat) (cursor : Cursor) : Except Fault (List Char × Cursor) :=
  let letter := cursor.peek
  match escape? letter, escapeWidth? letter with
  | some c, _ => .ok ([c], cursor.next)
  | none, some width =>
      let digits := nextChars cursor.next width
      match digits.find? fun c => (Json.hexValue? c).isNone with
      | some found =>
          .error (Activity.doubleQuoted.fault opening
            (.expected ("escape sequence of " ++ toString width ++ " hexadecimal numbers") found)
            cursor.next.position)
      | none =>
          match codeChar ((Json.hexNumber? digits).getD 0) with
          | .ok c => .ok ([c], cursor.next.advance width)
          | .error misfit => .error (.misfit misfit)
  | none, none =>
      match cursor.lineBreak with
      | ([], _) =>
          .error (Activity.doubleQuoted.fault opening (.unknownEscape letter) cursor.position)
      | (_, after) => quotedBreaks opening (after.rest.length + 1) after

/-- A character of a quoted scalar that stands for itself in both styles. -/
def isQuotedChar (c : Char) : Bool :=
  !(c == '\'' || c == '"' || c == '\\' || endsWord c)

/-- Reads a quoted scalar up to a blank, a line break or its end. -/
def quotedWord (isDouble : Bool) (opening : Nat) : Nat → Cursor → Except Fault (List Char × Cursor)
  | 0, cursor => .ok ([], cursor)
  | fuel + 1, cursor =>
      let (run, after) := cursor.takeWhile isQuotedChar
      let goOn (piece : List Char) (next : Cursor) : Except Fault (List Char × Cursor) := do
        let (others, last) ← quotedWord isDouble opening fuel next
        return (run ++ piece ++ others, last)
      let c := after.peek
      if !isDouble && c == '\'' && after.ahead 1 == '\'' then goOn ['\''] (after.advance 2)
      else if (isDouble && c == '\'') || (!isDouble && (c == '"' || c == '\\')) then
        goOn [c] after.next
      else if isDouble && c == '\\' then do
        let (piece, next) ← readEscape opening after.next
        goOn piece next
      else .ok (run, after)

/-- Reads the blanks or line breaks within a quoted scalar. -/
def quotedGap (opening : Nat) (cursor : Cursor) : Except Fault (List Char × Cursor) :=
  let (blanks, after) := cursor.takeWhile isBlank
  if after.peek == endMark then
    .error (Activity.quoted.fault opening .endOfText after.position)
  else
    match after.lineBreak with
    | ([], _) => .ok (blanks, after)
    | (first, next) => do
        let (others, last) ← quotedBreaks opening (next.rest.length + 1) next
        return (foldBreaks first others, last)

/-- Reads a quoted scalar up to its closing quote, word by word. -/
def quotedFrom (isDouble : Bool) (opening : Nat) : Nat → Cursor → Except Fault (List Char × Cursor)
  | 0, cursor => .ok ([], cursor)
  | fuel + 1, cursor => do
      let (word, after) ← quotedWord isDouble opening (cursor.rest.length + 1) cursor
      if after.peek == (if isDouble then '"' else '\'') then return (word, after.next)
      else
        let (gap, next) ← quotedGap opening after
        let (others, last) ← quotedFrom isDouble opening fuel next
        return (word ++ gap ++ others, last)

def readQuoted (isDouble : Bool) (cursor : Cursor) : Except Fault (List Char × Cursor) :=
  quotedFrom isDouble cursor.position (cursor.rest.length + 1) cursor.next

/-! ### Block scalars -/

/-- What becomes of the line breaks at the end of a block scalar. -/
inductive Chomping
  | strip
  | clip
  | keep
  deriving DecidableEq, Repr

def chomping? : Char → Option Chomping
  | '+' => some .keep
  | '-' => some .strip
  | _ => none

/-- Reads the digit for the indentation of a block scalar. -/
def readIncrement (opening : Nat) (cursor : Cursor) : Except Fault (Option Nat × Cursor) :=
  let c := cursor.peek
  if c == '0' then .error (Activity.blockScalar.fault opening .zeroIndentation cursor.position)
  else if '1' ≤ c && c ≤ '9' then .ok (some (c.toNat - '0'.toNat), cursor.next)
  else .ok (none, cursor)

/-- Reads the signs in the first line of a block scalar, in either order. -/
def blockSigns (opening : Nat) (cursor : Cursor) :
    Except Fault ((Chomping × Option Nat) × Cursor) :=
  match chomping? cursor.peek with
  | some chomping => do
      let (increment, after) ← readIncrement opening cursor.next
      return ((chomping, increment), after)
  | none => do
      let (increment, after) ← readIncrement opening cursor
      match increment, chomping? after.peek with
      | some _, some chomping => return ((chomping, increment), after.next)
      | _, _ => return ((.clip, increment), after)

/-- Passes over the rest of a line, which may hold a comment only. -/
def restOfLine (activity : Activity) (opening : Nat) (cursor : Cursor) : Except Fault Cursor :=
  let after := cursor.skipSpaces.skipComment
  if endsLine after.peek then .ok after.lineBreak.2
  else
    .error (activity.fault opening (.expected "a comment or a line break" after.peek)
      after.position)

/-- Reads the lines before the first line of a block scalar. The answer is the line breaks and the
widest indentation. -/
def blockLead : Nat → Nat → Cursor → (List Char × Nat) × Cursor
  | 0, widest, cursor => (([], widest), cursor)
  | fuel + 1, widest, cursor =>
      if cursor.peek == ' ' then blockLead fuel (max widest cursor.next.column) cursor.next
      else
        match cursor.lineBreak with
        | ([], _) => (([], widest), cursor)
        | (first, after) =>
            let ((others, most), last) := blockLead fuel widest after
            ((first ++ others, most), last)

def skipIndent (indent : Nat) (cursor : Cursor) : Cursor :=
  let spaces := (cursor.rest.takeWhile (· == ' ')).length
  cursor.advance (min spaces (indent - cursor.column))

/-- Reads the line breaks of lines that hold no more than indentation. -/
def blockBreaks (indent : Nat) : Nat → Cursor → List Char × Cursor
  | 0, cursor => ([], cursor)
  | fuel + 1, cursor =>
      let after := skipIndent indent cursor
      match after.lineBreak with
      | ([], _) => ([], after)
      | (first, next) =>
          let (others, last) := blockBreaks indent fuel next
          (first ++ others, last)

/-- Reads the lines of a block scalar, given the line breaks before the next one. -/
def blockLines (isFolded : Bool) (chomping : Chomping) (indent : Nat) :
    Nat → List Char → Cursor → List Char × Cursor
  | 0, breaks, cursor => (breaks, cursor)
  | fuel + 1, breaks, cursor =>
      if cursor.column != indent || cursor.peek == endMark then
        (if chomping == .keep then breaks else [], cursor)
      else
        let (line, after) := cursor.takeWhile fun c => !endsLine c
        let (lineBreak, next) := after.lineBreak
        let (others, following) := blockBreaks indent (next.rest.length + 1) next
        if following.column == indent && following.peek != endMark then
          let isJoined :=
            isFolded && lineBreak == ['\n'] && !isBlank cursor.peek && !isBlank following.peek
          let joint :=
            if isJoined then if others.isEmpty then [' '] else [] else lineBreak
          let (more, last) := blockLines isFolded chomping indent fuel others following
          (breaks ++ line ++ joint ++ more, last)
        else
          let tail :=
            match chomping with
            | .strip => []
            | .clip => lineBreak
            | .keep => lineBreak ++ others
          (breaks ++ line ++ tail, following)

/-- Reads a block scalar inside a block of some indentation. -/
def readBlock (isFolded : Bool) (outer : Int) (cursor : Cursor) :
    Except Fault (List Char × Cursor) := do
  let opening := cursor.position
  let ((chomping, increment), after) ← blockSigns opening cursor.next
  if !endsEntry after.peek then
    throw (Activity.blockScalar.fault opening
      (.expected "chomping or indentation indicators" after.peek) after.position)
  let body ← restOfLine .blockScalar opening after
  let least := max (outer + 1).toNat 1
  let fuel := body.rest.length + 1
  match increment with
  | none =>
      let ((breaks, widest), first) := blockLead fuel 0 body
      return blockLines isFolded chomping (max least widest) fuel breaks first
  | some increment =>
      let indent := least + increment - 1
      let (breaks, first) := blockBreaks indent fuel body
      return blockLines isFolded chomping indent fuel breaks first

/-! ### Names, tags and directives -/

def isNameChar (c : Char) : Bool :=
  c.isAlphanum || c == '-' || c == '_'

/-- Reads a name, which has to be followed by a character of a class. -/
def readName (activity : Activity) (opening : Nat) (ends : Char → Bool) (cursor : Cursor) :
    Except Fault (String × Cursor) :=
  let (name, after) := cursor.takeWhile isNameChar
  if name.isEmpty || !ends after.peek then
    .error (activity.fault opening (.expected "alphabetic or numeric character" after.peek)
      after.position)
  else .ok (String.ofList name, after)

/-- A character that may follow the name of an anchor. -/
def endsAnchor (c : Char) : Bool :=
  endsWord c || c == '?' || c == ':' || c == ',' || c == ']' || c == '\x7d' || c == '%' ||
    c == '@' || c.toNat == 0x60

/-- Reads the name of an anchor or alias. -/
def readAnchor (activity : Activity) (cursor : Cursor) : Except Fault (String × Cursor) :=
  readName activity cursor.position endsAnchor cursor.next

/-- A character of the address that a tag stands for. -/
def isAddressChar (c : Char) : Bool :=
  c.isAlphanum || "-;/?:@&=+$,_.!~*'()[]%".toList.contains c

/-- Reads bytes that are escaped by percent signs. -/
def escapedBytes (activity : Activity) (opening : Nat) :
    Nat → Cursor → Except Fault (List Nat × Cursor)
  | 0, cursor => .ok ([], cursor)
  | fuel + 1, cursor =>
      if cursor.peek != '%' then .ok ([], cursor)
      else
        let digits := nextChars cursor.next 2
        match digits.find? fun c => (Json.hexValue? c).isNone with
        | some found =>
            .error (activity.fault opening
              (.expected "URI escape sequence of 2 hexadecimal numbers" found)
              cursor.next.position)
        | none => do
            let (others, last) ← escapedBytes activity opening fuel (cursor.advance 3)
            return ((Json.hexNumber? digits).getD 0 :: others, last)

def addressFrom (activity : Activity) (opening : Nat) :
    Nat → Cursor → Except Fault (List Char × Cursor)
  | 0, cursor => .ok ([], cursor)
  | fuel + 1, cursor =>
      let (run, after) := cursor.takeWhile fun c => isAddressChar c && c != '%'
      if after.peek != '%' then .ok (run, after)
      else do
        let (bytes, next) ← escapedBytes activity opening (after.rest.length + 1) after
        match String.fromUTF8? ⟨(bytes.map Nat.toUInt8).toArray⟩ with
        | some decoded =>
            let (others, last) ← addressFrom activity opening fuel next
            return (run ++ decoded.toList ++ others, last)
        | none => throw (activity.fault opening .undecodable after.position)

/-- Reads an address. `activity` is named where none is found, and `inner` inside of one. -/
def readAddress (activity inner : Activity) (opening : Nat) (cursor : Cursor) :
    Except Fault (String × Cursor) := do
  let (address, after) ← addressFrom inner opening (cursor.rest.length + 1) cursor
  if after.position == cursor.position then
    throw (activity.fault opening (.expected "URI" after.peek) after.position)
  return (String.ofList address, after)

/-- Reads the handle of a tag: a name between exclamation marks, or one mark before a space. -/
def readHandle (activity : Activity) (opening : Nat) (cursor : Cursor) :
    Except Fault (String × Cursor) :=
  if cursor.peek != '!' then
    .error (activity.fault opening (.expected "'!'" cursor.peek) cursor.position)
  else if cursor.ahead 1 == ' ' then .ok ("!", cursor.next)
  else
    let (name, after) := cursor.next.takeWhile isNameChar
    if after.peek == '!' then .ok ("!" ++ String.ofList name ++ "!", after.next)
    else .error (activity.fault opening (.expected "'!'" after.peek) after.position)

/-- Reads the parts of a tag: its handle and its suffix. -/
def tagParts (cursor : Cursor) : Except Fault ((Option String × String) × Cursor) := do
  let opening := cursor.position
  let c := cursor.ahead 1
  if c == '<' then
    let (suffix, after) ← readAddress .tagAddress .tag opening (cursor.advance 2)
    if after.peek != '>' then
      throw (Activity.tagAddress.fault opening (.expected "'>'" after.peek) after.position)
    return ((none, suffix), after.next)
  else if endsWord c then return ((none, "!"), cursor.next)
  else
    let word := cursor.next.rest.takeWhile fun c => !endsEntry c
    if word.contains '!' then
      let (handle, after) ← readHandle .tag opening cursor
      let (suffix, last) ← readAddress .tagAddress .tag opening after
      return ((some handle, suffix), last)
    else
      let (suffix, last) ← readAddress .tagAddress .tag opening cursor.next
      return ((some "!", suffix), last)

def readTag (cursor : Cursor) : Except Fault (Form × Cursor) := do
  let ((handle, suffix), after) ← tagParts cursor
  if !endsEntry after.peek then
    throw (Activity.tag.fault cursor.position (.expected "' '" after.peek) after.position)
  return (.tag handle suffix, after)

def readVersionPart (opening : Nat) (cursor : Cursor) : Except Fault (Nat × Cursor) :=
  let (digits, after) := cursor.takeWhile Json.isDigit
  if digits.isEmpty then
    .error (Activity.directive.fault opening (.expected "a digit" cursor.peek) cursor.position)
  else .ok (Json.decimal digits, after)

def readVersion (opening : Nat) (cursor : Cursor) : Except Fault (Directive × Cursor) := do
  let (major, point) ← readVersionPart opening cursor.skipSpaces
  if point.peek != '.' then
    throw (Activity.directive.fault opening (.expected "a digit or '.'" point.peek)
      point.position)
  let (_, after) ← readVersionPart opening point.next
  if !endsEntry after.peek then
    throw (Activity.directive.fault opening (.expected "a digit or ' '" after.peek)
      after.position)
  return (.version major, after)

def readMeaning (opening : Nat) (cursor : Cursor) : Except Fault (Directive × Cursor) := do
  let (handle, space) ← readHandle .directive opening cursor.skipSpaces
  if space.peek != ' ' then
    throw (Activity.directive.fault opening (.expected "' '" space.peek) space.position)
  let (meaning, after) ← readAddress .directiveAddress .directive opening space.skipSpaces
  if !endsEntry after.peek then
    throw (Activity.directive.fault opening (.expected "' '" after.peek) after.position)
  return (.handle handle meaning, after)

/-- Reads a directive; the answer holds the place of its end too. -/
def readDirective (cursor : Cursor) : Except Fault ((Directive × Nat) × Cursor) := do
  let opening := cursor.position
  let (name, after) ← readName .directive opening endsEntry cursor.next
  let (directive, finish) ←
    if name == "YAML" then readVersion opening after
    else if name == "TAG" then readMeaning opening after
    else pure (Directive.other, after)
  let skipped :=
    if directive == .other then finish.skipWhile fun c => !endsLine c else finish
  let next ← restOfLine .directive opening skipped
  return ((directive, finish.position), next)

end Deduction.Yaml
