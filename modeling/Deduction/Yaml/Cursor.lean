namespace Deduction.Yaml

/-- The character that stands for the end of a text. -/
def endMark : Char := Char.ofNat 0

def orderMark : Char := Char.ofNat 0xFEFF

/-- A character that ends a line. -/
def isBreak (c : Char) : Bool :=
  c == '\n' || c == '\r' || c.toNat == 0x85 || c.toNat == 0x2028 || c.toNat == 0x2029

/-- A space or tab. -/
def isBlank (c : Char) : Bool :=
  c == ' ' || c == '\t'

/-- A line break, or the end of the text. -/
def endsLine (c : Char) : Bool :=
  c == endMark || isBreak c

/-- A blank, a line break, or the end of the text. -/
def endsWord (c : Char) : Bool :=
  isBlank c || endsLine c

/-- A space, a line break, or the end of the text. -/
def endsEntry (c : Char) : Bool :=
  c == ' ' || endsLine c

/-- A place in a text: how many characters came before, its line and column from zero on, and what
follows. -/
structure Cursor where
  position : Nat
  line : Nat
  column : Nat
  rest : List Char

namespace Cursor

def start (text : List Char) : Cursor := ⟨0, 0, 0, text⟩

def peek (cursor : Cursor) : Char :=
  cursor.rest.headD endMark

def ahead (cursor : Cursor) (count : Nat) : Char :=
  cursor.rest.getD count endMark

def next (cursor : Cursor) : Cursor :=
  match cursor.rest with
  | [] => cursor
  | c :: rest =>
      if isBreak c && !(c == '\r' && rest.head? == some '\n') then
        ⟨cursor.position + 1, cursor.line + 1, 0, rest⟩
      else if c == orderMark then ⟨cursor.position + 1, cursor.line, cursor.column, rest⟩
      else ⟨cursor.position + 1, cursor.line, cursor.column + 1, rest⟩

def advance : Nat → Cursor → Cursor
  | 0, cursor => cursor
  | count + 1, cursor => cursor.next.advance count

/-- Passes over the characters of a class, which are returned too. -/
def takeWhile (cursor : Cursor) (holds : Char → Bool) : List Char × Cursor :=
  let taken := cursor.rest.takeWhile holds
  (taken, cursor.advance taken.length)

/-- Passes over the characters of a class. -/
def skipWhile (cursor : Cursor) (holds : Char → Bool) : Cursor :=
  (cursor.takeWhile holds).2

def skipSpaces (cursor : Cursor) : Cursor :=
  cursor.skipWhile (· == ' ')

def skipComment (cursor : Cursor) : Cursor :=
  if cursor.peek == '#' then cursor.skipWhile fun c => !endsLine c else cursor

/-- Reads a line break, as it counts in scalars; nothing if there is none. -/
def lineBreak (cursor : Cursor) : List Char × Cursor :=
  match cursor.rest with
  | '\r' :: '\n' :: _ => (['\n'], cursor.advance 2)
  | c :: _ =>
      if c.toNat == 0x2028 || c.toNat == 0x2029 then ([c], cursor.next)
      else if isBreak c then (['\n'], cursor.next)
      else ([], cursor)
  | [] => ([], cursor)

/-- Three characters that are followed by the end of a word. -/
def startsWith (cursor : Cursor) (sign : String) : Bool :=
  cursor.rest.take 3 == sign.toList && endsWord (cursor.ahead 3)

/-- A sign that divides documents follows. -/
def atSeparator (cursor : Cursor) : Bool :=
  cursor.startsWith "---" || cursor.startsWith "..."

end Cursor

end Deduction.Yaml
