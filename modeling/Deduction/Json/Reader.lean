import Deduction.Value.Basic

/-!
Reading values from JSON text.

Besides the standard's values the names of the numbers that are not finite are read. Positions
count characters from the start of the text, and a refusal names the position at which the text
stopped making sense; an integer with too many digits makes sense and is refused all the same.

An escape may write half of a surrogate pair by itself. That is no character, and another one stands
in for it; `value?` is the value of a text that needs no stand-in.
-/

namespace Deduction.Json

inductive Cause
  | byteOrderMark
  | expectedValue
  | expectedName
  | expectedColon
  | expectedComma
  | extraData
  | unterminated
  | controlCharacter
  | badEscape
  | badUnicodeEscape
  | tooManyDigits (count : Nat)
  deriving DecidableEq, Repr

def Cause.text : Cause → String
  | .byteOrderMark => "Unexpected UTF-8 BOM (decode using utf-8-sig)"
  | .expectedValue => "Expecting value"
  | .expectedName => "Expecting property name enclosed in double quotes"
  | .expectedColon => "Expecting ':' delimiter"
  | .expectedComma => "Expecting ',' delimiter"
  | .extraData => "Extra data"
  | .unterminated => "Unterminated string starting at"
  | .controlCharacter => "Invalid control character at"
  | .badEscape => "Invalid \\escape"
  | .badUnicodeEscape => "Invalid \\uXXXX escape"
  | .tooManyDigits count => readLimitMessage count

/-- The cause is a place where a text stops making sense. -/
def Cause.hasPlace : Cause → Bool
  | .tooManyDigits _ => false
  | _ => true

/-- A refusal: its cause, its position, and the position as line and column from one on. -/
structure ReadError where
  cause : Cause
  position : Nat
  line : Nat
  column : Nat
  deriving DecidableEq, Repr

def ReadError.message (error : ReadError) : String :=
  if error.cause.hasPlace then
    error.cause.text ++ ": line " ++ toString error.line ++ " column " ++
      toString error.column ++ " (char " ++ toString error.position ++ ")"
  else error.cause.text

/-- A refusal inside a text, before its line is known. -/
structure Refusal where
  cause : Cause
  position : Nat

def Refusal.locate (text : List Char) (refusal : Refusal) : ReadError :=
  let before := text.take refusal.position
  { cause := refusal.cause
    position := refusal.position
    line := before.count '\n' + 1
    column := (before.reverse.takeWhile fun c => c != '\n').length + 1 }

/-- A place in a text: what is left, and how much came before. -/
structure Cursor where
  position : Nat
  rest : List Char

/-- The characters that may stand between tokens. -/
def isSpace (c : Char) : Bool :=
  c == ' ' || c == '\t' || c == '\n' || c == '\r'

/-- Passes over the characters between tokens. -/
def skipSpace : Nat → List Char → Cursor
  | position, [] => ⟨position, []⟩
  | position, c :: rest =>
      if isSpace c then skipSpace (position + 1) rest else ⟨position, c :: rest⟩

def hexValue? (c : Char) : Option Nat :=
  if '0' ≤ c && c ≤ '9' then some (c.toNat - '0'.toNat)
  else if 'a' ≤ c && c ≤ 'f' then some (c.toNat - 'a'.toNat + 10)
  else if 'A' ≤ c && c ≤ 'F' then some (c.toNat - 'A'.toNat + 10)
  else none

/-- The number that hexadecimal digits write. -/
def hexNumber? (digits : List Char) : Option Nat :=
  digits.foldl
    (fun value c => do return 16 * (← value) + (← hexValue? c))
    (some 0)

/-- Reads four hexadecimal digits, after which the text has to go on. -/
def readQuad? (text : List Char) : Option Nat :=
  if (text.drop 4).isEmpty then none else hexNumber? (text.take 4)

/-- The character of a code unit, `position` being that of its escape. For half of a surrogate pair
a stand-in is taken, and without one it is refused. -/
def unitChar (standIn : Option Char) (position unit : Nat) : Except Refusal Char :=
  if 0xD800 ≤ unit && unit < 0xE000 then
    match standIn with
    | some c => .ok c
    | none => .error ⟨.badUnicodeEscape, position⟩
  else .ok (Char.ofNat unit)

/-- Reads a numeric escape, `position` being that of its backslash and `text` what follows the
letter. The answer is the character and the number of characters after the backslash. -/
def readUnit (standIn : Option Char) (position : Nat) (text : List Char) :
    Except Refusal (Char × Nat) :=
  match readQuad? text with
  | none => .error ⟨.badUnicodeEscape, position + 1⟩
  | some unit =>
      match 0xD800 ≤ unit && unit < 0xDC00, text.drop 4 with
      | true, '\\' :: 'u' :: after =>
          if (after.drop 4).isEmpty then (·, 5) <$> unitChar standIn position unit
          else
            match readQuad? after with
            | none => .error ⟨.badUnicodeEscape, position + 7⟩
            | some low =>
                if 0xDC00 ≤ low && low < 0xE000 then
                  .ok (Char.ofNat (0x10000 + (unit - 0xD800) * 0x400 + (low - 0xDC00)), 11)
                else (·, 5) <$> unitChar standIn position unit
      | _, _ => (·, 5) <$> unitChar standIn position unit

/-- The character that a letter stands for after a backslash. -/
def escaped? : Char → Option Char
  | '"' => some '"'
  | '\\' => some '\\'
  | '/' => some '/'
  | 'b' => some (Char.ofNat 8)
  | 'f' => some (Char.ofNat 12)
  | 'n' => some '\n'
  | 'r' => some '\r'
  | 't' => some '\t'
  | _ => none

/-- Reads what follows a backslash at a position. -/
def readEscape (standIn : Option Char) (opening position : Nat) :
    List Char → Except Refusal (Char × Nat)
  | [] => .error ⟨.unterminated, opening⟩
  | 'u' :: text => readUnit standIn position text
  | c :: _ =>
      match escaped? c with
      | some char => .ok (char, 1)
      | none => .error ⟨.badEscape, position⟩

/-- Reads the characters of a text up to the closing quote, passing over the first ones of which
an escape was made. -/
def readText (standIn : Option Char) (opening : Nat) :
    Nat → Nat → List Char → Except Refusal (List Char × Cursor)
  | _, _, [] => .error ⟨.unterminated, opening⟩
  | skip + 1, position, _ :: rest => readText standIn opening skip (position + 1) rest
  | 0, position, c :: rest =>
      if c == '"' then .ok ([], ⟨position + 1, rest⟩)
      else if c == '\\' then do
        let (char, length) ← readEscape standIn opening position rest
        let (chars, cursor) ← readText standIn opening length (position + 1) rest
        return (char :: chars, cursor)
      else if c.toNat < 0x20 then .error ⟨.controlCharacter, position⟩
      else do
        let (chars, cursor) ← readText standIn opening 0 (position + 1) rest
        return (c :: chars, cursor)

def isDigit (c : Char) : Bool :=
  '0' ≤ c && c ≤ '9'

def decimal (digits : List Char) : Nat :=
  digits.foldl (fun value c => 10 * value + (c.toNat - '0'.toNat)) 0

/-- Splits the digits of a whole part off a text: a zero by itself, or digits that do not start
with one. -/
def wholeDigits : List Char → List Char
  | '0' :: _ => ['0']
  | text => text.takeWhile isDigit

def fractionDigits : List Char → List Char
  | '.' :: text => text.takeWhile isDigit
  | _ => []

/-- The exponent at the head of a text, with the number of characters it takes. -/
def exponent? : List Char → Option (Int × Nat)
  | mark :: text =>
      if mark == 'e' || mark == 'E' then
        let (negative, signLength, digits) :=
          match text with
          | '-' :: after => (true, 1, after.takeWhile isDigit)
          | '+' :: after => (false, 1, after.takeWhile isDigit)
          | _ => (false, 0, text.takeWhile isDigit)
        if digits.isEmpty then none
        else
          some (if negative then -(decimal digits : Int) else decimal digits,
            1 + signLength + digits.length)
      else none
  | [] => none

/-- Reads a number. Without a point and an exponent it is an integer. -/
def readNumber (cursor : Cursor) : Except Refusal (Value × Cursor) :=
  let negative := cursor.rest.head? == some '-'
  let signLength := if negative then 1 else 0
  let unsigned := cursor.rest.drop signLength
  let whole := wholeDigits unsigned
  if whole.isEmpty then .error ⟨.expectedValue, cursor.position⟩
  else
    let afterWhole := unsigned.drop whole.length
    let fraction := fractionDigits afterWhole
    let fractionLength := if fraction.isEmpty then 0 else fraction.length + 1
    let afterFraction := afterWhole.drop fractionLength
    let (exponent, exponentLength) := (exponent? afterFraction).getD (0, 0)
    let length := signLength + whole.length + fractionLength + exponentLength
    let next : Cursor := ⟨cursor.position + length, cursor.rest.drop length⟩
    if fractionLength + exponentLength == 0 then
      if digitLimit < whole.length then .error ⟨.tooManyDigits whole.length, cursor.position⟩
      else .ok (.int (if negative then -(decimal whole : Int) else decimal whole), next)
    else
      .ok (.real (.ofDecimal negative (decimal (whole ++ fraction))
        (exponent - (fraction.length : Int))), next)

/-- The values that are written as words. -/
def words : List (List Char × Value) :=
  [ ("null".toList, .null),
    ("true".toList, .bool true),
    ("false".toList, .bool false),
    ("NaN".toList, .real .nan),
    ("Infinity".toList, .real (.infinite false)),
    ("-Infinity".toList, .real (.infinite true)) ]

def readPlain (cursor : Cursor) : Except Refusal (Value × Cursor) :=
  match words.find? fun word => word.1.isPrefixOf cursor.rest with
  | some (word, value) =>
      .ok (value, ⟨cursor.position + word.length, cursor.rest.drop word.length⟩)
  | none => readNumber cursor

mutual

/-- Reads a value. The fuel bounds the nesting and the number of elements together, which the
length of a text does. -/
def readValue (standIn : Option Char) : Nat → Cursor → Except Refusal (Value × Cursor)
  | 0, cursor => .error ⟨.expectedValue, cursor.position⟩
  | fuel + 1, cursor =>
      match cursor.rest with
      | '"' :: rest => do
          let (chars, next) ← readText standIn cursor.position 0 (cursor.position + 1) rest
          return (.text (String.ofList chars), next)
      | '[' :: rest =>
          let inner := skipSpace (cursor.position + 1) rest
          match inner.rest with
          | ']' :: after => .ok (.list [], ⟨inner.position + 1, after⟩)
          | _ => do
              let (items, next) ← readItems standIn fuel inner
              return (.list items, next)
      | '\x7b' :: rest =>
          let inner := skipSpace (cursor.position + 1) rest
          match inner.rest with
          | '\x7d' :: after => .ok (.object [], ⟨inner.position + 1, after⟩)
          | _ => do
              let (members, next) ← readMembers standIn fuel inner
              return (Value.ofMembers members, next)
      | _ => readPlain cursor

/-- Reads the elements of a list up to its end. -/
def readItems (standIn : Option Char) : Nat → Cursor → Except Refusal (List Value × Cursor)
  | 0, cursor => .error ⟨.expectedValue, cursor.position⟩
  | fuel + 1, cursor => do
      let (item, next) ← readValue standIn fuel cursor
      let after := skipSpace next.position next.rest
      match after.rest with
      | ']' :: rest => return ([item], ⟨after.position + 1, rest⟩)
      | ',' :: rest =>
          let (items, last) ← readItems standIn fuel (skipSpace (after.position + 1) rest)
          return (item :: items, last)
      | _ => .error ⟨.expectedComma, after.position⟩

/-- Reads the members of an object up to its end. -/
def readMembers (standIn : Option Char) : Nat → Cursor → Except Refusal (Members × Cursor)
  | 0, cursor => .error ⟨.expectedName, cursor.position⟩
  | fuel + 1, cursor =>
      match cursor.rest with
      | '"' :: rest => do
          let (chars, named) ← readText standIn cursor.position 0 (cursor.position + 1) rest
          let colon := skipSpace named.position named.rest
          match colon.rest with
          | ':' :: rest =>
              let (value, next) ← readValue standIn fuel (skipSpace (colon.position + 1) rest)
              let after := skipSpace next.position next.rest
              match after.rest with
              | '\x7d' :: rest =>
                  return ([(.text (String.ofList chars), value)], ⟨after.position + 1, rest⟩)
              | ',' :: rest =>
                  let (members, last) ← readMembers standIn fuel (skipSpace (after.position + 1) rest)
                  return ((.text (String.ofList chars), value) :: members, last)
              | _ => .error ⟨.expectedComma, after.position⟩
          | _ => .error ⟨.expectedColon, colon.position⟩
      | _ => .error ⟨.expectedName, cursor.position⟩

end

def readAll (standIn : Option Char) (text : List Char) : Except Refusal Value :=
  if text.head? == some (Char.ofNat 0xFEFF) then .error ⟨.byteOrderMark, 0⟩
  else do
    let (value, next) ← readValue standIn (text.length + 1) (skipSpace 0 text)
    let last := skipSpace next.position next.rest
    if last.rest.isEmpty then return value else .error ⟨.extraData, last.position⟩

/-- The character that stands in for half of a surrogate pair. -/
def replacement : Char := Char.ofNat 0xFFFD

def read (text : String) : Except ReadError Value :=
  match readAll (some replacement) text.toList with
  | .ok value => .ok value
  | .error refusal => .error (refusal.locate text.toList)

/-- The value that a text holds, if it is JSON and no half of a surrogate pair stands by itself. -/
def value? (text : String) : Option Value :=
  (readAll none text.toList).toOption

/-- A text is JSON but for half of a surrogate pair that stands by itself. -/
def hasLoneSurrogate (text : String) : Bool :=
  (read text).toOption.isSome && (value? text).isNone

end Deduction.Json
