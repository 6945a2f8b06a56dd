import Deduction.Json.Reader
import Deduction.Value.Reading

namespace Deduction.Yaml

/-- What a node is: one of the kinds that have values, a sign with a meaning among keys, or
something else that has a name. -/
inductive Tag
  | null
  | bool
  | int
  | real
  | timestamp
  | text
  | sequence
  | mapping
  | merge
  | standard
  | other (name : String)
  deriving DecidableEq, Repr

/-- What the names of the common tags start with. -/
def commonTag : String := "tag:yaml.org,2002:"

/-- The common tags by their short names. -/
def Tag.common : List (String × Tag) :=
  [ ("null", .null),
    ("bool", .bool),
    ("int", .int),
    ("float", .real),
    ("timestamp", .timestamp),
    ("str", .text),
    ("seq", .sequence),
    ("map", .mapping),
    ("merge", .merge),
    ("value", .standard) ]

def Tag.ofName (name : String) : Tag :=
  match Tag.common.find? fun entry => commonTag ++ entry.1 == name with
  | some entry => entry.2
  | none => .other name

def Tag.name : Tag → String
  | .other name => name
  | tag => commonTag ++ ((Tag.common.find? fun entry => entry.2 == tag).map (·.1)).getD ""

/-! ### The forms of plain scalars -/

def trueWords : List String :=
  ["yes", "Yes", "YES", "true", "True", "TRUE", "on", "On", "ON"]

def falseWords : List String :=
  ["no", "No", "NO", "false", "False", "FALSE", "off", "Off", "OFF"]

def nullWords : List String :=
  ["", "~", "null", "Null", "NULL"]

/-- Digits of a class and underscores, at least one character. -/
def areDigits (isDigit : Char → Bool) (text : List Char) : Bool :=
  !text.isEmpty && text.all fun c => isDigit c || c == '_'

/-- A digit other than zero, or any digit where zero may lead, then digits and underscores. -/
def isWhole (mayLeadZero : Bool) : List Char → Bool
  | [] => false
  | c :: rest =>
      Json.isDigit c && (mayLeadZero || c != '0') &&
        rest.all fun d => Json.isDigit d || d == '_'

/-- One or two digits below sixty. -/
def isSixtieth : List Char → Bool
  | [c] => Json.isDigit c
  | [c, d] => '0' ≤ c && c ≤ '5' && Json.isDigit d
  | _ => false

def splitColons : List Char → List (List Char)
  | [] => [[]]
  | c :: rest =>
      match splitColons rest with
      | [] => [[c]]
      | part :: parts => if c == ':' then [] :: part :: parts else (c :: part) :: parts

/-- Places in base sixty, at least two, with colons between them. -/
def isSexagesimal (mayLeadZero : Bool) (text : List Char) : Bool :=
  match splitColons text with
  | first :: place :: places => isWhole mayLeadZero first && (place :: places).all isSixtieth
  | _ => false

/-- An integer in one of the bases. -/
def isInteger (text : List Char) : Bool :=
  match (readSign text).2 with
  | ['0'] => true
  | '0' :: 'b' :: digits => areDigits (fun c => c == '0' || c == '1') digits
  | '0' :: 'x' :: digits => areDigits (fun c => (Json.hexValue? c).isSome) digits
  | '0' :: digits => areDigits (fun c => '0' ≤ c && c ≤ '7') digits
  | unsigned => isWhole false unsigned || isSexagesimal false unsigned

/-- Nothing, or an exponent, whose sign has to be written. -/
def isExponent : List Char → Bool
  | [] => true
  | mark :: sign :: digits =>
      (mark == 'e' || mark == 'E') && (sign == '+' || sign == '-') && !digits.isEmpty &&
        digits.all Json.isDigit
  | _ => false

/-- A number with a point. Without digits before the point there has to be one right after it, and
no sign; in base sixty there is no exponent. -/
def isReal (text : List Char) : Bool :=
  let unsigned := (readSign text).2
  let isNamed (names : List String) (text : List Char) : Bool := names.contains (String.ofList text)
  if isNamed [".inf", ".Inf", ".INF"] unsigned || isNamed [".nan", ".NaN", ".NAN"] text then true
  else
    let whole := unsigned.takeWhile (· != '.')
    match unsigned.drop whole.length with
    | _ :: after =>
        let fraction := after.takeWhile fun c => Json.isDigit c || c == '_'
        let rest := after.drop fraction.length
        if whole.isEmpty then
          text.head? == some '.' && (fraction.head?.map Json.isDigit).getD false &&
            isExponent rest
        else (isWhole true whole && isExponent rest) || (isSexagesimal true whole && rest.isEmpty)
    | [] => false

/-! ### Dates and moments -/

structure Timestamp where
  year : Nat
  month : Nat
  day : Nat
  time : Option (Nat × Nat × Nat × Nat)
  offset : Option Int
  deriving DecidableEq, Repr

/-- Reads digits, at least and at most so many. -/
def readPart? (least most : Nat) (text : List Char) : Option (Nat × List Char) :=
  let digits := text.takeWhile Json.isDigit
  if least ≤ digits.length && digits.length ≤ most then
    some (Json.decimal digits, text.drop digits.length)
  else none

def readChar? (wanted : Char) : List Char → Option (List Char)
  | c :: rest => if c == wanted then some rest else none
  | [] => none

/-- Reads the offset that may end a moment. -/
def readOffset? (text : List Char) : Option (Option Int) :=
  match text, text.dropWhile fun c => c == ' ' || c == '\t' with
  | [], _ => some none
  | _, ['Z'] => some (some 0)
  | _, sign :: rest => do
      if sign != '+' && sign != '-' then none
      let (hours, after) ← readPart? 1 2 rest
      let minutes ←
        match after with
        | [] => some 0
        | _ => do
            let (minutes, last) ← readPart? 2 2 (← readChar? ':' after)
            if last.isEmpty then some minutes else none
      let span : Int := (hours * 60 + minutes : Nat)
      return some (if sign == '-' then -span else span)
  | _, [] => none

/-- Reads the fraction that may follow the seconds, in millionths. -/
def readFraction : List Char → Nat × List Char
  | '.' :: text =>
      let digits := text.takeWhile Json.isDigit
      let six := digits.take 6
      (Json.decimal (six ++ List.replicate (6 - six.length) '0'), text.drop digits.length)
  | text => (0, text)

/-- Passes over what stands between a date and a time: a letter, or blanks. -/
def readDivider? : List Char → Option (List Char)
  | c :: rest =>
      if c == 'T' || c == 't' then some rest
      else if c == ' ' || c == '\t' then some (rest.dropWhile fun c => c == ' ' || c == '\t')
      else none
  | [] => none

/-- The date or moment that a text writes. -/
def timestamp? (text : List Char) : Option Timestamp := do
  let (year, rest) ← readPart? 4 4 text
  let (month, rest) ← readPart? 1 2 (← readChar? '-' rest)
  let (day, rest) ← readPart? 1 2 (← readChar? '-' rest)
  if rest.isEmpty then
    return { year, month, day, time := none, offset := none }
  else
    let (hour, rest) ← readPart? 1 2 (← readDivider? rest)
    let (minute, rest) ← readPart? 2 2 (← readChar? ':' rest)
    let (second, rest) ← readPart? 2 2 (← readChar? ':' rest)
    let (microsecond, rest) := readFraction rest
    let offset ← readOffset? rest
    return { year, month, day, time := some (hour, minute, second, microsecond), offset }

/-- A plain text for a date or moment. A date by itself has two digits for month and day. -/
def isTimestamp (text : List Char) : Bool :=
  match timestamp? text with
  | some found => found.time.isSome || text.length == 10
  | none => false

def Tag.ofPlain (text : String) : Tag :=
  if nullWords.contains text then .null
  else if trueWords.contains text || falseWords.contains text then .bool
  else if text == "<<" then .merge
  else if text == "=" then .standard
  else if isReal text.toList then .real
  else if isInteger text.toList then .int
  else if isTimestamp text.toList then .timestamp
  else .text

/-! ### The values of scalars -/

/-- The letter that may stand between a zero and the digits of a base. -/
def baseLetter (base : Nat) : Char :=
  if base == 2 then 'b' else if base == 8 then 'o' else 'x'

/-- The digits of a base without the zero and the letter that may stand before them. -/
def baseDigits (base : Nat) : List Char → List Char
  | '0' :: c :: digits => if c.toLower == baseLetter base then digits else '0' :: c :: digits
  | digits => digits

/-- The number that digits write in a base. -/
def inBase (base : Nat) (text : List Char) : Except Misfit Int :=
  let (negative, unsigned) := readSign (trimNumber text)
  let digits := baseDigits base unsigned
  let read :=
    digits.foldl
      (fun value c => do
        let digit ← (Text.digitValue? c).or (Json.hexValue? c)
        if digit < base then return base * (← value) + digit else none)
      (if digits.isEmpty then none else some 0)
  match read with
  | some n => .ok (if negative then -(n : Int) else n)
  | none => .error (.notIntegerText base (String.ofList text))

/-- What is wrong with a text for a number that has nothing after its sign. -/
def noNumber : Misfit := .foreign (.other "IndexError") "string index out of range"

/-- The integer with these places in base sixty. -/
def ofPlaces (places : List Int) : Int :=
  places.foldl (fun value place => 60 * value + place) 0

/-- The integer that a text without underscores and sign writes. -/
def unsignedInteger (text : List Char) : Except Misfit Int :=
  match text with
  | [] => .error noNumber
  | ['0'] => .ok 0
  | '0' :: 'b' :: digits => inBase 2 digits
  | '0' :: 'x' :: digits => inBase 16 digits
  | '0' :: _ => inBase 8 text
  | _ =>
      if text.contains ':' then do
        let places ← (splitColons text).mapM fun place => integerOfText (String.ofList place)
        return ofPlaces places
      else integerOfText (String.ofList text)

def integerOf (text : String) : Except Misfit Int := do
  let (negative, unsigned) := readSign (text.toList.filter (· != '_'))
  let n ← unsignedInteger unsigned
  return if negative then -n else n

/-- The number that a text writes in base ten. -/
def placeOf (text : List Char) : Except Misfit Binary64 :=
  match realOfText? (String.ofList text) with
  | some x => .ok x
  | none => .error (.notRealText (String.ofList text))

/-- The sum of places in base sixty from the last one on, rounded at each step. `unit` is the worth
of the last place. -/
def sumPlaces : Nat → Binary64 → List Binary64 → Except Misfit Binary64
  | _, total, [] => .ok total
  | unit, total, place :: rest => do
      let worth ← Value.realOfInt unit
      sumPlaces (60 * unit) (total.add (place.mul worth)) rest

def realOf (text : String) : Except Misfit Binary64 := do
  let lowered := Text.lower (text.toList.filter (· != '_'))
  let (negative, unsigned) := readSign lowered
  let x ←
    if lowered.isEmpty then .error noNumber
    else if String.ofList unsigned == ".inf" then pure (Binary64.infinite false)
    else if String.ofList unsigned == ".nan" then pure Binary64.nan
    else if unsigned.contains ':' then do
      let places ← (splitColons unsigned).mapM placeOf
      sumPlaces 1 (.ofInt 0) places.reverse
    else placeOf unsigned
  return if negative then x.neg else x

/-- The date or moment with these parts. -/
def Timestamp.scalar (timestamp : Timestamp) : Except CalendarFault Scalar :=
  match timestamp.time with
  | none => Scalar.date <$> Date.ofParts timestamp.year timestamp.month timestamp.day
  | some (hour, minute, second, microsecond) =>
      Scalar.moment <$>
        Moment.ofParts timestamp.year timestamp.month timestamp.day hour minute second microsecond
          timestamp.offset

def orCalendar {α : Type} : Except CalendarFault α → Except Misfit α
  | .ok value => .ok value
  | .error fault => .error (.calendar fault)

/-- What is wrong with a text that is no word for a truth value. -/
def noWord (word : String) : Misfit :=
  .foreign (.other "KeyError") (Text.quoteString word)

/-- The value of a scalar of a tag; nothing if the tag has none. -/
def Tag.scalar? (tag : Tag) (text : String) : Option (Except Misfit Scalar) :=
  match tag with
  | .null => some (.ok .null)
  | .bool =>
      let word := Text.lowerString text
      if trueWords.contains word then some (.ok (.bool true))
      else if falseWords.contains word then some (.ok (.bool false))
      else some (.error (noWord word))
  | .int => some (Scalar.int <$> integerOf text)
  | .real => some (Scalar.real <$> realOf text)
  | .timestamp =>
      match timestamp? text.toList with
      | some found => some (orCalendar found.scalar)
      | none => some (.error (.lacksMember .null "groupdict"))
  | .text => some (.ok (.text text))
  | _ => none

end Deduction.Yaml
