import Deduction.Text.Blank
import Deduction.Text.Digit
import Deduction.Text.Letter
import Deduction.Value.Basic

namespace Deduction

/-- What goes wrong with a misfit: a value out of shape, a kind that does not do, a member that is
lacking, a number out of range, or something else that has a name. -/
inductive MisfitClass
  | value
  | kind
  | member
  | range
  | other (name : String)
  deriving DecidableEq, Repr

/-- How a value does not fit the use made of it. What goes wrong with a foreign value is given by
its class and its wording. -/
inductive Misfit
  | lacksMember (kind : Kind) (member : String)
  | notIterable (kind : Kind)
  | notContainer (kind : Kind)
  | notIntegerText (base : Nat) (text : String)
  | tooManyDigits (count : Nat)
  | unwritableInteger
  | notInteger (kind : Kind)
  | notRealText (text : String)
  | notReal (kind : Kind)
  | infiniteInteger
  | undefinedInteger
  | integerTooLarge
  | notCharacter
  | characterTooLarge
  | calendar (fault : CalendarFault)
  | foreign (sort : MisfitClass) (message : String)
  deriving DecidableEq, Repr

namespace Misfit

def classOf : Misfit → MisfitClass
  | .lacksMember _ _ => .member
  | .notIterable _ => .kind
  | .notContainer _ => .kind
  | .notIntegerText _ _ => .value
  | .tooManyDigits _ => .value
  | .unwritableInteger => .value
  | .notInteger _ => .kind
  | .notRealText _ => .value
  | .notReal _ => .kind
  | .infiniteInteger => .range
  | .undefinedInteger => .value
  | .integerTooLarge => .range
  | .notCharacter => .value
  | .characterTooLarge => .range
  | .calendar _ => .value
  | .foreign sort _ => sort

/-- A value out of shape or a kind that does not do. -/
def isPlain (misfit : Misfit) : Bool :=
  misfit.classOf == .value || misfit.classOf == .kind

def message : Misfit → String
  | .lacksMember kind member =>
      "'" ++ kind.name ++ "' object has no attribute '" ++ member ++ "'"
  | .notIterable kind => "'" ++ kind.name ++ "' object is not iterable"
  | .notContainer kind => "argument of type '" ++ kind.name ++ "' is not iterable"
  | .notIntegerText base text =>
      "invalid literal for int() with base " ++ toString base ++ ": " ++ Text.quoteString text
  | .tooManyDigits count => readLimitMessage count
  | .unwritableInteger => limitMessage ""
  | .notInteger kind =>
      "int() argument must be a string, a bytes-like object or a real number, not '" ++
        kind.name ++ "'"
  | .notRealText text => "could not convert string to float: " ++ Text.quoteString text
  | .notReal kind =>
      "float() argument must be a string or a real number, not '" ++ kind.name ++ "'"
  | .infiniteInteger => "cannot convert float infinity to integer"
  | .undefinedInteger => "cannot convert float NaN to integer"
  | .integerTooLarge => "int too large to convert to float"
  | .notCharacter => "chr() arg not in range(0x110000)"
  | .characterTooLarge => "Python int too large to convert to C int"
  | .calendar fault => fault.message
  | .foreign _ message => message

end Misfit

/-- The blanks that may stand around a number: all but the information separators. -/
def isNumberBlank (c : Char) : Bool :=
  Text.isBlank c && !(0x1C ≤ c.toNat && c.toNat ≤ 0x1F)

/-- Removes the blanks around a number. -/
def trimNumber (text : List Char) : List Char :=
  ((text.dropWhile isNumberBlank).reverse.dropWhile isNumberBlank).reverse

/-- Reads an optional sign; the answer is whether it is a minus. -/
def readSign : List Char → Bool × List Char
  | '-' :: rest => (true, rest)
  | '+' :: rest => (false, rest)
  | text => (false, text)

/-- The integer that a text writes: blanks around it, an optional sign, decimal digits of any
script with single underscores between them. Too many digits are refused before what follows them
is looked at. -/
def integerOfText (text : String) : Except Misfit Int :=
  let (negative, rest) := readSign (trimNumber text.toList)
  match Text.digitRun? rest with
  | none => .error (.notIntegerText 10 text)
  | some run =>
      if digitLimit < run.count then .error (.tooManyDigits run.count)
      else if run.rest.isEmpty then .ok (if negative then -(run.value : Int) else run.value)
      else .error (.notIntegerText 10 text)

/-- Reads the digits at the head of a text, passing over single underscores between digits. The
answer is the value, the number of digits and the rest. -/
def readDigits : Nat → Nat → List Char → Nat × Nat × List Char
  | value, count, [] => (value, count, [])
  | value, count, c :: rest =>
      match Text.digitValue? c with
      | some digit => readDigits (10 * value + digit) (count + 1) rest
      | none =>
          if c == '_' && 0 < count && (rest.head?.bind Text.digitValue?).isSome then
            readDigits value count rest
          else (value, count, c :: rest)

/-- Reads the exponent that may end a number. -/
def readExponent? : List Char → Option Int
  | [] => some 0
  | c :: rest =>
      if c == 'e' || c == 'E' then
        let (negative, digits) := readSign rest
        match readDigits 0 0 digits with
        | (value, count, []) =>
            if count == 0 then none else some (if negative then -(value : Int) else value)
        | _ => none
      else none

/-- The number that an unsigned text writes with digits, a point and an exponent. -/
def decimalOfText? (negative : Bool) (text : List Char) : Option Binary64 :=
  let (whole, wholeCount, rest) := readDigits 0 0 text
  let (fraction, fractionCount, rest) :=
    match rest with
    | '.' :: after => readDigits 0 0 after
    | _ => (0, 0, rest)
  if wholeCount + fractionCount == 0 then none
  else
    match readExponent? rest with
    | some e =>
        some (.ofDecimal negative (whole * Nat.pow 10 fractionCount + fraction)
          (e - (fractionCount : Int)))
    | none => none

/-- The number that a text writes: blanks around it, an optional sign, then a decimal or the name
of infinity or of no number, in any case. -/
def realOfText? (text : String) : Option Binary64 :=
  let (negative, rest) := readSign (trimNumber text.toList)
  if rest.all fun c => c.toNat < 0x80 then
    let name := String.ofList (Text.lower rest)
    if name == "inf" || name == "infinity" then some (.infinite negative)
    else if name == "nan" then some .nan
    else decimalOfText? negative rest
  else decimalOfText? negative rest

namespace Value

/-- The text of a value by itself, if it can be written. -/
def displayed (value : Value) : Except Misfit String :=
  if value.isWritable then .ok value.display else .error .unwritableInteger

/-- The text of a field: nothing for null. -/
def fieldText : Value → Except Misfit String
  | .null => .ok ""
  | value => value.displayed

/-- The members of an object; other values have none to get. -/
def members : Value → Except Misfit Members
  | .object members => .ok members
  | value => .error (.lacksMember value.kind "get")

def ofForeign (kindName text : String) : Value :=
  .foreign { kindName, isTruthy := !text.isEmpty, shown := text }

/-- The elements that a value runs through: those of a list, the characters of a text, the keys of
an object, and those of a foreign value that has some. -/
def elements : Value → Except Misfit (List Value)
  | .list items => .ok items
  | .text value => .ok (value.toList.map fun c => .text (String.ofList [c]))
  | .object members => .ok (members.map fun member => .scalar member.1)
  | .foreign thing =>
      match thing.elements with
      | some items => .ok (items.map fun item => ofForeign item.1 item.2)
      | none => .error (.notIterable (.foreign thing.kindName))
  | value => .error (.notIterable value.kind)

/-- The elements of a field that may be missing or count as false. -/
def elementsOr (field : Option Value) : Except Misfit (List Value) :=
  match field with
  | some value => if value.isTruthy then value.elements else .ok []
  | none => .ok []

/-- The number of a foreign value; `unfit` is what is wrong with a kind that has none. -/
def ofNumeral {α : Type} (unfit : Misfit) : Numeral α → Except Misfit α
  | .number value => .ok value
  | .misspelt message => .error (.foreign .value message)
  | .unfit => .error unfit

/-- The integer of a value. A number is cut off toward zero. -/
def toInteger : Value → Except Misfit Int
  | .int value => .ok value
  | .bool value => .ok (if value then 1 else 0)
  | .real .nan => .error .undefinedInteger
  | .real (.infinite _) => .error .infiniteInteger
  | .real (.finite negative significand exponent) =>
      .ok (Binary64.truncate negative significand exponent)
  | .text value => integerOfText value
  | .foreign thing => ofNumeral (.notInteger (.foreign thing.kindName)) thing.integer
  | value => .error (.notInteger value.kind)

/-- The nearest number to an integer, which has to be in range. -/
def realOfInt (n : Int) : Except Misfit Binary64 :=
  match Binary64.ofInt n with
  | .infinite _ => .error .integerTooLarge
  | value => .ok value

def toReal : Value → Except Misfit Binary64
  | .real value => .ok value
  | .int value => realOfInt value
  | .bool value => realOfInt (if value then 1 else 0)
  | .text value =>
      match realOfText? value with
      | some x => .ok x
      | none => .error (.notRealText value)
  | .foreign thing => ofNumeral (.notReal (.foreign thing.kindName)) thing.real
  | value => .error (.notReal value.kind)

end Value

end Deduction
