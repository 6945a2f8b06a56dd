import Deduction.Number.Decimal
import Deduction.Number.Limit
import Deduction.Text.Quoted
import Deduction.Value.Moment

/-!
Dynamic values, as data formats carry them, and their text.

A value is a scalar, a list or an object. The keys of objects are scalars, texts for the most part;
members stay in the order in which their keys first appeared. Formats differ in what else they
carry: such a value is foreign here and counts as a scalar.
-/

namespace Deduction

/-- What comes of reading a foreign value as a number: the number, a complaint about how it is
written, or nothing, where its kind has no numbers. -/
inductive Numeral (α : Type)
  | number (value : α)
  | misspelt (message : String)
  | unfit
  deriving DecidableEq, Repr

/-- A value of a kind that is not described further, by what can be seen of it. A textual one can
be trimmed as a text can. The elements that it runs through are given by the names of their kinds
and by their texts. -/
structure Foreign where
  kindName : String
  isTruthy : Bool
  isTextual : Bool := false
  isWritable : Bool := true
  shown : String
  integer : Numeral Int := .unfit
  real : Numeral Binary64 := .unfit
  elements : Option (List (String × String)) := none
  deriving DecidableEq, Repr

inductive Scalar
  | null
  | bool (value : Bool)
  | int (value : Int)
  | real (value : Binary64)
  | text (value : String)
  | date (value : Date)
  | moment (value : Moment)
  | foreign (thing : Foreign)
  deriving DecidableEq, Repr, Inhabited

instance : Coe String Scalar := ⟨.text⟩

/-- A value of a data format. -/
inductive Value
  | scalar (value : Scalar)
  | list (items : List Value)
  | object (members : List (Scalar × Value))
  deriving Inhabited

abbrev Members := List (Scalar × Value)

inductive Kind
  | null
  | bool
  | int
  | real
  | text
  | date
  | moment
  | list
  | object
  | foreign (name : String)
  deriving DecidableEq, Repr

def Kind.name : Kind → String
  | .null => "NoneType"
  | .bool => "bool"
  | .int => "int"
  | .real => "float"
  | .text => "str"
  | .date => "datetime.date"
  | .moment => "datetime.datetime"
  | .list => "list"
  | .object => "dict"
  | .foreign name => name

namespace Scalar

def kind : Scalar → Kind
  | .null => .null
  | .bool _ => .bool
  | .int _ => .int
  | .real _ => .real
  | .text _ => .text
  | .date _ => .date
  | .moment _ => .moment
  | .foreign thing => .foreign thing.kindName

/-- A scalar that counts as true: neither null, nor false, nor zero, nor empty. -/
def isTruthy : Scalar → Bool
  | .null => false
  | .bool value => value
  | .int value => value != 0
  | .real value => !value.isZero
  | .text value => !value.isEmpty
  | .date _ => true
  | .moment _ => true
  | .foreign thing => thing.isTruthy

/-- The integer that stands for a scalar among keys, where there is one. -/
def normal : Scalar → Scalar
  | .bool value => .int (if value then 1 else 0)
  | .real (.finite negative significand exponent) =>
      if Binary64.isIntegral (.finite negative significand exponent) then
        .int (Binary64.truncate negative significand exponent)
      else .real (.finite negative significand exponent)
  | value => value

/-- Two scalars are the same key: numbers by their value, whatever their kind. -/
def isSame (first second : Scalar) : Bool :=
  match first.normal, second.normal with
  | .moment left, .moment right => left.isSame right
  | left, right => left == right

/-- The text of a scalar inside another value: texts are quoted. -/
def shown : Scalar → String
  | .null => "None"
  | .bool true => "True"
  | .bool false => "False"
  | .int value => toString value
  | .real value => value.text
  | .text value => Text.quoteString value
  | .date value => value.shown
  | .moment value => value.shown
  | .foreign thing => thing.shown

def display : Scalar → String
  | .text value => value
  | .date value => value.text
  | .moment value => value.text
  | value => value.shown

/-- The scalar is no integer with too many digits, and holds none. -/
def isWritable : Scalar → Bool
  | .int value => Deduction.isWritable value
  | .foreign thing => thing.isWritable
  | _ => true

end Scalar

namespace Value

@[match_pattern] abbrev null : Value := .scalar .null

@[match_pattern] abbrev bool (value : Bool) : Value := .scalar (.bool value)

@[match_pattern] abbrev int (value : Int) : Value := .scalar (.int value)

@[match_pattern] abbrev real (value : Binary64) : Value := .scalar (.real value)

@[match_pattern] abbrev text (value : String) : Value := .scalar (.text value)

@[match_pattern] abbrev foreign (thing : Foreign) : Value := .scalar (.foreign thing)

def kind : Value → Kind
  | .scalar value => value.kind
  | .list _ => .list
  | .object _ => .object

/-- A value that counts as true: neither null, nor false, nor zero, nor empty. -/
def isTruthy : Value → Bool
  | .scalar value => value.isTruthy
  | .list items => !items.isEmpty
  | .object members => !members.isEmpty

/-- Sets a member: a key that is there keeps its place, a new one comes last. -/
def setMember (key : Scalar) (value : Value) : Members → Members
  | [] => [(key, value)]
  | (other, held) :: rest =>
      if other.isSame key then (other, value) :: rest
      else (other, held) :: setMember key value rest

/-- The object with these members, the last value of a key counting. -/
def ofMembers (members : Members) : Value :=
  .object (members.foldl (fun held member => setMember member.1 member.2 held) [])

def lookUp? (key : String) (members : Members) : Option Value :=
  (members.find? fun member => member.1 == .text key).map (·.2)

mutual

/-- The text of a value inside another one: texts are quoted. -/
def shown : Value → String
  | .scalar value => value.shown
  | .list items => "[" ++ ", ".intercalate (shownItems items) ++ "]"
  | .object members => "\x7b" ++ ", ".intercalate (shownMembers members) ++ "\x7d"

/-- The texts of the elements of a list. -/
def shownItems : List Value → List String
  | [] => []
  | item :: rest => item.shown :: shownItems rest

/-- The texts of the members of an object. -/
def shownMembers : Members → List String
  | [] => []
  | (key, value) :: rest => (key.shown ++ ": " ++ value.shown) :: shownMembers rest

end

/-- The text of a value by itself: a text is not quoted. -/
def display : Value → String
  | .scalar value => value.display
  | value => value.shown

mutual

/-- The value holds no integer with too many digits. -/
def isWritable : Value → Bool
  | .scalar value => value.isWritable
  | .list items => areWritable items
  | .object members => membersWritable members

/-- The elements of a list are writable. -/
def areWritable : List Value → Bool
  | [] => true
  | item :: rest => item.isWritable && areWritable rest

/-- The members of an object are writable. -/
def membersWritable : Members → Bool
  | [] => true
  | (key, value) :: rest => key.isWritable && value.isWritable && membersWritable rest

end

end Value

end Deduction
