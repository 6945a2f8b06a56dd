import Deduction.Service.Codec

namespace Deduction.Service

def readText : Reading String := fun place value =>
  match value with
  | .text content => .ok content
  | _ => refuse place .notText

def readFlag : Reading Bool := fun place value =>
  match value with
  | .bool content => .ok content
  | _ => refuse place .notFlag

/-- Leaves out the zeros at the head of digits, and underscores among them. The last zero stays
before a point and at the end, where an underscore spoils the number. -/
def dropZeros : Char → List Char → Option (List Char)
  | last, [] => some [last]
  | last, c :: rest =>
      if c == '0' || c == '_' then dropZeros c rest
      else if '1' ≤ c && c ≤ '9' then some (c :: rest)
      else if c == '.' then some (last :: c :: rest)
      else none

/-- Leaves out a point that is followed by zeros, at least one, and nothing else. -/
def dropFraction (text : List Char) : List Char :=
  let whole := text.takeWhile (· != '.')
  match text.drop whole.length with
  | _ :: fraction => if !fraction.isEmpty && fraction.all (· == '0') then whole else text
  | [] => text

/-- The natural number that digits write, with single underscores between them. -/
def naturalOfDigits? (text : List Char) : Option Nat :=
  if text.all fun c => ('0' ≤ c && c ≤ '9') || c == '_' then Text.digits? text else none

/-- The natural number that an unsigned text writes. -/
def naturalOfText? : List Char → Option Nat
  | '0' :: rest => (dropZeros '0' rest).bind fun digits => naturalOfDigits? (dropFraction digits)
  | c :: rest =>
      if '1' ≤ c && c ≤ '9' then naturalOfDigits? (dropFraction (c :: rest)) else none
  | [] => none

/-- The integer that a text writes: with a sign, zeros at its head, single underscores, and a
point with zeros. -/
def integerOfText? (text : String) : Option Int :=
  match trimNumber text.toList with
  | '+' :: rest => (naturalOfText? rest).map fun n => (n : Int)
  | '-' :: rest => (naturalOfText? rest).map fun n => -(n : Int)
  | rest => (naturalOfText? rest).map fun n => (n : Int)

/-- The range of whole numbers that are taken for integers. -/
def isInRange (n : Int) : Bool :=
  -Int.pow 2 63 ≤ n && n ≤ Int.pow 2 63

def readWhole : Reading Int := fun place value =>
  match value with
  | .int n => .ok n
  | .bool truth => .ok (if truth then 1 else 0)
  | .real x =>
      match (Value.real x).toInteger with
      | .error _ => refuse place .notFinite
      | .ok n =>
          if !x.isIntegral then refuse place .fractional
          else if isInRange n then .ok n
          else refuse place .tooLarge
  | .text text =>
      match integerOfText? text with
      | some n => if n.natAbs < Nat.pow 10 digitLimit then .ok n else refuse place .tooLarge
      | none => refuse place .notIntegerText
  | _ => refuse place .notInteger

/-- An integer that is not below a bound. -/
def readInteger (least : Option Int) : Reading Int := fun place value =>
  match readWhole place value, least with
  | .ok n, some bound => if n < bound then refuse place (.tooSmall bound) else .ok n
  | result, _ => result

/-- Reads every element from a position on, and collects the complaints of all. -/
def readEach {α : Type} (read : Reading α) (place : List Step) :
    Nat → List Value → Checked (List α)
  | _, [] => .ok []
  | position, item :: rest =>
      match read (place ++ [.index position]) item, readEach read place (position + 1) rest with
      | .ok value, .ok values => .ok (value :: values)
      | first, others => .error (complaints first ++ complaints others)

theorem readEach_eq_ok_iff {α : Type} {read : Reading α} {place : List Step} {position : Nat}
    {items : List Value} {elements : List α} :
    readEach read place position items = .ok elements ↔
      EachRead read place position items elements := by
  constructor
  · intro hread
    induction items generalizing position elements with
    | nil =>
        cases hread
        exact .nil
    | cons item rest ih =>
        rw [readEach] at hread
        split at hread
        · rename_i hitem hrest
          cases hread
          exact .cons hitem (ih hrest)
        · cases hread
  · intro heach
    induction heach with
    | nil => rfl
    | cons hitem _ ih => simp only [readEach, hitem, ih]

def readList {α : Type} (read : Reading α) : Reading (List α) := fun place value =>
  match value with
  | .list items => readEach read place 0 items
  | _ => refuse place .notList

def readOptional {α : Type} (read : Reading α) : Reading (Option α) := fun place value =>
  match value with
  | .null => .ok none
  | value => some <$> read place value

/-- A value that is changed before it is read. -/
def readChanged {α : Type} (change : Value → Except Misfit Value) (read : Reading α) :
    Reading α := fun place value =>
  match change value with
  | .ok found => read place found
  | .error misfit => refuse place (.unfit misfit)

/-- A field by the first of its keys that is there. -/
def readField {α : Type} (read : Reading α) (default : Option α) (keys : List String)
    (place : List Step) (members : Members) : Checked α :=
  match firstMember? keys members, default with
  | some (key, value), _ => read (place ++ [.key key]) value
  | none, some content => .ok content
  | none, none => refuse (place ++ [.key (keys.headD "")]) .missing

def readModel {α : Type} (fields : List Step → Members → Checked α) : Reading α :=
  fun place value =>
    match value with
    | .object members => fields place members
    | _ => refuse place .notObject

def Codec.standard : Codec where
  text := readText
  flag := readFlag
  integer := readInteger
  list := readList
  optional := readOptional
  changed := readChanged
  field := readField
  model := readModel
  write fields := .object (given fields)
  text_eq_ok_iff {place value content} := by
    unfold readText
    split
    · simp
    · rename_i hother
      simpa [refuse] using hother content
  flag_eq_ok_iff := by simp [readFlag]
  integer_eq_ok_iff {least place value content} := by
    cases least with
    | none => simp [readInteger, readWhole]
    | some bound =>
        by_cases hsmall : value < bound
        · simp [readInteger, readWhole, hsmall, refuse]
        · simp [readInteger, readWhole, hsmall, Int.not_lt.mp hsmall]
  list_eq_ok_iff {α read place value elements} := by
    unfold readList
    split
    · simp [readEach_eq_ok_iff]
    · rename_i hother
      simpa [refuse] using fun items hitems => absurd hitems (hother items)
  optional_eq_ok_iff {α read place value content} := by
    unfold readOptional
    split
    · simp [eq_comm]
    · rename_i hother
      have hvalue : value ≠ .null := hother
      cases read place value <;> simp [hvalue, Functor.map, Except.map, eq_comm]
  changed_eq_ok_iff {α change read place value content} := by
    cases hchange : change value <;> simp [readChanged, hchange, refuse]
  field_eq_ok_iff {α read default keys place members content} := by
    cases hfirst : firstMember? keys members with
    | some found =>
        obtain ⟨key, value⟩ := found
        simp [readField, hfirst, and_assoc]
    | none => cases default <;> simp [readField, hfirst, refuse]
  model_eq_ok_iff {α fields place value content} := by
    unfold readModel
    split
    · simp
    · rename_i hother
      simpa [refuse] using fun members hmembers => absurd hmembers (hother members)
  write_eq _ := rfl

end Deduction.Service
