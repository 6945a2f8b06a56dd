import Deduction.Service.Complaint

/-!
Codecs: how the fields of data models are read and written.

A model is read from an object, field by field. What the fields have in common is up to a codec, of
which only some laws are known. A text is read from a text and from nothing else. An integer is read
as it is, if it is not below the bound of its field. Of the keys of a field the first that is there
counts, even if its value is null, and members under other keys do not count. Where a model is
written, its fields that have no value are left out, and nothing else is.
-/

namespace Deduction.Service

open Value (lookUp?)

/-- A way to read the value at a place. -/
abbrev Reading (α : Type) := List Step → Value → Checked α

/-- Elements are read one by one from a position on. -/
inductive EachRead {α : Type} (read : Reading α) (place : List Step) :
    Nat → List Value → List α → Prop
  | nil {position : Nat} : EachRead read place position [] []
  | cons {position : Nat} {item : Value} {items : List Value} {element : α} {elements : List α}
      (hitem : read (place ++ [.index position]) item = .ok element)
      (hitems : EachRead read place (position + 1) items elements) :
      EachRead read place position (item :: items) (element :: elements)

/-- The first of some keys that is there, with its value. -/
def firstMember? (keys : List String) (members : Members) : Option (String × Value) :=
  keys.findSome? fun key => (lookUp? key members).map fun value => (key, value)

def given (fields : List (String × Option Value)) : Members :=
  fields.filterMap fun field => field.2.map fun value => (.text field.1, value)

/-- A codec of data models. A field is given by how it is read, its default and its keys, and a
model by how it is read from its members. A value may be changed before it is read. -/
structure Codec where
  text : Reading String
  flag : Reading Bool
  integer : Option Int → Reading Int
  list {α : Type} : Reading α → Reading (List α)
  optional {α : Type} : Reading α → Reading (Option α)
  changed {α : Type} : (Value → Except Misfit Value) → Reading α → Reading α
  field {α : Type} : Reading α → Option α → List String → List Step → Members → Checked α
  model {α : Type} : (List Step → Members → Checked α) → Reading α
  write : List (String × Option Value) → Value
  text_eq_ok_iff {place : List Step} {value : Value} {content : String} :
    text place value = .ok content ↔ value = .text content
  flag_eq_ok_iff {place : List Step} {value content : Bool} :
    flag place (.bool value) = .ok content ↔ value = content
  integer_eq_ok_iff {least : Option Int} {place : List Step} {value content : Int} :
    integer least place (.int value) = .ok content ↔
      value = content ∧ ∀ bound ∈ least, bound ≤ value
  list_eq_ok_iff {α : Type} {read : Reading α} {place : List Step} {value : Value}
    {elements : List α} :
    list read place value = .ok elements ↔
      ∃ items, value = .list items ∧ EachRead read place 0 items elements
  optional_eq_ok_iff {α : Type} {read : Reading α} {place : List Step} {value : Value}
    {content : Option α} :
    optional read place value = .ok content ↔
      value = .null ∧ content = none ∨
        value ≠ .null ∧ ∃ found, read place value = .ok found ∧ content = some found
  changed_eq_ok_iff {α : Type} {change : Value → Except Misfit Value} {read : Reading α}
    {place : List Step} {value : Value} {content : α} :
    changed change read place value = .ok content ↔
      ∃ found, change value = .ok found ∧ read place found = .ok content
  field_eq_ok_iff {α : Type} {read : Reading α} {default : Option α} {keys : List String}
    {place : List Step} {members : Members} {content : α} :
    field read default keys place members = .ok content ↔
      (∃ key value, firstMember? keys members = some (key, value) ∧
        read (place ++ [.key key]) value = .ok content) ∨
      firstMember? keys members = none ∧ default = some content
  model_eq_ok_iff {α : Type} {fields : List Step → Members → Checked α} {place : List Step}
    {value : Value} {content : α} :
    model fields place value = .ok content ↔
      ∃ members, value = .object members ∧ fields place members = .ok content
  write_eq (fields : List (String × Option Value)) : write fields = .object (given fields)

end Deduction.Service
