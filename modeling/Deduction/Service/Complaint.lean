import Deduction.Value.Reading

namespace Deduction.Service

/-- What is wrong with a part of a body. -/
inductive Defect
  | missing
  | notObject
  | notList
  | notText
  | notFlag
  | notInteger
  | notIntegerText
  | fractional
  | notFinite
  | tooLarge
  | tooSmall (least : Int)
  | unfit (misfit : Misfit)
  deriving DecidableEq, Repr

def Defect.name : Defect → String
  | .missing => "missing"
  | .notObject => "model_attributes_type"
  | .notList => "list_type"
  | .notText => "string_type"
  | .notFlag => "bool_type"
  | .notInteger => "int_type"
  | .notIntegerText => "int_parsing"
  | .fractional => "int_from_float"
  | .notFinite => "finite_number"
  | .tooLarge => "int_parsing_size"
  | .tooSmall _ => "greater_than_equal"
  | .unfit _ => "value_error"

def Defect.message : Defect → String
  | .missing => "Field required"
  | .notObject => "Input should be a valid dictionary or object to extract fields from"
  | .notList => "Input should be a valid list"
  | .notText => "Input should be a valid string"
  | .notFlag => "Input should be a valid boolean"
  | .notInteger => "Input should be a valid integer"
  | .notIntegerText =>
      "Input should be a valid integer, unable to parse string as an integer"
  | .fractional => "Input should be a valid integer, got a number with a fractional part"
  | .notFinite => "Input should be a finite number"
  | .tooLarge => "Unable to parse input string as an integer, exceeded maximum size"
  | .tooSmall least => "Input should be greater than or equal to " ++ toString least
  | .unfit misfit => "Value error, " ++ misfit.message

/-- A step into a value: to a member, or to an element. -/
inductive Step
  | key (name : String)
  | index (position : Nat)
  deriving DecidableEq, Repr

/-- A complaint: a defect and the steps that lead to it. -/
structure Complaint where
  defect : Defect
  place : List Step
  deriving DecidableEq, Repr

def Step.toValue : Step → Value
  | .key name => .text name
  | .index position => .int position

def Complaint.toValue (complaint : Complaint) : Value :=
  .object
    [ ("type", .text complaint.defect.name),
      ("loc", .list (complaint.place.map Step.toValue)),
      ("msg", .text complaint.defect.message) ]

/-- What was read, or the complaints about it. -/
abbrev Checked (α : Type) := Except (List Complaint) α

def refuse {α : Type} (place : List Step) (defect : Defect) : Checked α :=
  .error [⟨defect, place⟩]

/-- The complaints, none if something was read. -/
def complaints {α : Type} : Checked α → List Complaint
  | .ok _ => []
  | .error found => found

end Deduction.Service
