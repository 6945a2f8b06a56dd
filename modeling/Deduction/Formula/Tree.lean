import Deduction.Formula.Basic
import Deduction.Value.Basic

namespace Deduction

/-- A value that stands where a formula is expected. -/
structure TreeError where
  kind : Kind
  deriving DecidableEq, Repr

def TreeError.message (error : TreeError) : String :=
  "Unknown expression type: <class '" ++ error.kind.name ++ "'>"

def Formula.connective? (name : String) : Option (Formula → Formula → Formula) :=
  if name == "and" then some .conj
  else if name == "or" then some .disj
  else if name == "imp" then some .imp
  else if name == "iff" then some .iff
  else none

/-- The formula of a tree. Parts are looked at from left to right. -/
def Formula.ofValue : Value → Except TreeError Formula
  | .list [.text "var", .text name] => .ok (.atom name)
  | .list [.text "not", body] => do
      return .neg (← Formula.ofValue body)
  | .list [.text name, left, right] =>
      match Formula.connective? name with
      | some connective => do
          let first ← Formula.ofValue left
          let second ← Formula.ofValue right
          return connective first second
      | none => .error ⟨.list⟩
  | value => .error ⟨value.kind⟩

end Deduction
