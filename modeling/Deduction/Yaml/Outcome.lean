import Deduction.Value.Reading

/-!
Readers of YAML, whatever they make of a text.

Policies and documents are read by a reader that is given. It may refuse a text, and it may break
off at a scalar that stands for no value.
-/

namespace Deduction.Yaml

inductive Failure
  | refused (message : String)
  | misfit (misfit : Misfit)
  deriving DecidableEq, Repr

/-- A reader: the value of a text, or why there is none. -/
abbrev Reader := String → Except Failure Value

end Deduction.Yaml
