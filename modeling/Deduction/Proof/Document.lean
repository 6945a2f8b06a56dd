namespace Deduction

/-- One line of a proof as submitted. The label is the submitter's own, the rule is free text, and
the depth counts the subproofs around the line. -/
structure Line where
  label : String
  formula : String := ""
  rule : String := ""
  citations : List String := []
  depth : Int := 0
  deriving DecidableEq, Repr

/-- The number of subproofs around a line; a negative depth counts as none. -/
def Line.level (line : Line) : Nat :=
  line.depth.toNat

/-- A proof to be validated. The ruleset is free text, missing where none is named. -/
structure Document where
  premises : List String
  conclusion : String
  lines : List Line
  ruleset : Option String := none
  deriving DecidableEq, Repr

end Deduction
