import Deduction.Proof.Frame

namespace Deduction

/-- The justification that was looked at. -/
structure Evidence where
  rule : String
  citations : List String := []
  info : Option String := none
  approximate : Bool := false
  deriving DecidableEq, Repr

structure LineVerdict where
  label : String
  ok : Bool
  messages : List String := []
  evidence : Option Evidence := none
  deriving DecidableEq, Repr

structure Verdict where
  ok : Bool
  lines : List LineVerdict
  frames : List Frame
  conclusionReached : Bool := false
  deriving DecidableEq, Repr

namespace Verdict

def failed (verdict : Verdict) : List LineVerdict :=
  verdict.lines.filter fun line => !line.ok

/-- The verdict on the first line with a label. -/
def line? (verdict : Verdict) (label : String) : Option LineVerdict :=
  verdict.lines.find? fun line => line.label == label

end Verdict

end Deduction
