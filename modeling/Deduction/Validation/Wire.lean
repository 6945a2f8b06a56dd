import Deduction.Proof.Decoding
import Deduction.Validation.Verdict
import Deduction.Rule.Ruleset

namespace Deduction

/-- A member that is there only on a condition. -/
def memberIf (condition : Bool) (key : String) (value : Value) : Members :=
  if condition then [(key, value)] else []

def Evidence.toValue (evidence : Evidence) : Value :=
  let info := evidence.info.getD ""
  let always : Members := [("rule", .text evidence.rule), ("refs", .texts evidence.citations)]
  .object
    (always ++
      memberIf (!info.isEmpty) "info" (.text info) ++
      memberIf evidence.approximate "approximate" (.bool true))

def LineVerdict.toValue (line : LineVerdict) : Value :=
  let always : Members :=
    [("lineNo", .text line.label), ("ok", .bool line.ok), ("messages", .texts line.messages)]
  let evidence : Members :=
    line.evidence.toList.map fun evidence => ("evidence", evidence.toValue)
  .object (always ++ evidence)

/-- A frame as a value. A frame without an end is shown to end where it starts. -/
def Frame.toMembers (frame : Frame) : Members :=
  let always : Members :=
    [ ("depth", .int frame.level),
      ("startLineNo", .text frame.startLabel),
      ("endLineNo", .text (frame.stopLabel.getD frame.startLabel)) ]
  always ++ memberIf (!frame.assumption.isEmpty) "assumptionFormula" (.text frame.assumption)

def Verdict.toMembers (verdict : Verdict) : Members :=
  [ ("ok", .bool verdict.ok),
    ("lines", .list (verdict.lines.map LineVerdict.toValue)),
    ("subproofs", .list (verdict.frames.map fun frame => .object frame.toMembers)),
    ("conclusionReached", .bool verdict.conclusionReached) ]

def Verdict.toValue (verdict : Verdict) : Value :=
  .object verdict.toMembers

/-- Every ruleset with its rules and the least number of citations of each. -/
def Ruleset.catalog : Value :=
  .object (Ruleset.all.map fun ruleset =>
    (ruleset.name, .list (ruleset.rules.map fun rule =>
      .object [("name", .text rule.name), ("refs", .int rule.signature.least)])))

end Deduction
