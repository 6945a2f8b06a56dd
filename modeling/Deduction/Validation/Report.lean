import Deduction.Validation.Verdict

namespace Deduction

/-- Text moved to the right end of a column. -/
def padLeft (width : Nat) (text : String) : String :=
  String.ofList (List.replicate (width - text.length) ' ') ++ text

/-- The lines of the report on one line of a proof. -/
def LineVerdict.report (line : LineVerdict) : List String :=
  let rule := (line.evidence.map (·.rule)).getD ""
  let citations := ",".intercalate ((line.evidence.map (·.citations)).getD [])
  let suffix := if citations.isEmpty then "" else " [" ++ citations ++ "]"
  ("  " ++ (if line.ok then "✅" else "❌") ++ " " ++ padLeft 4 line.label ++ "  " ++ rule ++
      suffix) ::
    line.messages.map fun message => "        " ++ message

def Frame.report (frame : Frame) : String :=
  "  subproof depth " ++ toString frame.level ++ ": lines " ++ frame.startLabel ++ "-" ++
    frame.stopLabel.getD "None"

def Verdict.reportLines (verdict : Verdict) : List String :=
  verdict.lines.flatMap LineVerdict.report ++ verdict.frames.map Frame.report ++
    [ "",
      "Conclusion reached: " ++ (if verdict.conclusionReached then "True" else "False"),
      if verdict.ok then "✅ Proof is valid"
      else "❌ Proof has " ++ toString verdict.failed.length ++ " invalid line(s)" ]

def Verdict.report (verdict : Verdict) : String :=
  String.join (verdict.reportLines.map (· ++ "\n"))

end Deduction
