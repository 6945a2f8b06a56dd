import Deduction.Service.Codec
import Deduction.Validation.Wire

namespace Deduction.Service

/-- What a reply tells of the justification of a line. -/
structure EvidenceReply where
  rule : String
  citations : List String
  info : Option String
  approximate : Option Bool
  deriving DecidableEq, Repr

structure LineReply where
  label : String
  ok : Bool
  messages : List String
  evidence : Option EvidenceReply
  deriving DecidableEq, Repr

structure FrameReply where
  level : Int
  startLabel : String
  stopLabel : String
  assumption : Option String
  deriving DecidableEq, Repr

structure Reply where
  ok : Bool
  lines : List LineReply
  frames : List FrameReply
  conclusionReached : Bool
  deriving DecidableEq, Repr

namespace Codec

def required {α : Type} (codec : Codec) (read : Reading α) (key : String) (place : List Step)
    (members : Members) : Checked α :=
  codec.field read none [key] place members

/-- A field that may be missing or null. -/
def possible {α : Type} (codec : Codec) (read : Reading α) (key : String) (place : List Step)
    (members : Members) : Checked (Option α) :=
  codec.field (codec.optional read) (some none) [key] place members

def evidenceReply (codec : Codec) : Reading EvidenceReply :=
  codec.model fun place members => do
    let rule ← codec.required codec.text "rule" place members
    let citations ← codec.required (codec.list codec.text) "refs" place members
    let info ← codec.possible codec.text "info" place members
    let approximate ← codec.possible codec.flag "approximate" place members
    return { rule, citations, info, approximate }

def lineReply (codec : Codec) : Reading LineReply :=
  codec.model fun place members => do
    let label ← codec.required codec.text "lineNo" place members
    let ok ← codec.required codec.flag "ok" place members
    let messages ← codec.required (codec.list codec.text) "messages" place members
    let evidence ← codec.possible codec.evidenceReply "evidence" place members
    return { label, ok, messages, evidence }

def frameReply (codec : Codec) : Reading FrameReply :=
  codec.model fun place members => do
    let level ← codec.required (codec.integer none) "depth" place members
    let startLabel ← codec.required codec.text "startLineNo" place members
    let stopLabel ← codec.required codec.text "endLineNo" place members
    let assumption ← codec.possible codec.text "assumptionFormula" place members
    return { level, startLabel, stopLabel, assumption }

def reply (codec : Codec) : Reading Reply :=
  codec.model fun place members => do
    let ok ← codec.required codec.flag "ok" place members
    let lines ← codec.required (codec.list codec.lineReply) "lines" place members
    let frames ← codec.required (codec.list codec.frameReply) "subproofs" place members
    let conclusionReached ← codec.required codec.flag "conclusionReached" place members
    return { ok, lines, frames, conclusionReached }

def writeEvidence (codec : Codec) (evidence : EvidenceReply) : Value :=
  codec.write
    [ ("rule", some (.text evidence.rule)),
      ("refs", some (.texts evidence.citations)),
      ("info", evidence.info.map .text),
      ("approximate", evidence.approximate.map .bool) ]

def writeLine (codec : Codec) (line : LineReply) : Value :=
  codec.write
    [ ("lineNo", some (.text line.label)),
      ("ok", some (.bool line.ok)),
      ("messages", some (.texts line.messages)),
      ("evidence", line.evidence.map codec.writeEvidence) ]

def writeFrame (codec : Codec) (frame : FrameReply) : Value :=
  codec.write
    [ ("depth", some (.int frame.level)),
      ("startLineNo", some (.text frame.startLabel)),
      ("endLineNo", some (.text frame.stopLabel)),
      ("assumptionFormula", frame.assumption.map .text) ]

def writeReply (codec : Codec) (reply : Reply) : Value :=
  codec.write
    [ ("ok", some (.bool reply.ok)),
      ("lines", some (.list (reply.lines.map codec.writeLine))),
      ("subproofs", some (.list (reply.frames.map codec.writeFrame))),
      ("conclusionReached", some (.bool reply.conclusionReached)) ]

end Codec

end Deduction.Service
