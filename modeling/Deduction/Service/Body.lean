import Deduction.Proof.Document
import Deduction.Service.Codec

/-!
Documents from the bodies of requests.

Bodies are read more strictly than files: every field has its kind, and all defects are collected
in the order of the fields. Integers are taken for texts in labels and citations only. A key that
is there counts, even if its value is null.
-/

namespace Deduction.Service

def changeLabel : Value → Except Misfit Value
  | .int value =>
      if isWritable value then .ok (.text (toString value)) else .error .unwritableInteger
  | value => .ok value

/-- Writes the integers among citations out as texts; null stands for none. -/
def changeCitations : Value → Except Misfit Value
  | .null => .ok (.list [])
  | .list items => .list <$> items.mapM changeLabel
  | value => .ok value

namespace Codec

def line (codec : Codec) : Reading Line :=
  codec.model fun place members =>
    let label :=
      codec.field (codec.changed changeLabel codec.text) none ["lineNo", "line_no"] place members
    let formula := codec.field codec.text (some "") ["formula"] place members
    let rule := codec.field codec.text (some "") ["rule"] place members
    let citations :=
      codec.field (codec.changed changeCitations (codec.list codec.text)) (some []) ["refs"] place
        members
    let depth := codec.field (codec.integer (some 0)) (some 0) ["depth"] place members
    match label, formula, rule, citations, depth with
    | .ok label, .ok formula, .ok rule, .ok citations, .ok depth =>
        .ok { label, formula, rule, citations, depth }
    | _, _, _, _, _ =>
        .error (complaints label ++ complaints formula ++ complaints rule ++
          complaints citations ++ complaints depth)

def document (codec : Codec) : Reading Document :=
  codec.model fun place members =>
    let premises := codec.field (codec.list codec.text) (some []) ["premises"] place members
    let conclusion := codec.field codec.text (some "") ["conclusion"] place members
    let lines := codec.field (codec.list codec.line) (some []) ["lines"] place members
    let ruleset :=
      codec.field (codec.optional codec.text) (some none) ["ruleset", "rules"] place members
    match premises, conclusion, lines, ruleset with
    | .ok premises, .ok conclusion, .ok lines, .ok ruleset =>
        .ok { premises, conclusion, lines, ruleset }
    | _, _, _, _ =>
        .error (complaints premises ++ complaints conclusion ++ complaints lines ++
          complaints ruleset)

end Codec

/-- The document in a body. A body that is null is missing. -/
def readDocument (codec : Codec) : Option Value → Checked Document
  | none => refuse [.key "body"] .missing
  | some .null => refuse [.key "body"] .missing
  | some body => codec.document [.key "body"] body

end Deduction.Service
