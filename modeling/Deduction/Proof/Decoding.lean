import Deduction.Proof.Document
import Deduction.Value.Reading

namespace Deduction

open Value (lookUp?)

/-- The text of a field that may be missing. -/
def fieldOr (key : String) (members : Members) : Except Misfit String :=
  ((lookUp? key members).getD .null).fieldText

/-- The value of the first key that is there, even if it is null. -/
def firstField (keys : List String) (members : Members) : Value :=
  (keys.findSome? fun key => lookUp? key members).getD .null

/-- The depth of a line; a negative one counts as none. -/
def depthOf (members : Members) : Except Misfit Int :=
  match lookUp? "depth" members with
  | some value => if value.isTruthy then (max 0 ·) <$> value.toInteger else .ok 0
  | none => .ok 0

def Line.ofValue (value : Value) : Except Misfit Line := do
  let members ← value.members
  let label ← (firstField ["lineNo", "line_no"] members).fieldText
  let formula ← fieldOr "formula" members
  let rule ← fieldOr "rule" members
  let citations ← Value.elementsOr (lookUp? "refs" members)
  let citations ← citations.mapM Value.fieldText
  let depth ← depthOf members
  return { label, formula, rule, citations, depth }

/-- The document that a value describes. -/
def Document.ofValue (value : Value) : Except Misfit Document := do
  let members ← value.members
  let premises ← Value.elementsOr (lookUp? "premises" members)
  let premises ← premises.mapM Value.fieldText
  let conclusion ← fieldOr "conclusion" members
  let lines ← Value.elementsOr (lookUp? "lines" members)
  let lines ← lines.mapM Line.ofValue
  let ruleset ← (firstField ["ruleset", "rules"] members).fieldText
  return {
    premises, conclusion, lines
    ruleset := if ruleset.isEmpty then none else some ruleset }

def Value.texts (items : List String) : Value :=
  .list (items.map Value.text)

def Line.toValue (line : Line) : Value :=
  .object
    [ ("lineNo", .text line.label),
      ("formula", .text line.formula),
      ("rule", .text line.rule),
      ("refs", .texts line.citations),
      ("depth", .int line.depth) ]

def Document.toValue (document : Document) : Value :=
  .object
    [ ("premises", .texts document.premises),
      ("conclusion", .text document.conclusion),
      ("lines", .list (document.lines.map Line.toValue)),
      ("ruleset", (document.ruleset.map Value.text).getD .null) ]

end Deduction
