namespace Deduction.Yaml

/-- A directive: the version, the meaning of a tag handle, or anything else. -/
inductive Directive
  | version (major : Nat)
  | handle (handle meaning : String)
  | other
  deriving DecidableEq, Repr

inductive Form
  | directive (directive : Directive)
  | documentStart
  | documentEnd
  | streamEnd
  | blockSequenceStart
  | blockMappingStart
  | blockEnd
  | flowSequenceStart
  | flowSequenceEnd
  | flowMappingStart
  | flowMappingEnd
  | key
  | value
  | blockEntry
  | flowEntry
  | alias (name : String)
  | anchor (name : String)
  | tag (handle : Option String) (suffix : String)
  | scalar (text : String) (isPlain : Bool)
  deriving DecidableEq, Repr

def Form.name : Form → String
  | .directive _ => "<directive>"
  | .documentStart => "<document start>"
  | .documentEnd => "<document end>"
  | .streamEnd => "<stream end>"
  | .blockSequenceStart => "<block sequence start>"
  | .blockMappingStart => "<block mapping start>"
  | .blockEnd => "<block end>"
  | .flowSequenceStart => "["
  | .flowSequenceEnd => "]"
  | .flowMappingStart => "\x7b"
  | .flowMappingEnd => "\x7d"
  | .key => "?"
  | .value => ":"
  | .blockEntry => "-"
  | .flowEntry => ","
  | .alias _ => "<alias>"
  | .anchor _ => "<anchor>"
  | .tag _ _ => "<tag>"
  | .scalar _ _ => "<scalar>"

structure Token where
  form : Form
  start : Nat
  finish : Nat
  deriving DecidableEq, Repr

end Deduction.Yaml
