import Deduction.CommandLine.Grammar

namespace Deduction.CommandLine

inductive Subcommand
  | validate
  | canon
  | rulesets
  deriving DecidableEq, Repr

namespace Subcommand

def all : List Subcommand := [.validate, .canon, .rulesets]

def name : Subcommand → String
  | .validate => "validate"
  | .canon => "canon"
  | .rulesets => "rulesets"

def ofName? (text : String) : Option Subcommand :=
  all.find? fun subcommand => subcommand.name == text

end Subcommand

def helpOption : OptionSpec := ⟨["-h", "--help"], .help⟩

/-- What the command itself understands. -/
def topGrammar : Grammar :=
  { options := [helpOption, ⟨["-v", "--verbose"], .flag⟩]
    operands := .subcommand }

def Subcommand.grammar : Subcommand → Grammar
  | .validate =>
      { options :=
          [helpOption, ⟨["--ruleset"], .value⟩, ⟨["--config"], .value⟩, ⟨["--json"], .flag⟩]
        operands := .one "file" }
  | .canon => { options := [helpOption], operands := .many "formulas" }
  | .rulesets => { options := [helpOption], operands := .absent }

def program : String := "proofcheck"

def topUsage : String :=
  "usage: proofcheck [-h] [-v] \x7bvalidate,canon,rulesets\x7d ...\n"

def Subcommand.usage : Subcommand → String
  | .validate =>
      "usage: proofcheck validate [-h] [--ruleset RULESET] [--config CONFIG] [--json]\n" ++
        "                           file\n"
  | .canon => "usage: proofcheck canon [-h] formulas [formulas ...]\n"
  | .rulesets => "usage: proofcheck rulesets [-h]\n"

def topHelp : String :=
  topUsage ++
    "\n" ++
    "Natural-deduction proof checker\n" ++
    "\n" ++
    "positional arguments:\n" ++
    "  \x7bvalidate,canon,rulesets\x7d\n" ++
    "                        Command to run\n" ++
    "    validate            Validate a proof file (JSON or YAML)\n" ++
    "    canon               Print canonical forms of formulas\n" ++
    "    rulesets            Print the ruleset catalog as JSON\n" ++
    "\n" ++
    "options:\n" ++
    "  -h, --help            show this help message and exit\n" ++
    "  -v, --verbose         Enable debug logging\n"

def Subcommand.help : Subcommand → String
  | .validate =>
      Subcommand.validate.usage ++
        "\n" ++
        "positional arguments:\n" ++
        "  file               Path to the proof document\n" ++
        "\n" ++
        "options:\n" ++
        "  -h, --help         show this help message and exit\n" ++
        "  --ruleset RULESET  Ruleset to check against (overrides the document)\n" ++
        "  --config CONFIG    Path to a checker config YAML (default:\n" ++
        "                     $PROOFCHECK_CONFIG)\n" ++
        "  --json             Print the result as JSON\n"
  | .canon =>
      Subcommand.canon.usage ++
        "\n" ++
        "positional arguments:\n" ++
        "  formulas    Formulas to canonicalize\n" ++
        "\n" ++
        "options:\n" ++
        "  -h, --help  show this help message and exit\n"
  | .rulesets =>
      Subcommand.rulesets.usage ++
        "\n" ++
        "options:\n" ++
        "  -h, --help  show this help message and exit\n"

/-- What a run prints, and the status it ends with. -/
structure Output where
  status : Nat
  out : String := ""
  err : String := ""
  deriving DecidableEq, Repr

/-- The output for a usage error of the command. -/
def topMisuse (error : UsageError) : Output :=
  { status := 2, err := topUsage ++ program ++ ": error: " ++ error.message ++ "\n" }

/-- The output for a usage error of a subcommand. -/
def Subcommand.misuse (subcommand : Subcommand) (error : UsageError) : Output :=
  { status := 2
    err :=
      subcommand.usage ++ program ++ " " ++ subcommand.name ++ ": error: " ++ error.message ++
        "\n" }

end Deduction.CommandLine
