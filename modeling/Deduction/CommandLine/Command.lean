import Deduction.CommandLine.Usage

namespace Deduction.CommandLine

inductive Command
  | validate (file : String) (ruleset config : Option String) (asJson : Bool)
  | canon (formulas : List String)
  | rulesets
  deriving DecidableEq, Repr

/-- The command of a subcommand and its arguments. -/
def Command.ofArguments (subcommand : Subcommand) (arguments : Arguments) : Command :=
  let operands := arguments.operands.getD []
  match subcommand with
  | .validate =>
      .validate (operands.head?.getD "") (arguments.value? "--ruleset")
        (arguments.value? "--config") (arguments.hasFlag "--json")
  | .canon => .canon operands
  | .rulesets => .rulesets

/-- Reads the arguments of a subcommand. `extras` are those that the command itself had no use
for. -/
def Command.readSub (extras : List String) (subcommand : Subcommand) (texts : List String) :
    Except Output Command :=
  match subcommand.grammar.read texts with
  | .error .help => .error { status := 0, out := subcommand.help }
  | .error (.misuse error) => .error (subcommand.misuse error)
  | .ok arguments =>
      let unused := extras ++ arguments.extras
      if unused.isEmpty then .ok (Command.ofArguments subcommand arguments)
      else .error (topMisuse (.unrecognized unused))

/-- Reads the arguments of the command. Where they ask for nothing to be run, the answer is what is
printed instead. -/
def Command.read (texts : List String) : Except Output Command :=
  match topGrammar.read texts with
  | .error .help => .error { status := 0, out := topHelp }
  | .error (.misuse error) => .error (topMisuse error)
  | .ok arguments =>
      match arguments.operands with
      | some (name :: rest) =>
          match Subcommand.ofName? name with
          | some subcommand => Command.readSub arguments.extras subcommand rest
          | none =>
              .error (topMisuse
                (.unknownCommand name (Subcommand.all.map Subcommand.name)))
      | _ =>
          if arguments.extras.isEmpty then .error { status := 1, out := topHelp }
          else .error (topMisuse (.unrecognized arguments.extras))

end Deduction.CommandLine
