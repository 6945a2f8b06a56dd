import Deduction.Text.Digit
import Deduction.Text.Quoted

/-!
Arguments of a command: options, which start with a dash, and operands.

Every argument is classified before any is used. Long options may be shortened as long as one
option is meant, and may carry their value after an equals sign; short options that take no value
may be joined. A double dash makes operands of all arguments after it. Arguments for which there
is no use are kept apart.
-/

namespace Deduction.CommandLine

inductive OptionKind
  | help
  | flag
  | value
  deriving DecidableEq, Repr

/-- An option: its names and its purpose. -/
structure OptionSpec where
  names : List String
  kind : OptionKind
  deriving DecidableEq, Repr

/-- How many operands a command takes; a subcommand takes all that follows it. -/
inductive Operands
  | absent
  | one (name : String)
  | many (name : String)
  | subcommand
  deriving DecidableEq, Repr

/-- The arguments that a command understands. -/
structure Grammar where
  options : List OptionSpec
  operands : Operands
  deriving DecidableEq, Repr

inductive UsageError
  | ambiguous (argument : String) (candidates : List String)
  | unusedValue (option : OptionSpec) (value : String)
  | missingValue (option : OptionSpec)
  | missingOperand (name : String)
  | unknownCommand (name : String) (known : List String)
  | unrecognized (arguments : List String)
  deriving DecidableEq, Repr

def OptionSpec.title (option : OptionSpec) : String :=
  "/".intercalate option.names

def UsageError.message : UsageError → String
  | .ambiguous argument candidates =>
      "ambiguous option: " ++ argument ++ " could match " ++ ", ".intercalate candidates
  | .unusedValue option value =>
      "argument " ++ option.title ++ ": ignored explicit argument " ++ Text.quoteString value
  | .missingValue option => "argument " ++ option.title ++ ": expected one argument"
  | .missingOperand name => "the following arguments are required: " ++ name
  | .unknownCommand name known =>
      "argument command: invalid choice: " ++ Text.quoteString name ++ " (choose from " ++
        ", ".intercalate (known.map Text.quoteString) ++ ")"
  | .unrecognized arguments => "unrecognized arguments: " ++ " ".intercalate arguments

/-- An option as it was recognized, with the text that is attached to its name. -/
structure Recognized where
  option : OptionSpec
  name : List Char
  attached : Option (List Char)
  deriving DecidableEq, Repr

inductive Mark
  | operand
  | dashes
  | option (recognized : Recognized)
  | unknownOption
  deriving DecidableEq, Repr

structure Argument where
  text : String
  mark : Mark
  deriving DecidableEq, Repr

/-- The argument is an option, known or not. -/
def Argument.isOption (argument : Argument) : Bool :=
  match argument.mark with
  | .option _ => true
  | .unknownOption => true
  | _ => false

/-- Every name of an option, with the option. -/
def Grammar.named (grammar : Grammar) : List (List Char × OptionSpec) :=
  grammar.options.flatMap fun option => option.names.map fun name => (name.toList, option)

def Grammar.option? (grammar : Grammar) (name : List Char) : Option OptionSpec :=
  (grammar.named.find? fun entry => entry.1 == name).map (·.2)

/-- The parts of a text around its first equals sign. -/
def atEquals (text : List Char) : List Char × Option (List Char) :=
  let name := text.takeWhile (· != '=')
  match text.drop name.length with
  | _ :: value => (name, some value)
  | [] => (name, none)

/-- The options that an argument may stand for. A long one may be shortened; a short one may have
a value or further options joined to it. -/
def Grammar.candidates (grammar : Grammar) (text : List Char) : List Recognized :=
  match text with
  | '-' :: '-' :: _ =>
      let (start, value) := atEquals text
      grammar.named.filterMap fun (name, option) =>
        if start.isPrefixOf name then
          some ⟨option, name, value⟩
        else none
  | _ =>
      grammar.named.filterMap fun (name, option) =>
        if name == text.take 2 then some ⟨option, name, some (text.drop 2)⟩
        else if text.isPrefixOf name then some ⟨option, name, none⟩
        else none

/-- The text without a line feed at its end. -/
def withoutLineFeed (text : List Char) : List Char :=
  if text.getLast? == some '\n' then text.dropLast else text

/-- A decimal digit of any script. -/
def isAnyDigit (c : Char) : Bool :=
  (Text.digitValue? c).isSome

/-- An argument that looks like a negative number. -/
def isNegativeNumber (text : List Char) : Bool :=
  match withoutLineFeed text with
  | '-' :: unsigned =>
      match unsigned.drop (unsigned.takeWhile isAnyDigit).length with
      | [] => !unsigned.isEmpty
      | '.' :: fraction => !fraction.isEmpty && fraction.all isAnyDigit
      | _ => false
  | _ => false

/-- What an argument is, when it starts with a dash and is no option as it stands. -/
def Grammar.classifyOther (grammar : Grammar) (text : String) : Except UsageError Mark :=
  match grammar.candidates text.toList with
  | [recognized] => .ok (.option recognized)
  | [] =>
      if isNegativeNumber text.toList || text.toList.contains ' ' then .ok .operand
      else .ok .unknownOption
  | several => .error (.ambiguous text (several.map fun one => String.ofList one.name))

def Grammar.classify (grammar : Grammar) (text : String) : Except UsageError Mark :=
  if text.toList.head? != some '-' then .ok .operand
  else
    match grammar.option? text.toList with
    | some option => .ok (.option ⟨option, text.toList, none⟩)
    | none =>
        if text == "-" then .ok .operand
        else
          match atEquals text.toList with
          | (name, some value) =>
              match grammar.option? name with
              | some option => .ok (.option ⟨option, name, some value⟩)
              | none => grammar.classifyOther text
          | _ => grammar.classifyOther text

/-- Classifies all arguments, up to a double dash by their form. -/
def Grammar.classifyAll (grammar : Grammar) : List String → Except UsageError (List Argument)
  | [] => .ok []
  | text :: rest =>
      if text == "--" then
        .ok (⟨text, .dashes⟩ :: rest.map fun other => ⟨other, .operand⟩)
      else do
        let mark ← grammar.classify text
        let others ← grammar.classifyAll rest
        return ⟨text, mark⟩ :: others

structure Use where
  option : OptionSpec
  value : Option String := none
  deriving DecidableEq, Repr

/-- An option with a text for its value; a double dash is no value. -/
def OptionSpec.use (option : OptionSpec) (text : List Char) : Use :=
  ⟨option, if text == ['-', '-'] then none else some (String.ofList text)⟩

/-- What the arguments of a command come to. -/
structure Arguments where
  uses : List Use := []
  operands : Option (List String) := none
  extras : List String := []
  deriving DecidableEq, Repr

/-- Why the arguments of a command come to nothing: help is asked for, or they are wrong. -/
inductive Stop
  | help
  | misuse (error : UsageError)
  deriving DecidableEq, Repr

/-- An option that has a value takes it from the next argument, which has to be an operand. -/
def takeValue (option : OptionSpec) (rest : List Argument) :
    Except UsageError (Use × List Argument) :=
  match option.kind, rest with
  | .value, ⟨text, .operand⟩ :: after => .ok (option.use text.toList, after)
  | .value, _ => .error (.missingValue option)
  | _, _ => .ok (⟨option, none⟩, rest)

/-- The options of one argument, and the arguments after those that they use. -/
abbrev Joined := List Use × List Argument

/-- Goes on after an option with something attached to it, `c` being its first character and
`others` the rest: the value of the option or, if it is short and has none, the letters of further
options. -/
def Grammar.joinNext (grammar : Grammar) (option : OptionSpec) (isShort : Bool)
    (rest : List Argument) (c : Char) (others : List Char)
    (proceed : OptionSpec → Except UsageError Joined) : Except UsageError Joined :=
  if option.kind == .value then .ok ([option.use (c :: others)], rest)
  else
    match isShort, grammar.option? ['-', c] with
    | true, some next => do
        let (uses, after) ← proceed next
        return (⟨option, none⟩ :: uses, after)
    | _, _ => .error (.unusedValue option (String.ofList (c :: others)))

/-- Reads the options of one argument, given what is attached to the first. -/
def Grammar.readJoined (grammar : Grammar) (option : OptionSpec) (isShort : Bool)
    (rest : List Argument) : List Char → Except UsageError Joined
  | [] =>
      if option.kind == .value then .ok ([option.use []], rest)
      else .error (.unusedValue option "")
  | [c] =>
      grammar.joinNext option isShort rest c [] fun next => do
        let (use, after) ← takeValue next rest
        return ([use], after)
  | c :: d :: others =>
      grammar.joinNext option isShort rest c (d :: others) fun next =>
        grammar.readJoined next true rest (d :: others)

/-- The name of an option has one dash. -/
def isShortName : List Char → Bool
  | _ :: c :: _ => c != '-'
  | _ => false

def Grammar.readOption (grammar : Grammar) (recognized : Recognized) (rest : List Argument) :
    Except UsageError Joined :=
  match recognized.attached with
  | none => do
      let (use, after) ← takeValue recognized.option rest
      return ([use], after)
  | some text =>
      grammar.readJoined recognized.option (isShortName recognized.name) rest text

/-- An argument that is an operand or the double dash. -/
def Argument.isPlain (argument : Argument) : Bool :=
  !argument.isOption

/-- The number of arguments at the head of a list that are double dashes. -/
def dashCount (arguments : List Argument) : Nat :=
  (arguments.takeWhile fun argument => argument.mark == .dashes).length

/-- The number of arguments that the operands of a command make up, if there are enough. -/
def Operands.extent? (operands : Operands) (arguments : List Argument) : Option Nat :=
  let dashes := dashCount arguments
  match arguments.drop dashes with
  | ⟨_, .operand⟩ :: after =>
      match operands with
      | .absent => none
      | .one _ => some (dashes + 1 + dashCount after)
      | .many _ => some (dashes + 1 + (after.takeWhile Argument.isPlain).length)
      | .subcommand => some arguments.length
  | _ => none

/-- The operands that arguments stand for: a double dash among them is left out once, except before
a subcommand. -/
def Operands.values (operands : Operands) (arguments : List Argument) : List String :=
  let texts := arguments.map (·.text)
  match operands with
  | .subcommand => texts
  | _ => texts.erase "--"

/-- Asks for help if one of the options does. -/
def checkHelp (uses : List Use) : Except Stop Unit :=
  if uses.any fun use => use.option.kind == .help then .error .help else .ok ()

/-- A usage error ends the reading. -/
def orMisuse {α : Type} : Except UsageError α → Except Stop α
  | .ok value => .ok value
  | .error error => .error (.misuse error)

/-- Takes the operands from the head of the arguments, if they are still wanted. -/
def Grammar.takeOperands (grammar : Grammar) (found : Arguments) (arguments : List Argument) :
    Option (Arguments × List Argument) :=
  if found.operands.isSome then none
  else
    (grammar.operands.extent? arguments).map fun extent =>
      ({ found with operands := some (grammar.operands.values (arguments.take extent)) },
        arguments.drop extent)

/-- Reads classified arguments from left to right. The fuel bounds the number of steps, of which
each uses up an argument or is the last. -/
def Grammar.readFrom (grammar : Grammar) : Nat → Arguments → List Argument →
    Except Stop Arguments
  | 0, found, _ => .ok found
  | fuel + 1, found, arguments =>
      match arguments with
      | [] => .ok found
      | ⟨_, .option recognized⟩ :: rest => do
          let (uses, after) ← orMisuse (grammar.readOption recognized rest)
          checkHelp uses
          grammar.readFrom fuel { found with uses := found.uses ++ uses } after
      | ⟨text, .unknownOption⟩ :: rest =>
          grammar.readFrom fuel { found with extras := found.extras ++ [text] } rest
      | _ =>
          match grammar.takeOperands found arguments with
          | some (next, rest) => grammar.readFrom fuel next rest
          | none =>
              let plain := arguments.takeWhile Argument.isPlain
              grammar.readFrom fuel
                { found with extras := found.extras ++ plain.map (·.text) }
                (arguments.drop plain.length)

/-- The operand that a command cannot do without. -/
def Operands.required? : Operands → Option String
  | .absent => none
  | .one name => some name
  | .many name => some name
  | .subcommand => none

def Grammar.read (grammar : Grammar) (texts : List String) : Except Stop Arguments := do
  let arguments ← orMisuse (grammar.classifyAll texts)
  let found ← grammar.readFrom (arguments.length + 1) {} arguments
  match grammar.operands.required?, found.operands with
  | some name, none => .error (.misuse (.missingOperand name))
  | _, _ => return found

def Arguments.hasFlag (arguments : Arguments) (name : String) : Bool :=
  arguments.uses.any fun use => use.option.names.contains name

/-- The value of an option, as it was given last; an empty one counts as none. -/
def Arguments.value? (arguments : Arguments) (name : String) : Option String :=
  match arguments.uses.reverse.find? fun use => use.option.names.contains name with
  | some use => use.value.filter fun text => !text.isEmpty
  | none => none

end Deduction.CommandLine
