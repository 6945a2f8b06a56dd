import Deduction.Value.Basic

namespace Deduction.Json

def hexDigit (n : Nat) : Char :=
  if n < 10 then Char.ofNat ('0'.toNat + n) else Char.ofNat ('a'.toNat + (n - 10))

def escapeChar (c : Char) : List Char :=
  if c == '"' then ['\\', '"']
  else if c == '\\' then ['\\', '\\']
  else if c == '\n' then ['\\', 'n']
  else if c == '\r' then ['\\', 'r']
  else if c == '\t' then ['\\', 't']
  else if c.toNat == 8 then ['\\', 'b']
  else if c.toNat == 12 then ['\\', 'f']
  else if c.toNat < 0x20 then
    ['\\', 'u', '0', '0', hexDigit (c.toNat / 16), hexDigit (c.toNat % 16)]
  else [c]

def quoted (text : String) : String :=
  String.ofList ('"' :: text.toList.flatMap escapeChar ++ ['"'])

def scalar : Value → String
  | .null => "null"
  | .bool true => "true"
  | .bool false => "false"
  | .int value => toString value
  | .real .nan => "NaN"
  | .real (.infinite false) => "Infinity"
  | .real (.infinite true) => "-Infinity"
  | .real value => value.text
  | .text value => quoted value
  | .scalar value => quoted value.display
  | .list _ => "[]"
  | .object _ => "\x7b\x7d"

mutual

def line : Value → String
  | .list items => "[" ++ ", ".intercalate (lineItems items) ++ "]"
  | .object members => "\x7b" ++ ", ".intercalate (lineMembers members) ++ "\x7d"
  | value => scalar value

def lineItems : List Value → List String
  | [] => []
  | item :: rest => line item :: lineItems rest

/-- The members of an object on one line. -/
def lineMembers : Members → List String
  | [] => []
  | (key, value) :: rest => (quoted key.display ++ ": " ++ line value) :: lineMembers rest

end

def newLine (level : Nat) : String :=
  String.ofList ('\n' :: List.replicate (2 * level) ' ')

/-- Parts between brackets, each on a line of its own. -/
def block (level : Nat) (opening closing : String) (parts : List String) : String :=
  opening ++ newLine (level + 1) ++ ("," ++ newLine (level + 1)).intercalate parts ++
    newLine level ++ closing

mutual

/-- A value over several lines. Empty lists and objects stay on one. -/
def indented (level : Nat) : Value → String
  | .list [] => "[]"
  | .list (item :: items) =>
      block level "[" "]" (indented (level + 1) item :: indentedItems (level + 1) items)
  | .object [] => "\x7b\x7d"
  | .object ((key, value) :: members) =>
      block level "\x7b" "\x7d"
        ((quoted key.display ++ ": " ++ indented (level + 1) value) ::
          indentedMembers (level + 1) members)
  | value => scalar value

/-- The elements of a list over several lines. -/
def indentedItems (level : Nat) : List Value → List String
  | [] => []
  | item :: rest => indented level item :: indentedItems level rest

/-- The members of an object over several lines. -/
def indentedMembers (level : Nat) : Members → List String
  | [] => []
  | (key, value) :: rest =>
      (quoted key.display ++ ": " ++ indented level value) :: indentedMembers level rest

end

end Deduction.Json
