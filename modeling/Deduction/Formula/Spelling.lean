import Deduction.Text.Replace

namespace Deduction.Formula

/-- The spellings and what each is replaced by, in the order of replacement. -/
def spellings : List (List Char × List Char) :=
  [ (['<', '=', '>'], ['<', '-', '>'])
  , (['↔'], ['<', '-', '>'])
  , (['⇔'], ['<', '-', '>'])
  , (['=', '>'], ['-', '>'])
  , (['→'], ['-', '>'])
  , (['⇒'], ['-', '>'])
  , (['/', '\\'], ['^'])
  , (['\\', '/'], [' ', 'v', ' '])
  , (['∧'], ['^'])
  , (['&'], ['^'])
  , (['|', '|'], [' ', 'v', ' '])
  , (['∨'], [' ', 'v', ' '])
  , (['¬'], ['!'])
  , (['~'], ['!'])
  , (['∀'], ['f', 'o', 'r', 'a', 'l', 'l'])
  , (['∃'], ['e', 'x', 'i', 's', 't', 's']) ]

/-- Brings every spelling to the plain alphabet. -/
def respell (text : List Char) : List Char :=
  spellings.foldl (fun current spelling => Text.replaceAll spelling.1 spelling.2 current) text

end Deduction.Formula
