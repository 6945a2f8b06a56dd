namespace Deduction.Text

def isLetter (c : Char) : Bool :=
  (65 ≤ c.toNat && c.toNat ≤ 90) || (97 ≤ c.toNat && c.toNat ≤ 122)

def isDigit (c : Char) : Bool :=
  48 ≤ c.toNat && c.toNat ≤ 57

/-- A character that continues a word: a letter, a digit or the underscore. -/
def isWordChar (c : Char) : Bool :=
  isLetter c || isDigit c || c == '_'

/-- The lower case of a character as far as ASCII sees it. Outside ASCII only the Kelvin sign and
the dotted capital I have a lower case with an ASCII letter in it; every other character beyond
ASCII stands for itself, which no comparison with an ASCII text can tell apart. -/
def lowerChar (c : Char) : List Char :=
  if 65 ≤ c.toNat && c.toNat ≤ 90 then [Char.ofNat (c.toNat + 32)]
  else if c.toNat == 0x212A then ['k']
  else if c.toNat == 0x130 then ['i', Char.ofNat 0x307]
  else [c]

def lower (text : List Char) : List Char :=
  text.flatMap lowerChar

def lowerString (text : String) : String :=
  String.ofList (lower text.toList)

/-- Reads the identifier at the head of a text, a letter and the word characters after it. -/
def identifier? : List Char → Option (List Char × List Char)
  | [] => none
  | c :: rest =>
      if isLetter c then some (c :: rest.takeWhile isWordChar, rest.dropWhile isWordChar)
      else none

theorem isWordChar_of_isLetter {c : Char} (letter : isLetter c = true) : isWordChar c = true := by
  simp [isWordChar, letter]

end Deduction.Text
