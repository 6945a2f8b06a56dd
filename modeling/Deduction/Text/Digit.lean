namespace Deduction.Text

/-- The zeros of the decimal digits, in rising order (Unicode 14). -/
def digitZeros : List Nat :=
  [0x30, 0x660, 0x6F0, 0x7C0, 0x966, 0x9E6, 0xA66, 0xAE6, 0xB66, 0xBE6, 0xC66, 0xCE6, 0xD66, 0xDE6,
    0xE50, 0xED0, 0xF20, 0x1040, 0x1090, 0x17E0, 0x1810, 0x1946, 0x19D0, 0x1A80, 0x1A90, 0x1B50,
    0x1BB0, 0x1C40, 0x1C50, 0xA620, 0xA8D0, 0xA900, 0xA9D0, 0xA9F0, 0xAA50, 0xABF0, 0xFF10,
    0x104A0, 0x10D30, 0x11066, 0x110F0, 0x11136, 0x111D0, 0x112F0, 0x11450, 0x114D0, 0x11650,
    0x116C0, 0x11730, 0x118E0, 0x11950, 0x11C50, 0x11D50, 0x11DA0, 0x16A60, 0x16AC0, 0x16B50,
    0x1D7CE, 0x1D7D8, 0x1D7E2, 0x1D7EC, 0x1D7F6, 0x1E140, 0x1E2F0, 0x1E950, 0x1FBF0]

/-- The value of a decimal digit of any script. -/
def digitValue? (c : Char) : Option Nat :=
  (digitZeros.find? fun first => first ≤ c.toNat && c.toNat < first + 10).map (c.toNat - ·)

/-- A run of decimal digits: its value, the number of its digits, and what follows it. -/
structure DigitRun where
  value : Nat
  count : Nat
  rest : List Char
  deriving DecidableEq, Repr

/-- Reads a nonempty run of decimal digits in which single underscores may stand between digits.
`value` and `count` are of the digits read before, `afterDigit` says whether a digit came last. -/
def digitRunFrom : Nat → Nat → Bool → List Char → Option DigitRun
  | value, count, afterDigit, [] => if afterDigit then some ⟨value, count, []⟩ else none
  | value, count, afterDigit, c :: rest =>
      if c == '_' then if afterDigit then digitRunFrom value count false rest else none
      else
        match digitValue? c with
        | some digit => digitRunFrom (10 * value + digit) (count + 1) true rest
        | none => if afterDigit then some ⟨value, count, c :: rest⟩ else none

/-- The run of decimal digits at the head of a text. -/
def digitRun? (text : List Char) : Option DigitRun :=
  digitRunFrom 0 0 false text

/-- The number written by a text of decimal digits, single underscores allowed between them. -/
def digits? (text : List Char) : Option Nat :=
  match digitRun? text with
  | some ⟨value, _, []⟩ => some value
  | _ => none

end Deduction.Text
