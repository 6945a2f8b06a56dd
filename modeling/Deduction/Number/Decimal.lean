import Deduction.Number.Binary64

/-!
Decimal texts of floating-point numbers.

The shortest text has the fewest digits that read back as the number; of two texts of that length
the nearer one is taken, and of two equally near ones the even one. Leading digits of order
`10 ^ -4` up to `10 ^ 15` are written positionally, all others with an exponent of at least two
digits. The fixed text rounds the exact value, a tie to the even digit.
-/

namespace Deduction.Binary64

def natText (n : Nat) : String :=
  String.ofList (Nat.toDigits 10 n)

/-- Removes trailing zeros, raising the exponent; the number of steps is bounded. -/
def stripZeros : Nat → Nat → Int → Nat × Int
  | 0, digits, e => (digits, e)
  | steps + 1, digits, e =>
      if digits % 10 == 0 then stripZeros steps (digits / 10) (e + 1) else (digits, e)

/-- The decimal of `places` digits that reads back as the positive number, if there is one. -/
def decimalOf? (significand : Nat) (exponent : Int) (places : Nat) : Option (Nat × Int) :=
  let value := scale 2 significand exponent
  let top := order 10 value.1 value.2 ((digitCount value.1 : Int) - (digitCount value.2 : Int))
  let e := top - (places : Int) + 1
  let unit := scale 10 1 e
  let num := value.1 * unit.2
  let den := value.2 * unit.1
  let below := num / den
  let nearest := roundHalfEven num den
  let other := if nearest == below then below + 1 else below
  let readsBack := fun digits => ofDecimal false digits e == .finite false significand exponent
  if readsBack nearest then some (nearest, e)
  else if readsBack other then some (other, e)
  else none

/-- The fewest digits that read back, with the power of ten they count. Seventeen digits always
do. -/
def shortest (significand : Nat) (exponent : Int) : Nat × Int :=
  match (List.range 17).findSome? fun n => decimalOf? significand exponent (n + 1) with
  | some decimal => stripZeros 17 decimal.1 decimal.2
  | none => (significand, 0)

/-- Lays out `digits * 10 ^ e`. -/
def layOut (digits : Nat) (e : Int) : String :=
  let ds := Nat.toDigits 10 digits
  let top := e + (ds.length : Int) - 1
  if -4 ≤ top && top < 16 then
    if 0 ≤ e then String.ofList (ds ++ List.replicate e.toNat '0') ++ ".0"
    else if 0 ≤ top then
      String.ofList (ds.take (top.toNat + 1)) ++ "." ++ String.ofList (ds.drop (top.toNat + 1))
    else "0." ++ String.ofList (List.replicate (-top - 1).toNat '0' ++ ds)
  else
    let tail := ds.drop 1
    let fraction := if tail.isEmpty then "" else "." ++ String.ofList tail
    let sign := if top < 0 then "-" else "+"
    let power := natText top.natAbs
    let padding := if power.length < 2 then "0" else ""
    String.ofList (ds.take 1) ++ fraction ++ "e" ++ sign ++ padding ++ power

def signText (negative : Bool) : String :=
  if negative then "-" else ""

/-- The shortest text that reads back as the number. -/
def text : Binary64 → String
  | .nan => "nan"
  | .infinite negative => signText negative ++ "inf"
  | .finite negative significand exponent =>
      if significand == 0 then signText negative ++ "0.0"
      else
        let decimal := shortest significand exponent
        signText negative ++ layOut decimal.1 decimal.2

def textOnePlace : Binary64 → String
  | .nan => "nan"
  | .infinite negative => signText negative ++ "inf"
  | .finite negative significand exponent =>
      let value := scale 2 (10 * significand) exponent
      let tenths := roundHalfEven value.1 value.2
      signText negative ++ natText (tenths / 10) ++ "." ++ natText (tenths % 10)

end Deduction.Binary64
