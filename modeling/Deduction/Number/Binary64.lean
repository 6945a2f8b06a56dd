/-!
Binary floating-point numbers of double precision, in exact arithmetic.

A finite number is its sign, a significand below `2 ^ 53` and a power of two; a significand below
`2 ^ 52` occurs with the least exponent only, so that each number has one form. Values come from
quotients of naturals, rounded to the nearest number, a tie to the even significand.
-/

namespace Deduction

/-- A number of double precision. -/
inductive Binary64
  | nan
  | infinite (negative : Bool)
  | finite (negative : Bool) (significand : Nat) (exponent : Int)
  deriving DecidableEq, Repr, Inhabited

namespace Binary64

/-- The least exponent, that of the subnormal numbers. -/
def leastExponent : Int := -1074

/-- The greatest exponent of a finite number. -/
def greatestExponent : Int := 971

/-- The quotient rounded to the nearest natural number, a tie to the even one. -/
def roundHalfEven (num den : Nat) : Nat :=
  let below := num / den
  let rest := num % den
  if 2 * rest < den then below
  else if den < 2 * rest then below + 1
  else if below % 2 == 0 then below
  else below + 1

/-- `n * base ^ e` as a quotient. -/
def scale (base n : Nat) (e : Int) : Nat × Nat :=
  if 0 ≤ e then (n * Nat.pow base e.toNat, 1) else (n, Nat.pow base (-e).toNat)

/-- The exponent of the greatest power of `base` that is at most the positive quotient, provided
that `guess` is that exponent or one more. -/
def order (base num den : Nat) (guess : Int) : Int :=
  let power := scale base 1 guess
  if power.1 * den ≤ num * power.2 then guess else guess - 1

def ofRatio (negative : Bool) (num den : Nat) : Binary64 :=
  if num == 0 then .finite negative 0 leastExponent
  else
    let top := order 2 num den ((Nat.log2 num : Int) - (Nat.log2 den : Int))
    let exponent := max (top - 52) leastExponent
    let unit := scale 2 1 exponent
    let significand := roundHalfEven (num * unit.2) (den * unit.1)
    if significand == Nat.pow 2 53 then
      if greatestExponent < exponent + 1 then .infinite negative
      else .finite negative (Nat.pow 2 52) (exponent + 1)
    else if greatestExponent < exponent then .infinite negative
    else .finite negative significand exponent

/-- The number of decimal digits of a natural number; zero has one. -/
def digitCount (n : Nat) : Nat :=
  (Nat.toDigits 10 n).length

/-- The number nearest to `digits * 10 ^ e`. Far outside the range of finite numbers the answer
needs no arithmetic. -/
def ofDecimal (negative : Bool) (digits : Nat) (e : Int) : Binary64 :=
  if digits == 0 then .finite negative 0 leastExponent
  else
    let size := (digitCount digits : Int) + e
    if 400 < size then .infinite negative
    else if size < -400 then .finite negative 0 leastExponent
    else
      let quotient := scale 10 digits e
      ofRatio negative quotient.1 quotient.2

def ofInt (n : Int) : Binary64 :=
  ofRatio (n < 0) n.natAbs 1

def isZero : Binary64 → Bool
  | .finite _ significand _ => significand == 0
  | _ => false

/-- At most zero; a number that is none is not. -/
def isNonpositive : Binary64 → Bool
  | .nan => false
  | .infinite negative => negative
  | .finite negative significand _ => negative || significand == 0

/-- The integer part of a finite number, toward zero. -/
def truncate (negative : Bool) (significand : Nat) (exponent : Int) : Int :=
  let quotient := scale 2 significand exponent
  let magnitude : Int := (quotient.1 / quotient.2 : Nat)
  if negative then -magnitude else magnitude

/-- The number nearest to `n * 2 ^ e`. -/
def ofScaled (negative : Bool) (n : Nat) (e : Int) : Binary64 :=
  let quotient := scale 2 n e
  ofRatio negative quotient.1 quotient.2

/-- The sign bit; a number that is none has no sign. -/
def isNegative : Binary64 → Bool
  | .nan => false
  | .infinite negative => negative
  | .finite negative _ _ => negative

def neg : Binary64 → Binary64
  | .nan => .nan
  | .infinite negative => .infinite (!negative)
  | .finite negative significand exponent => .finite (!negative) significand exponent

def mul : Binary64 → Binary64 → Binary64
  | .finite negative m e, .finite negative' n f =>
      ofScaled (negative != negative') (m * n) (e + f)
  | .nan, _ => .nan
  | _, .nan => .nan
  | x, y => if x.isZero || y.isZero then .nan else .infinite (x.isNegative != y.isNegative)

/-- An integer of a sign and a magnitude. -/
def signed (negative : Bool) (n : Nat) : Int :=
  if negative then -(n : Int) else n

/-- The sum, rounded. A sum of zero is negative only if both terms are. -/
def add : Binary64 → Binary64 → Binary64
  | .finite negative m e, .finite negative' n f =>
      let low := min e f
      let total :=
        signed negative (m * Nat.pow 2 (e - low).toNat) +
          signed negative' (n * Nat.pow 2 (f - low).toNat)
      if total == 0 then .finite (negative && negative') 0 leastExponent
      else ofScaled (total < 0) total.natAbs low
  | .nan, _ => .nan
  | _, .nan => .nan
  | .infinite negative, .infinite negative' =>
      if negative == negative' then .infinite negative else .nan
  | .infinite negative, _ => .infinite negative
  | _, .infinite negative => .infinite negative

/-- A finite number without a fractional part. -/
def isIntegral : Binary64 → Bool
  | .finite _ significand exponent =>
      let quotient := scale 2 significand exponent
      quotient.1 % quotient.2 == 0
  | _ => false

end Binary64

end Deduction
