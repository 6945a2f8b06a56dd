namespace Deduction

/-- The most decimal digits that an integer is read from or written with. -/
def digitLimit : Nat := 4300

/-- The integer can be written in decimal. -/
def isWritable (n : Int) : Bool :=
  n.natAbs < Nat.pow 10 digitLimit

/-- The wording of a refusal for too many digits, `detail` saying more of them. -/
def limitMessage (detail : String) : String :=
  "Exceeds the limit (" ++ toString digitLimit ++ " digits) for integer string conversion" ++
    detail ++ "; use sys.set_int_max_str_digits() to increase the limit"

/-- The wording of a refusal to read so many digits. -/
def readLimitMessage (count : Nat) : String :=
  limitMessage (": value has " ++ toString count ++ " digits")

end Deduction
