namespace Deduction.Text

/-- The blank characters, by code point. -/
def isBlank (c : Char) : Bool :=
  let n := c.toNat
  (0x09 ≤ n && n ≤ 0x0D) || (0x1C ≤ n && n ≤ 0x20) || n == 0x85 || n == 0xA0 ||
    n == 0x1680 || (0x2000 ≤ n && n ≤ 0x200A) || n == 0x2028 || n == 0x2029 ||
    n == 0x202F || n == 0x205F || n == 0x3000

def removeBlanks (text : List Char) : List Char :=
  text.filter fun c => !isBlank c

def trim (text : List Char) : List Char :=
  ((text.dropWhile isBlank).reverse.dropWhile isBlank).reverse

def trimString (text : String) : String :=
  String.ofList (trim text.toList)

theorem isBlank_of_mem_removeBlanks {c : Char} {text : List Char}
    (member : c ∈ removeBlanks text) : isBlank c = false := by
  simpa using (List.mem_filter.mp member).2

@[simp] theorem removeBlanks_idem (text : List Char) :
    removeBlanks (removeBlanks text) = removeBlanks text := by
  simp [removeBlanks]

end Deduction.Text
