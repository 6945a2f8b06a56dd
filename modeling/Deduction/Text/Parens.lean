namespace Deduction.Text

/-- With `depth` parentheses open, the rest of the text closes each of them and each it opens. -/
def balancedFrom : Nat → List Char → Bool
  | depth, [] => depth == 0
  | depth, c :: rest =>
      if c == '(' then balancedFrom (depth + 1) rest
      else if c == ')' then
        match depth with
        | 0 => false
        | below + 1 => balancedFrom below rest
      else balancedFrom depth rest

/-- Every parenthesis has its partner. -/
def isBalanced (text : List Char) : Bool :=
  balancedFrom 0 text

/-- With `depth` parentheses open, the outermost of them closes before the last character. -/
def closesEarly : Nat → List Char → Bool
  | _, [] => false
  | depth, c :: rest =>
      if rest.isEmpty then false
      else if c == '(' then closesEarly (depth + 1) rest
      else if c == ')' then depth ≤ 1 || closesEarly (depth - 1) rest
      else closesEarly depth rest

/-- The text begins with an opening and ends with a closing parenthesis, and the first is not
closed before the last character. -/
def isEnclosed (text : List Char) : Bool :=
  text.head? == some '(' && text.getLast? == some ')' && !closesEarly 0 text

/-- Removes enclosing parentheses as long as there are any. -/
def stripOuter (text : List Char) : List Char :=
  if isEnclosed text then stripOuter text.tail.dropLast else text
termination_by text.length
decreasing_by
  rename_i enclosed
  cases text with
  | nil => simp [isEnclosed] at enclosed
  | cons c rest => simp only [List.tail_cons, List.length_dropLast, List.length_cons]; omega

theorem stripOuter_of_not_enclosed {text : List Char} (bare : isEnclosed text = false) :
    stripOuter text = text := by
  rw [stripOuter]
  simp [bare]

end Deduction.Text
