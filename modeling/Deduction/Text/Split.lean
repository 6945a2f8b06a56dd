namespace Deduction.Text

/-- What a search for a top-level operator finds. -/
inductive Split
  /-- the texts on both sides of the operator, neither empty -/
  | parts (left right : List Char)
  /-- no operator to split at, or nothing on one side of the first one -/
  | whole
  /-- the search for an empty operator passed the end of the text -/
  | overrun
  deriving DecidableEq, Repr

/-- The implication arrow, which is not split off the double arrow. -/
def arrow : List Char := ['-', '>']

/-- Searches from left to right. `before` is the text passed, reversed. -/
def splitTopFrom (operator : List Char) : List Char → Int → List Char → Split
  | _, _, [] => if operator.isEmpty then .overrun else .whole
  | before, depth, c :: rest =>
      if c == '(' then splitTopFrom operator (c :: before) (depth + 1) rest
      else if c == ')' then splitTopFrom operator (c :: before) (depth - 1) rest
      else if depth != 0 || !operator.isPrefixOf (c :: rest) then
        splitTopFrom operator (c :: before) depth rest
      else if operator == arrow && before.head? == some '<' then
        splitTopFrom operator (c :: before) depth rest
      else
        let right := (c :: rest).drop operator.length
        if before.isEmpty || right.isEmpty then .whole else .parts before.reverse right

/-- Splits at the first top-level occurrence of `operator`. -/
def splitTop (text operator : List Char) : Split :=
  if text.isEmpty then .whole else splitTopFrom operator [] 0 text

/-- Splits at the first top-level occurrence of a nonempty `operator`. -/
def splitTop? (text operator : List Char) : Option (List Char × List Char) :=
  match splitTop text operator with
  | .parts left right => some (left, right)
  | .whole => none
  | .overrun => none

/-- Searches from right to left: the second text is what is before, reversed. -/
def splitLastFrom (mark : Char) : List Char → Int → List Char → Option (List Char × List Char)
  | _, _, [] => none
  | after, depth, c :: before =>
      if c == ')' then splitLastFrom mark (c :: after) (depth + 1) before
      else if c == '(' then splitLastFrom mark (c :: after) (depth - 1) before
      else if depth == 0 && c == mark then
        if before.isEmpty || after.isEmpty then none else some (before.reverse, after)
      else splitLastFrom mark (c :: after) depth before

/-- Splits at the last top-level occurrence of the character `mark`. -/
def splitLast? (text : List Char) (mark : Char) : Option (List Char × List Char) :=
  splitLastFrom mark [] 0 text.reverse

end Deduction.Text
