import Deduction.Text.Letter

namespace Deduction.Text

/-- No word character stands on this side. -/
def isBoundary : Option Char → Bool
  | none => true
  | some c => !isWordChar c

/-- `word` stands at the head of `text` as a whole word, `previous` being the character before. -/
def startsWithWord (word : List Char) (previous : Option Char) (text : List Char) : Bool :=
  isBoundary previous && word.isPrefixOf text && isBoundary (text.drop word.length).head?

/-- Replaces whole-word occurrences. The number counts characters of an occurrence already
replaced that are still to be passed over. An empty word occurs between any two characters that
are no word characters, and at both ends. -/
def replaceWordFrom (word term : List Char) : Option Char → Nat → List Char → List Char
  | previous, _, [] => if word.isEmpty && isBoundary previous then term else []
  | _, skip + 1, c :: rest => replaceWordFrom word term (some c) skip rest
  | previous, 0, c :: rest =>
      if startsWithWord word previous (c :: rest) then
        if word.isEmpty then term ++ c :: replaceWordFrom word term (some c) 0 rest
        else term ++ replaceWordFrom word term (some c) (word.length - 1) rest
      else
        c :: replaceWordFrom word term (some c) 0 rest

/-- Replaces every whole-word occurrence of `word` in `text` by `term`. -/
def replaceWord (text word term : List Char) : List Char :=
  replaceWordFrom word term none 0 text

/-- `word` occurs in `text` as a whole word, `previous` being the character before `text`. -/
def hasWordFrom (word : List Char) : Option Char → List Char → Bool
  | previous, [] => startsWithWord word previous []
  | previous, c :: rest =>
      startsWithWord word previous (c :: rest) || hasWordFrom word (some c) rest

/-- `word` occurs in `text` as a whole word. -/
def hasWord (word text : List Char) : Bool :=
  hasWordFrom word none text

/-- The identifiers of a text in order. A word character that starts no identifier, a digit or an
underscore, is passed over alone. -/
def identifiers (text : List Char) : List (List Char) :=
  match text with
  | [] => []
  | c :: rest =>
      if isLetter c then (c :: rest.takeWhile isWordChar) :: identifiers (rest.dropWhile isWordChar)
      else identifiers rest
termination_by text.length
decreasing_by
  · have := (List.dropWhile_suffix (p := isWordChar) (l := rest)).length_le
    simp only [List.length_cons]
    omega
  · simp

end Deduction.Text
