namespace Deduction.Text

/-- Copies a text with each occurrence of `pattern` replaced. The first argument counts the
characters that belong to an occurrence already replaced and are passed over. -/
def replaceFrom (pattern replacement : List Char) : Nat → List Char → List Char
  | _, [] => []
  | skip + 1, _ :: rest => replaceFrom pattern replacement skip rest
  | 0, c :: rest =>
      if pattern.isPrefixOf (c :: rest) then
        replacement ++ replaceFrom pattern replacement (pattern.length - 1) rest
      else
        c :: replaceFrom pattern replacement 0 rest

/-- Replaces every occurrence of a nonempty `pattern`. -/
def replaceAll (pattern replacement text : List Char) : List Char :=
  replaceFrom pattern replacement 0 text

theorem replaceFrom_eq_drop (pattern replacement : List Char) (skip : Nat) (text : List Char) :
    replaceFrom pattern replacement skip text =
      replaceFrom pattern replacement 0 (text.drop skip) := by
  induction text generalizing skip with
  | nil => simp [replaceFrom]
  | cons c rest ih =>
      cases skip with
      | zero => rfl
      | succ skip => rw [replaceFrom, ih skip, List.drop_succ_cons]

end Deduction.Text
