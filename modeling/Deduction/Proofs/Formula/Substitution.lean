import Deduction.Proofs.Formula.Conversion

/-!
Renaming bound variables and finding instances, both by whole words of compact text.

Two statements are compared with their bound variables replaced by one word that neither has. This
comes to renaming the variable of the first to that of the second, which the first must lack. An
instance is looked for among the identifiers of the target only. No other term is missed: what is
put in for a variable stands in the target as a whole word, and is found there.
-/

namespace Deduction

open Formula Text

theorem Formula.IsIdentifier.isRun {name : String} (hname : IsIdentifier name) :
    IsRun name.toList where
  ne_nil := by
    obtain ⟨first, tail, htext, -, -⟩ := hname
    simp [htext]
  isWordChar _ hc := hname.isWordChar hc

namespace Quantified

section Renaming

variable {first second : Quantified}

/-- A statement whose body is compact and lacks the word for bound variables. -/
structure IsCompact (statement : Quantified) : Prop extends IsReadable statement where
  compact_body : compact statement.body = statement.body
  hasWord_body : hasWord boundWord statement.body = false

theorem IsCompact.compact_eq (hfirst : first.IsCompact) : compact first.render = first.render := by
  have hrender := compact_render first.quantifier hfirst.isLetter first.body
  rwa [hfirst.compact_body] at hrender

theorem IsCompact.parse?_render (hfirst : first.IsCompact) :
    parse? first.render = some first := by
  rw [parse?, hfirst.compact_eq, read?_render hfirst.toIsReadable]

theorem IsCompact.eq_of_render_eq (hfirst : first.IsCompact) (hsecond : second.IsCompact)
    (heq : first.render = second.render) : first = second := by
  have hparse := hfirst.parse?_render
  rw [heq, hsecond.parse?_render, Option.some.injEq] at hparse
  exact hparse.symm

theorem alphaEqual_render (hfirst : first.IsCompact) (hsecond : second.IsCompact) :
    alphaEqual first.render second.render = true ↔
      first.quantifier = second.quantifier ∧
        first.instantiate boundWord = second.instantiate boundWord := by
  simp only [alphaEqual, hfirst.compact_eq, hsecond.compact_eq, hfirst.parse?_render,
    hsecond.parse?_render, Bool.or_eq_true, Bool.and_eq_true, beq_iff_eq]
  constructor
  · rintro (heq | halpha)
    · rw [hfirst.eq_of_render_eq hsecond heq]
      exact ⟨rfl, rfl⟩
    · exact halpha
  · exact Or.inr

/-- Statements are equal up to the name of the outermost bound variable exactly if they have the
same quantifier and the second is the first, as it is or with its variable renamed to another one
that its body lacks. -/
theorem alphaEqual_iff_renamed (hfirst : first.IsCompact) (hsecond : second.IsCompact) :
    alphaEqual first.render second.render = true ↔
      first.quantifier = second.quantifier ∧
        (first.bound = second.bound ∧ first.body = second.body ∨
          first.bound ≠ second.bound ∧ hasWord [second.bound] first.body = false ∧
            second.body = replaceWord first.body [first.bound] [second.bound]) := by
  have hword : IsRun [first.bound] := isRun_singleton (isWordChar_of_isLetter hfirst.isLetter)
  have hword' : IsRun [second.bound] := isRun_singleton (isWordChar_of_isLetter hsecond.isLetter)
  rw [alphaEqual_render hfirst hsecond, instantiate, instantiate,
    replaceWord_eq_replaceWord_iff hword hword' isRun_boundWord hfirst.hasWord_body
      hsecond.hasWord_body]
  simp only [List.cons.injEq, and_true, ne_eq]

/-- A word that only begins with the variable is left alone. -/
theorem related_is_renamed :
    alphaEqual (render ⟨.universal, 'x', "P(x)^R(x,xy)".toList⟩)
        (render ⟨.universal, 'z', "P(z)^R(z,xy)".toList⟩) = true ∧
      alphaEqual (render ⟨.universal, 'x', "R(x,y)".toList⟩)
        (render ⟨.universal, 'y', "R(y,y)".toList⟩) = false := by
  have hcompact : IsCompact ⟨.universal, 'x', "P(x)^R(x,xy)".toList⟩ :=
    ⟨⟨by decide, by decide⟩, by decide, by decide⟩
  have hcompact' : IsCompact ⟨.universal, 'z', "P(z)^R(z,xy)".toList⟩ :=
    ⟨⟨by decide, by decide⟩, by decide, by decide⟩
  have hcaptured : IsCompact ⟨.universal, 'x', "R(x,y)".toList⟩ :=
    ⟨⟨by decide, by decide⟩, by decide, by decide⟩
  have hcaptured' : IsCompact ⟨.universal, 'y', "R(y,y)".toList⟩ :=
    ⟨⟨by decide, by decide⟩, by decide, by decide⟩
  constructor
  · rw [alphaEqual_iff_renamed hcompact hcompact']
    decide
  · rw [← Bool.not_eq_true, alphaEqual_iff_renamed hcaptured hcaptured']
    decide

end Renaming

section Instance

theorem mem_foldl_terms_iff {term : List Char} (words seen : List (List Char)) :
    term ∈ words.foldl (fun seen word =>
        if isQuantifierWord word || seen.contains word then seen else seen ++ [word]) seen ↔
      term ∈ seen ∨ term ∈ words ∧ isQuantifierWord term = false := by
  induction words generalizing seen with
  | nil => simp
  | cons word words ih =>
      rw [List.foldl_cons, ih]
      by_cases hskip : (isQuantifierWord word || seen.contains word) = true
      · rw [if_pos hskip]
        rw [Bool.or_eq_true, List.contains_iff_mem] at hskip
        grind
      · rw [if_neg hskip]
        rw [Bool.or_eq_true, List.contains_iff_mem] at hskip
        grind

theorem mem_terms_iff {term text : List Char} :
    term ∈ terms text ↔ term ∈ identifiers text ∧ isQuantifierWord term = false := by
  rw [terms, mem_foldl_terms_iff]
  simp

theorem isQuantifierWord_eq_false_iff {term : String} :
    isQuantifierWord term.toList = false ↔ term ≠ "forall" ∧ term ≠ "exists" := by
  simp only [isQuantifierWord, Quantifier.word, Bool.or_eq_false_iff, beq_eq_false_iff_ne, ne_eq,
    String.toList_inj]

/-- A text is an instance of a body exactly if it is not empty and is the body itself or the body
with some identifier put in for the variable, all of them compact. -/
theorem isInstance_iff_exists_term (body target : List Char) {bound : Char}
    (hletter : isLetter bound = true) :
    isInstance body [bound] target = true ↔
      compact target ≠ [] ∧
        (compact target = compact body ∨
          ∃ term : String, IsIdentifier term ∧ term ≠ "forall" ∧ term ≠ "exists" ∧
            compact target = replaceWord (compact body) [bound] term.toList) := by
  have hword : IsRun [bound] := isRun_singleton (isWordChar_of_isLetter hletter)
  simp only [isInstance, Bool.and_eq_true, Bool.not_eq_true', List.isEmpty_eq_false_iff,
    Bool.or_eq_true, beq_iff_eq, List.any_eq_true, ne_eq, and_congr_right_iff]
  intro _
  constructor
  · rintro (hsame | ⟨term, hterm, htarget⟩)
    · exact Or.inl hsame.symm
    · obtain ⟨hidentifier, hplain⟩ := mem_terms_iff.mp hterm
      obtain ⟨first, tail, rfl, hfirst, htail⟩ := exists_cons_of_mem_identifiers hidentifier
      have htext : (String.ofList (first :: tail)).toList = first :: tail :=
        String.toList_ofList
      rw [← htext, isQuantifierWord_eq_false_iff] at hplain
      refine Or.inr ⟨String.ofList (first :: tail), ⟨first, tail, htext, hfirst, htail⟩,
        hplain.1, hplain.2, ?_⟩
      rw [htext, htarget]
  · rintro (hsame | ⟨term, hterm, hforall, hexists, htarget⟩)
    · exact Or.inl hsame.symm
    · by_cases hstands : hasWord [bound] (compact body) = true
      · -- The term stands in the target as a whole word, and so it is tried.
        have hfound : hasWord term.toList (compact target) = true := by
          rw [htarget, hasWord_replaceWord hword hterm.isRun hterm.isRun]
          exact Or.inr ⟨rfl, hstands⟩
        refine Or.inr ⟨term.toList, mem_terms_iff.mpr ⟨?_, ?_⟩, htarget.symm⟩
        · obtain ⟨first, tail, htext, hfirst, htail⟩ := hterm
          rw [htext] at hfound ⊢
          exact mem_identifiers_of_hasWord hfirst htail hfound
        · exact isQuantifierWord_eq_false_iff.mpr ⟨hforall, hexists⟩
      · rw [Bool.not_eq_true] at hstands
        rw [replaceWord_of_hasWord_eq_false hword hstands] at htarget
        exact Or.inl htarget.symm

/-- A term may go on with underscores and digits after its letter. -/
theorem related_has_instance :
    isInstance "P(x) & Q(x)".toList ['x'] "P(a_1) ∧ Q(a_1)".toList = true := by
  rw [isInstance_iff_exists_term _ _ (by decide)]
  refine ⟨by decide, Or.inr ⟨"a_1", ⟨'a', ['_', '1'], by decide, by decide, ?_⟩, by decide,
    by decide, by decide⟩⟩
  exact List.all_eq_true.mp (by decide)

end Instance

end Quantified

end Deduction
