import Deduction.Proofs.Formula.TextualNegation

namespace Deduction

open Formula Text Token

namespace Token

/-- The text of some tokens, one after the other. -/
def IsSpelling (text : List Char) : Prop :=
  ∃ tokens, (∀ token ∈ tokens, token.IsSpelled) ∧ spelling tokens = text

theorem IsLexeme.isSpelling {kind : TokenKind} {word : List Char} (hword : IsLexeme kind word) :
    IsSpelling word :=
  ⟨[⟨kind, String.ofList word, 0⟩], by simpa [IsSpelled] using hword, by simp [spelling]⟩

theorem IsSpelling.append {text text' : List Char} (hfirst : IsSpelling text)
    (hsecond : IsSpelling text') : IsSpelling (text ++ text') := by
  obtain ⟨tokens, hspelled, rfl⟩ := hfirst
  obtain ⟨tokens', hspelled', rfl⟩ := hsecond
  exact ⟨tokens ++ tokens', List.forall_mem_append.mpr ⟨hspelled, hspelled'⟩, spelling_append ..⟩

theorem IsSpelling.parenthesized {text : List Char} (htext : IsSpelling text) :
    IsSpelling ('(' :: (text ++ [')'])) := by
  have hopening : IsLexeme .openParen ['('] := .sign rfl
  have hclosing : IsLexeme .closeParen [')'] := .sign rfl
  exact hopening.isSpelling.append (htext.append hclosing.isSpelling)

theorem IsSpelling.negated {text : List Char} (htext : IsSpelling text) :
    IsSpelling ('!' :: text) := by
  have hsign : IsLexeme .negation ['!'] := .sign rfl
  exact hsign.isSpelling.append htext

theorem IsSpelling.compact_eq {text : List Char} (htext : IsSpelling text) :
    compact text = text := by
  obtain ⟨tokens, hspelled, rfl⟩ := htext
  exact compact_spelling hspelled

theorem IsSpelling.hasWord_boundWord {text : List Char} (htext : IsSpelling text) :
    hasWord Quantified.boundWord text = false := by
  obtain ⟨tokens, hspelled, rfl⟩ := htext
  exact hasWord_boundWord_spelling hspelled

end Token

theorem Formula.compact_append_cons {c : Char} (hc : IsUntouched spellings c)
    (hblank : isBlank c = false) (before after : List Char) :
    compact (before ++ c :: after) = compact before ++ c :: compact after := by
  rw [compact, respell_append_cons hc]
  simp [compact, removeBlanks, hblank]

theorem Formula.IsTextOf.isSpelling {formula : Formula} {text : List Char}
    (htext : IsTextOf formula text) : IsSpelling text := by
  obtain @⟨tokens, hspelled, -⟩ := htext
  exact ⟨tokens, hspelled, rfl⟩

theorem Formula.IsTextOf.plainSign_subset {formula : Formula} {text : List Char}
    {connective : Connective} (htext : IsTextOf formula text)
    (hmem : connective ∈ formula.connectives) : connective.plainSign ⊆ text := by
  obtain ⟨hspelled, hderives⟩ := htext
  obtain ⟨token, htoken, hkind⟩ := (hderives.mem_connectives_iff connective).mp hmem
  have hsign : sign? connective.tokenKind = some connective.plainSign := by
    cases connective <;> rfl
  intro c hc
  rw [← (hspelled token htoken).toList_eq hkind hsign] at hc
  exact List.mem_flatMap.mpr ⟨token, htoken, hc⟩

namespace Quantified

variable {quantifier : Quantifier} {bound : Char} {body converse : List Char}

theorem isSpelling_head (quantifier : Quantifier) (hbound : isLetter bound = true) :
    IsSpelling (quantifier.word.toList ++ [bound]) := by
  have hrun := (isRun_head quantifier hbound).isWordChar
  obtain ⟨first, second, rest, hword, hfirst⟩ := quantifier.exists_word_eq
  rw [hword] at hrun ⊢
  have hname : IsLexeme .identifier (first :: (second :: rest ++ [bound])) :=
    .identifier hfirst (List.forall_mem_cons.mp hrun).2 (by simp)
  exact hname.isSpelling

theorem exists_render_eq (statement : Quantified) :
    ∃ first rest, statement.render = first :: rest ∧ isLetter first = true := by
  obtain ⟨first, second, rest, hword, hfirst⟩ := statement.quantifier.exists_word_eq
  rw [render_eq, hword]
  exact ⟨first, _, rfl, hfirst⟩

theorem compact_render (quantifier : Quantifier) (hbound : isLetter bound = true)
    (body : List Char) :
    compact (render ⟨quantifier, bound, body⟩) = render ⟨quantifier, bound, compact body⟩ := by
  have hnil : compact [] = [] := by decide
  rw [render_eq, render_eq, compact_append_cons (by decide) (by decide),
    (isSpelling_head quantifier hbound).compact_eq, compact_append_cons (by decide) (by decide),
    hnil]

theorem render_inj {body' : List Char}
    (heq : render ⟨quantifier, bound, body⟩ = render ⟨quantifier, bound, body'⟩) :
    body = body' := by
  simpa [render] using heq

/-- A text of tokens that can be put in parentheses. -/
structure IsBody (body : List Char) : Prop where
  isSpelling : IsSpelling body
  isBalanced : Text.isBalanced body = true

theorem IsBody.negated (hbody : IsBody body) : IsBody ('!' :: body) where
  isSpelling := hbody.isSpelling.negated
  isBalanced := by
    have hsign : Text.isBalanced ['!'] = true := by decide
    exact isBalanced_append hsign hbody.isBalanced

theorem IsBody.parenthesized (hbody : IsBody body) : IsBody ('(' :: (body ++ [')'])) where
  isSpelling := hbody.isSpelling.parenthesized
  isBalanced := isBalanced_parenthesized hbody.isBalanced

theorem IsBody.isSpelling_render (quantifier : Quantifier) (hbound : isLetter bound = true)
    (hbody : IsBody body) : IsSpelling (render ⟨quantifier, bound, body⟩) := by
  rw [render_eq]
  exact (isSpelling_head quantifier hbound).append hbody.isSpelling.parenthesized

theorem IsBody.read?_render (quantifier : Quantifier) (hbound : isLetter bound = true)
    (hbody : IsBody body) :
    read? (render ⟨quantifier, bound, body⟩) = some ⟨quantifier, bound, body⟩ := by
  have hreadable : IsReadable ⟨quantifier, bound, body⟩ := ⟨hbound, hbody.isBalanced⟩
  exact Quantified.read?_render hreadable

theorem mem_negations_iff {text negated : List Char} :
    negated ∈ negations text ↔ negated = '!' :: '(' :: (stripOuter text ++ [')']) ∨
      isSimple (stripOuter text) = true ∧ negated = '!' :: stripOuter text := by
  by_cases hsimple : isSimple (stripOuter text) = true
  · simp [negations, hsimple, or_comm]
  · simp [negations, hsimple]

theorem IsBody.of_mem_negations {text negated : List Char} (htext : IsBody (stripOuter text))
    (hmem : negated ∈ negations text) : IsBody negated := by
  rcases mem_negations_iff.mp hmem with rfl | ⟨-, rfl⟩
  · exact htext.parenthesized.negated
  · exact htext.negated

theorem alphaEqual_render_iff (quantifier : Quantifier) (hbound : isLetter bound = true)
    (hbody : IsBody body) (hconverse : IsBody (compact converse)) :
    alphaEqual (render ⟨quantifier, bound, body⟩) (render ⟨quantifier, bound, converse⟩) = true ↔
      body = compact converse := by
  have hfirst := hbody.isSpelling_render quantifier hbound
  have hsecond := hconverse.isSpelling_render quantifier hbound
  have hcompact : alphaEqual (render ⟨quantifier, bound, body⟩)
      (render ⟨quantifier, bound, converse⟩) = alphaEqual (render ⟨quantifier, bound, body⟩)
        (render ⟨quantifier, bound, compact converse⟩) := by
    simp only [alphaEqual, compact_render quantifier hbound converse, hsecond.compact_eq]
  rw [hcompact]
  constructor
  · intro halpha
    refine render_inj (eq_of_alphaEqual hfirst.compact_eq hsecond.compact_eq
      hfirst.hasWord_boundWord hsecond.hasWord_boundWord ?_ halpha)
    intro a b hread hread'
    rw [hbody.read?_render quantifier hbound] at hread
    rw [hconverse.read?_render quantifier hbound] at hread'
    rw [← Option.some.inj hread, ← Option.some.inj hread']
  · intro hsame
    simp [alphaEqual, hsame]

theorem convertsTo_iff (hbound : isLetter bound = true) (hbody : IsBody (compact body))
    (hcore : IsBody (core body)) (hconverse : IsBody (compact converse)) :
    convertsTo ('!' :: render ⟨quantifier, bound, body⟩)
      (render ⟨quantifier.dual, bound, converse⟩) = true ↔
        compact converse ∈ negations (compact body) := by
  have hnegated : compact ('!' :: render ⟨quantifier, bound, body⟩) =
      '!' :: render ⟨quantifier, bound, compact body⟩ := by
    rw [← compact_render quantifier hbound]
    exact compact_append_cons (by decide) (by decide) [] _
  have hhead : (render ⟨quantifier, bound, compact body⟩).head? ≠ some '(' := by
    obtain ⟨first, rest, hrender, hfirst⟩ := exists_render_eq ⟨quantifier, bound, compact body⟩
    rw [hrender, List.head?_cons]
    intro hopen
    rw [Option.some.inj hopen] at hfirst
    exact absurd hfirst (by decide)
  have hread : parse? (stripOuter (render ⟨quantifier, bound, compact body⟩)) =
      some ⟨quantifier, bound, compact body⟩ := by
    rw [stripOuter_of_head? hhead, parse?, (hbody.isSpelling_render quantifier hbound).compact_eq,
      hbody.read?_render quantifier hbound]
  rw [convertsTo, hnegated]
  simp only [hread, List.any_eq_true]
  constructor
  · rintro ⟨negated, hmem, halpha⟩
    have hsame := (alphaEqual_render_iff _ hbound (hcore.of_mem_negations hmem) hconverse).mp halpha
    rwa [← hsame]
  · intro hmem
    exact ⟨_, hmem, (alphaEqual_render_iff _ hbound hconverse hconverse).mpr rfl⟩

theorem convertsTo_render_eq_false (quantifier : Quantifier) (hbound : isLetter bound = true)
    (body statement : List Char) :
    convertsTo (render ⟨quantifier, bound, body⟩) statement = false := by
  obtain ⟨first, rest, hrender, hfirst⟩ := exists_render_eq ⟨quantifier, bound, compact body⟩
  rw [convertsTo, compact_render quantifier hbound, hrender]
  split
  · rename_i heq
    obtain ⟨rfl, -⟩ := List.cons.inj heq
    exact absurd hfirst (by decide)
  · rfl

theorem mem_dropWhile {test : Char → Bool} {text : List Char} {c : Char} (hc : c ∈ text)
    (htest : test c = false) : c ∈ text.dropWhile test := by
  rw [← List.takeWhile_append_dropWhile (p := test) (l := text), List.mem_append] at hc
  rcases hc with htaken | hdropped
  · rw [List.all_eq_true.mp List.all_takeWhile c htaken] at htest
    contradiction
  · exact hdropped

theorem not_mem_of_isSimple {text : List Char} {c : Char} (hsimple : isSimple text = true)
    (hword : isWordChar c = false) (hother : c ∉ ['!', '(', ')', ',', '\n']) : c ∉ text := by
  intro hc
  simp only [List.mem_cons, List.not_mem_nil, or_false, not_or] at hother
  obtain ⟨hsign, hopen, hclose, hcomma, hline⟩ := hother
  have hname : c ∈ text.dropWhile (· == '!') := mem_dropWhile hc (by simp [hsign])
  unfold isSimple at hsimple
  split at hsimple
  · contradiction
  · rename_i first rest hrest
    rw [Bool.and_eq_true] at hsimple
    obtain ⟨hfirst, hsimple⟩ := hsimple
    rw [hrest] at hname
    -- The character is not in the name, so it is after it.
    have hafter : c ∈ rest.dropWhile isWordChar := by
      rcases List.mem_cons.mp hname with rfl | hmem
      · rw [isWordChar_of_isLetter hfirst] at hword
        contradiction
      · exact mem_dropWhile hmem hword
    split at hsimple
    · rename_i hnil
      simp [hnil] at hafter
    · rename_i hnil
      simp [hnil, hline] at hafter
    · rename_i inside hinside
      rw [hinside] at hafter
      have hend : c ∈ inside.dropWhile fun d => isWordChar d || d == ',' := by
        rcases List.mem_cons.mp hafter with rfl | hmem
        · contradiction
        · exact mem_dropWhile hmem (by simp [hword, hcomma])
      split at hsimple
      · rename_i hlast
        simp [hlast, hclose] at hend
      · rename_i hlast
        simp [hlast, hclose, hline] at hend
      · contradiction
    · contradiction

end Quantified

namespace Formula

theorem IsTextOf.isBody {formula : Formula} {text : List Char} (htext : IsTextOf formula text) :
    Quantified.IsBody text :=
  ⟨htext.isSpelling, htext.isBalanced⟩

theorem DeniesFirst.eq_neg {formula formula' : Formula} (hdenies : DeniesFirst formula formula')
    (hmain : formula.main? = some .negation) : formula = .neg formula' := by
  cases hdenies with
  | neg => rfl
  | conj => simp [main?, connectives] at hmain
  | disj => simp [main?, connectives] at hmain
  | imp => simp [main?, connectives] at hmain
  | iff => simp [main?, connectives] at hmain

theorem IsTextOf.not_mem_connectives {formula : Formula} {text : List Char}
    {connective : Connective} (htext : IsTextOf formula ('!' :: text))
    (hsimple : Quantified.isSimple text = true)
    (hsign : ∃ c ∈ connective.plainSign, isWordChar c = false ∧
      c ∉ ['!', '(', ')', ',', '\n']) : connective ∉ formula.connectives := by
  intro hmem
  obtain ⟨c, hc, hword, hother⟩ := hsign
  rcases List.mem_cons.mp (htext.plainSign_subset hmem hc) with rfl | hmem
  · exact hother (by decide)
  · exact Quantified.not_mem_of_isSimple hsimple hword hother hmem

theorem IsTextOf.eq_neg_or_disjunction_mem {formula formula' : Formula} {text : List Char}
    (htext : IsTextOf formula ('!' :: text)) (hdenies : DeniesFirst formula formula')
    (hsimple : Quantified.isSimple text = true) :
    formula = .neg formula' ∨ .disjunction ∈ formula.connectives := by
  have hconjunction : .conjunction ∉ formula.connectives :=
    htext.not_mem_connectives hsimple ⟨'^', by decide, by decide, by decide⟩
  have himplication : .implication ∉ formula.connectives :=
    htext.not_mem_connectives hsimple ⟨'-', by decide, by decide, by decide⟩
  have hequivalence : .equivalence ∉ formula.connectives :=
    htext.not_mem_connectives hsimple ⟨'-', by decide, by decide, by decide⟩
  cases hdenies with
  | neg => exact Or.inl rfl
  | disj => exact Or.inr (by simp [connectives])
  | conj => simp [connectives] at hconjunction
  | imp => simp [connectives] at himplication
  | iff => simp [connectives] at hequivalence

end Formula

namespace Quantified

/-- Where a quantified statement over a body is converted, the other body is the negation of it
exactly if both have the same atoms and the other body is a negation at all. Nothing else is
accepted without a disjunction in one of the bodies. -/
theorem eq_neg_iff_of_isConversion (quantifier : Quantifier) (bound : Char)
    (body converse : String) (formula formula' : Formula) (hbound : isLetter bound = true)
    (hbody : parse false body = .ok formula) (hconverse : parse false converse = .ok formula')
    (hconversion : isConversion ('!' :: render ⟨quantifier, bound, body.toList⟩)
      (render ⟨quantifier.dual, bound, converse.toList⟩) = true) :
    (formula' = .neg formula ↔
      formula'.atoms = formula.atoms ∧ formula'.main? = some .negation) ∧
    (formula' ≠ .neg formula →
      .disjunction ∈ formula.connectives ∨ .disjunction ∈ formula'.connectives) := by
  have hcore := IsTextOf.core_of_parse hbody
  have htext := IsTextOf.of_parse hconverse
  rw [isConversion, convertsTo_render_eq_false _ hbound, Bool.or_false,
    convertsTo_iff hbound (IsTextOf.of_parse hbody).isBody hcore.isBody htext.isBody,
    mem_negations_iff] at hconversion
  -- What follows the negation sign has the core of the body, and is simple if it is the core.
  obtain ⟨rest, hrest, hstrip, hsimple⟩ : ∃ rest, compact converse.toList = '!' :: rest ∧
      stripOuter rest = core body.toList ∧ (stripOuter rest = rest → isSimple rest = true) := by
    rw [← core] at hconversion
    rcases hconversion with henclosed | ⟨hsimple, hbare⟩
    · refine ⟨_, henclosed, ?_, fun hself => ?_⟩
      · rw [stripOuter_parenthesized hcore.isBalanced, core, stripOuter_stripOuter]
      · exact absurd hself (stripOuter_parenthesized_ne hcore.isBalanced)
    · exact ⟨_, hbare, stripOuter_stripOuter _, fun _ => hsimple⟩
  rw [hrest] at htext
  obtain ⟨operand, hoperand, hdenies, hwhole⟩ := htext.exists_deniesFirst
  have hoperandCore : IsTextOf operand (core body.toList) := hstrip ▸ hoperand.stripOuter
  refine ⟨⟨?_, ?_⟩, fun hother => ?_⟩
  · rintro rfl
    exact ⟨rfl, rfl⟩
  · rintro ⟨hatoms, hmain⟩
    rw [hdenies.atoms_eq] at hatoms
    rw [← hoperandCore.eq_of_atoms_eq hcore hatoms]
    exact hdenies.eq_neg hmain
  · rcases hoperandCore.eq_or_mayAbsorb hcore with rfl | ⟨-, habsorb | habsorb⟩
    · rcases hwhole with hneg | hself
      · exact absurd hneg hother
      · exact Or.inr ((htext.eq_neg_or_disjunction_mem hdenies (hsimple hself)).resolve_left hother)
    · exact Or.inl habsorb.disjunction
    · exact Or.inr (hdenies.disjunction_mem_iff.mpr habsorb.disjunction)

theorem chain_is_converted :
    isLetter 'x' = true ∧
    parse false "(P v Q v R)" = .ok (.disj (.disj (.atom "P") (.atom "Q")) (.atom "R")) ∧
    parse false "!P v Q ∨ R" = .ok (.disj (.disj (.neg (.atom "P")) (.atom "Q")) (.atom "R")) ∧
    isConversion ('!' :: render ⟨.existential, 'x', "(P v Q v R)".toList⟩)
      (render ⟨.universal, 'x', "!P v Q ∨ R".toList⟩) = true ∧
    (Formula.disj (.disj (.neg (.atom "P")) (.atom "Q")) (.atom "R")).main? ≠ some .negation ∧
    (.disjunction ∈ (Formula.disj (.disj (.atom "P") (.atom "Q")) (.atom "R")).connectives ∨
      .disjunction ∈
        (Formula.disj (.disj (.neg (.atom "P")) (.atom "Q")) (.atom "R")).connectives) := by
  have hbound : isLetter 'x' = true := by decide
  have hbody : parse false "(P v Q v R)" =
      .ok (.disj (.disj (.atom "P") (.atom "Q")) (.atom "R")) := by
    decide +kernel
  have hconverse : parse false "!P v Q ∨ R" =
      .ok (.disj (.disj (.neg (.atom "P")) (.atom "Q")) (.atom "R")) := by
    decide +kernel
  have hconversion : isConversion ('!' :: render ⟨.existential, 'x', "(P v Q v R)".toList⟩)
      (render ⟨.universal, 'x', "!P v Q ∨ R".toList⟩) = true := by
    decide +kernel
  have hother : Formula.disj (.disj (.neg (.atom "P")) (.atom "Q")) (.atom "R") ≠
      .neg (.disj (.disj (.atom "P") (.atom "Q")) (.atom "R")) := by
    simp
  have htold := eq_neg_iff_of_isConversion .existential 'x' _ _ _ _ hbound hbody hconverse
    hconversion
  exact ⟨hbound, hbody, hconverse, hconversion, fun hmain => hother (htold.1.mpr ⟨rfl, hmain⟩),
    htold.2 hother⟩

/-- The body looks like the name `PvQ`, so the sign in front of it is accepted. -/
theorem disjunction_is_converted_in_part :
    parse false "P v Q" = .ok (.disj (.atom "P") (.atom "Q")) ∧
    parse false "!P v Q" = .ok (.disj (.neg (.atom "P")) (.atom "Q")) ∧
    isConversion ('!' :: render ⟨.universal, 'x', "P v Q".toList⟩)
      (render ⟨.existential, 'x', "!P v Q".toList⟩) = true ∧
    Formula.disj (.neg (.atom "P")) (.atom "Q") ≠ .neg (.disj (.atom "P") (.atom "Q")) := by
  refine ⟨?_, ?_, ?_, by simp⟩
  · decide +kernel
  · decide +kernel
  · decide +kernel

end Quantified

end Deduction
