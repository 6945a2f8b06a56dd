import Deduction.Check.Context
import Deduction.Proofs.Formula.QuantifiedText
import Deduction.Proofs.Formula.Shape

/-!
Negation as a sign at the head of a text.

A negation sign binds tighter than every other connective. So taking it from the head of a text
leaves the text of a formula, but the formula whose negation was begun there is the first operand
only, down to where the sign stands. Texts that contradict each other are formulas that do, exactly
if the sign negates the whole text.
-/

namespace Deduction.Formula

open Text Token

/-- The formula is the other one with a negation in front of its first operand, or of the first
operand of that, and so on, or in front of all of it. -/
inductive DeniesFirst : Formula → Formula → Prop
  | neg (operand : Formula) : DeniesFirst (.neg operand) operand
  | conj {left left' : Formula} (hleft : DeniesFirst left left') (right : Formula) :
      DeniesFirst (.conj left right) (.conj left' right)
  | disj {left left' : Formula} (hleft : DeniesFirst left left') (right : Formula) :
      DeniesFirst (.disj left right) (.disj left' right)
  | imp {left left' : Formula} (hleft : DeniesFirst left left') (right : Formula) :
      DeniesFirst (.imp left right) (.imp left' right)
  | iff {left left' : Formula} (hleft : DeniesFirst left left') (right : Formula) :
      DeniesFirst (.iff left right) (.iff left' right)

namespace DeniesFirst

variable {formula formula' other : Formula}

theorem atoms_eq (hdenies : DeniesFirst formula formula') : formula.atoms = formula'.atoms := by
  induction hdenies with
  | neg => rfl
  | conj _ _ ih => simp [atoms, ih]
  | disj _ _ ih => simp [atoms, ih]
  | imp _ _ ih => simp [atoms, ih]
  | iff _ _ ih => simp [atoms, ih]

theorem disjunction_mem_iff (hdenies : DeniesFirst formula formula') :
    .disjunction ∈ formula.connectives ↔ .disjunction ∈ formula'.connectives := by
  induction hdenies with
  | neg => simp [connectives]
  | conj _ _ ih => simp [connectives, ih]
  | disj => simp [connectives]
  | imp _ _ ih => simp [connectives, ih]
  | iff _ _ ih => simp [connectives, ih]

theorem mayAbsorb_iff (hdenies : DeniesFirst formula formula') :
    MayAbsorb formula' other ∨ MayAbsorb other formula' ↔
      MayAbsorb formula other ∨ MayAbsorb other formula := by
  have hname : MayAbsorb formula' other ↔ MayAbsorb formula other := by
    simp only [mayAbsorb_iff_and, hdenies.atoms_eq]
  have hdisjunction : MayAbsorb other formula' ↔ MayAbsorb other formula := by
    simp only [mayAbsorb_iff_and, hdenies.disjunction_mem_iff]
  rw [hname, hdisjunction]

theorem contradicts_iff (hdenies : DeniesFirst formula formula') :
    formula.contradicts formula' = true ↔
      formula.main? = some .negation ∨ formula'.main? = some .negation := by
  cases hdenies with
  | neg => simp [contradicts, negates, agrees, main?, connectives]
  | conj => simp [contradicts, negates, main?, connectives]
  | disj => simp [contradicts, negates, main?, connectives]
  | imp => simp [contradicts, negates, main?, connectives]
  | iff => simp [contradicts, negates, main?, connectives]

end DeniesFirst

section Sign

variable {sign : Token} {tokens : List Token} {formula : Formula}

theorem Derives.exists_cons {rank : Rank} {left rest : List Token} {operand : Formula}
    (hleft : Derives rank left operand) (htokens : sign :: tokens = left ++ rest) :
    ∃ tail, left = sign :: tail ∧ tokens = tail ++ rest := by
  rcases List.cons_eq_append_iff.mp htokens with ⟨hnil, -⟩ | hsome
  · exact absurd hnil hleft.ne_nil
  · exact hsome

/-- After a negation sign there is the text of a formula. If the sign is not of all of it, the text
has a first operand, and no outer parentheses then. -/
theorem Derives.exists_deniesFirst {rank : Rank} (hderives : Derives rank (sign :: tokens) formula)
    (hsign : sign.kind = .negation) (hspelled : ∀ token ∈ tokens, token.IsSpelled) :
    ∃ operand, Derives rank tokens operand ∧ DeniesFirst formula operand ∧
      (formula = .neg operand ∨ stripOuter (spelling tokens) = spelling tokens) := by
  -- The sign is the first token of the first operand, down to a negation.
  generalize hall : sign :: tokens = all at hderives
  induction hderives generalizing tokens with
  | ofImplication _ ih =>
      obtain ⟨operand, hoperand, hdenies⟩ := ih hspelled hall
      exact ⟨operand, .ofImplication hoperand, hdenies⟩
  | ofDisjunction _ ih =>
      obtain ⟨operand, hoperand, hdenies⟩ := ih hspelled hall
      exact ⟨operand, .ofDisjunction hoperand, hdenies⟩
  | ofConjunction _ ih =>
      obtain ⟨operand, hoperand, hdenies⟩ := ih hspelled hall
      exact ⟨operand, .ofConjunction hoperand, hdenies⟩
  | ofNegation _ ih =>
      obtain ⟨operand, hoperand, hdenies⟩ := ih hspelled hall
      exact ⟨operand, .ofNegation hoperand, hdenies⟩
  | ofPrimary _ ih =>
      obtain ⟨operand, hoperand, hdenies⟩ := ih hspelled hall
      exact ⟨operand, .ofPrimary hoperand, hdenies⟩
  | @equivalence _ _ _ _ right hleft hkind hright ih =>
      obtain ⟨tail, htail, rfl⟩ := hleft.exists_cons hall
      obtain ⟨operand, hoperand, hdenies, -⟩ := ih (List.forall_mem_append.mp hspelled).1 htail.symm
      exact ⟨_, .equivalence hoperand hkind hright, hdenies.iff right,
        Or.inr (hoperand.stripOuter_pair hspelled)⟩
  | @implication _ _ _ _ right hleft hkind hright ih =>
      obtain ⟨tail, htail, rfl⟩ := hleft.exists_cons hall
      obtain ⟨operand, hoperand, hdenies, -⟩ := ih (List.forall_mem_append.mp hspelled).1 htail.symm
      exact ⟨_, .implication hoperand hkind hright, hdenies.imp right,
        Or.inr (hoperand.stripOuter_pair hspelled)⟩
  | @disjunction _ _ _ _ right hleft hkind hright ih =>
      obtain ⟨tail, htail, rfl⟩ := hleft.exists_cons hall
      obtain ⟨operand, hoperand, hdenies, -⟩ := ih (List.forall_mem_append.mp hspelled).1 htail.symm
      exact ⟨_, .disjunction hoperand hkind hright, hdenies.disj right,
        Or.inr (hoperand.stripOuter_pair hspelled)⟩
  | @conjunction _ _ _ _ right hleft hkind hright ih =>
      obtain ⟨tail, htail, rfl⟩ := hleft.exists_cons hall
      obtain ⟨operand, hoperand, hdenies, -⟩ := ih (List.forall_mem_append.mp hspelled).1 htail.symm
      exact ⟨_, .conjunction hoperand hkind hright, hdenies.conj right,
        Or.inr (hoperand.stripOuter_pair hspelled)⟩
  | negation _ hoperand =>
      obtain ⟨-, rfl⟩ := List.cons.inj hall
      exact ⟨_, hoperand, .neg _, Or.inl rfl⟩
  | name hname =>
      obtain ⟨rfl, -⟩ := List.cons.inj hall
      simp [hsign] at hname
  | application hname =>
      obtain ⟨rfl, -⟩ := List.cons.inj hall
      simp [hsign] at hname
  | group hopening =>
      obtain ⟨rfl, -⟩ := List.cons.inj hall
      simp [hsign] at hopening

theorem IsTextOf.exists_deniesFirst {rest : List Char} (htext : IsTextOf formula ('!' :: rest)) :
    ∃ operand, IsTextOf operand rest ∧ DeniesFirst formula operand ∧
      (formula = .neg operand ∨ Text.stripOuter rest = rest) := by
  generalize htokens : '!' :: rest = text at htext
  obtain @⟨tokens, hspelled, hderives⟩ := htext
  obtain ⟨last, hrun, -⟩ := hderives.isOperand
  obtain ⟨sign, tokens, tail, _, rfl, hsign, rfl, hkind, -, -⟩ :=
    hrun.exists_first hspelled htokens.symm
  obtain ⟨hspelledSign, hspelled⟩ := List.forall_mem_cons.mp hspelled
  change sign.kind = .negation at hkind
  obtain ⟨-, rfl⟩ := List.cons.inj (hsign.symm.trans (hspelledSign.toList_eq hkind rfl))
  obtain ⟨operand, hoperand, hdenies⟩ := hderives.exists_deniesFirst hkind hspelled
  exact ⟨operand, ⟨hspelled, hoperand⟩, hdenies⟩

end Sign

theorem core_of_negatedText? {text operand : List Char}
    (hnegated : negatedText? text = some operand) : core text = '!' :: operand := by
  unfold negatedText? at hnegated
  split at hnegated
  · rename_i hcore
    rw [hcore, Option.some.inj hnegated]
  · cases hnegated

theorem deniesFirst_or_mayAbsorb {first second : String} {formula formula' : Formula}
    (hfirst : parse false first = .ok formula) (hsecond : parse false second = .ok formula')
    (htext : textNegates first.toList second.toList = true) :
    DeniesFirst formula formula' ∨ formula.atoms ≠ formula'.atoms ∧
      (MayAbsorb formula formula' ∨ MayAbsorb formula' formula) := by
  unfold textNegates at htext
  split at htext
  · rename_i rest hnegated
    have hformula := IsTextOf.core_of_parse hfirst
    rw [core_of_negatedText? hnegated] at hformula
    obtain ⟨operand, hoperand, hdenies, -⟩ := hformula.exists_deniesFirst
    have hother := IsTextOf.core_of_parse hsecond
    have hsame := hoperand.stripOuter.eq_of_alphaEqual hother htext
    rcases (hsame ▸ hoperand.stripOuter).eq_or_mayAbsorb hother with rfl | habsorb
    · exact Or.inl hdenies
    · rw [← hdenies.atoms_eq, hdenies.mayAbsorb_iff] at habsorb
      exact Or.inr habsorb
  · cases htext

/-- Texts of formulas with the same atoms contradict each other only if one of the formulas is the
other with its first operand negated, and the formulas contradict each other exactly if the negation
is of the whole formula. If the atoms differ, a name of one formula has absorbed the letter of a
disjunction of the other. -/
theorem contradicts_iff_of_textContradicts (first second : String) (formula formula' : Formula)
    (hfirst : parse false first = .ok formula) (hsecond : parse false second = .ok formula')
    (htext : textContradicts first.toList second.toList = true) :
    (formula.atoms = formula'.atoms →
      (DeniesFirst formula formula' ∨ DeniesFirst formula' formula) ∧
      (formula.contradicts formula' = true ↔
        formula.main? = some .negation ∨ formula'.main? = some .negation)) ∧
    (formula.atoms ≠ formula'.atoms → MayAbsorb formula formula' ∨ MayAbsorb formula' formula) := by
  have hcases : DeniesFirst formula formula' ∨ DeniesFirst formula' formula ∨
      formula.atoms ≠ formula'.atoms ∧
        (MayAbsorb formula formula' ∨ MayAbsorb formula' formula) := by
    rw [textContradicts, Bool.or_eq_true] at htext
    rcases htext with hnegates | hnegates
    · exact (deniesFirst_or_mayAbsorb hfirst hsecond hnegates).imp_right Or.inr
    · rcases deniesFirst_or_mayAbsorb hsecond hfirst hnegates with hdenies | ⟨hother, habsorb⟩
      · exact Or.inr (Or.inl hdenies)
      · exact Or.inr (Or.inr ⟨hother.symm, habsorb.symm⟩)
  rcases hcases with hdenies | hdenies | ⟨hother, habsorb⟩
  · exact ⟨fun _ => ⟨Or.inl hdenies, hdenies.contradicts_iff⟩,
      fun hother => absurd hdenies.atoms_eq hother⟩
  · refine ⟨fun _ => ⟨Or.inr hdenies, ?_⟩, fun hother => absurd hdenies.atoms_eq.symm hother⟩
    rw [contradicts, Bool.or_comm, ← contradicts, hdenies.contradicts_iff, or_comm]
  · exact ⟨fun hatoms => absurd hatoms hother, fun _ => habsorb⟩

theorem negated_implication_contradicts :
    parse false "!(P(x) -> B)" = .ok (.neg (.imp (.atom "P(x)") (.atom "B"))) ∧
    parse false "( P(x) → B )" = .ok (.imp (.atom "P(x)") (.atom "B")) ∧
    textContradicts "!(P(x) -> B)".toList "( P(x) → B )".toList = true ∧
    (neg (.imp (.atom "P(x)") (.atom "B"))).contradicts
      (.imp (.atom "P(x)") (.atom "B")) = true := by
  have hfirst : parse false "!(P(x) -> B)" =
      .ok (.neg (.imp (.atom "P(x)") (.atom "B"))) := by
    decide +kernel
  have hsecond : parse false "( P(x) → B )" = .ok (.imp (.atom "P(x)") (.atom "B")) := by
    decide +kernel
  have htext : textContradicts "!(P(x) -> B)".toList "( P(x) → B )".toList = true := by
    decide +kernel
  have hiff := contradicts_iff_of_textContradicts _ _ _ _ hfirst hsecond htext
  exact ⟨hfirst, hsecond, htext, (hiff.1 rfl).2.mpr (Or.inl rfl)⟩

/-- The sign negates the antecedent only, and both formulas are true if the consequent is. -/
theorem negated_antecedent_contradicts_as_text :
    parse false "!A -> B" = .ok (.imp (.neg (.atom "A")) (.atom "B")) ∧
    parse false "A -> B" = .ok (.imp (.atom "A") (.atom "B")) ∧
    textContradicts "!A -> B".toList "A -> B".toList = true ∧
    (imp (.neg (.atom "A")) (.atom "B")).contradicts (.imp (.atom "A") (.atom "B")) = false ∧
    (imp (.neg (.atom "A")) (.atom "B")).eval (fun _ => true) = true ∧
    (imp (.atom "A") (.atom "B")).eval (fun _ => true) = true := by
  refine ⟨?_, ?_, ?_, rfl, rfl, rfl⟩
  · decide +kernel
  · decide +kernel
  · decide +kernel

end Deduction.Formula
