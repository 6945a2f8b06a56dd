import Deduction.Proofs.Formula.MainConnective
import Deduction.Proofs.Formula.Phase
import Deduction.Proofs.Formula.Shape

namespace Deduction.Formula

open Text Token

theorem isWordChar_ne_conjunctionSign {c : Char} (hword : isWordChar c = true) : c ≠ '^' := by
  rintro rfl
  exact absurd hword (by decide)

section Ends

variable {tokens : List Token}

theorem IsOperand.head?_ne (hoperand : IsOperand tokens)
    (hspelled : ∀ token ∈ tokens, token.IsSpelled) : (spelling tokens).head? ≠ some '^' := by
  obtain ⟨last, hrun, -⟩ := hoperand
  intro hhead
  obtain ⟨rest, htext⟩ := List.head?_eq_some_iff.mp hhead
  obtain ⟨token, _, _, _, -, -, -, hkind, hstep, -⟩ := hrun.exists_first hspelled htext
  -- A conjunction sign is not admitted before an operand.
  change token.kind = .conjunction at hkind
  cases hstep with
  | negation hother => simp [hother] at hkind
  | opening hother => simp [hother] at hkind
  | name hother => simp [hother] at hkind
  | closing hphase => exact absurd rfl hphase
  | joining hphase => exact absurd rfl hphase

theorem IsOperand.getLast?_ne (hoperand : IsOperand tokens)
    (hspelled : ∀ token ∈ tokens, token.IsSpelled) : (spelling tokens).getLast? ≠ some '^' := by
  obtain ⟨last, hrun, hlast⟩ := hoperand
  have hsome : tokens ≠ [] := by
    rintro rfl
    cases hrun
    exact absurd rfl hlast
  obtain ⟨tokens', token, rfl, rfl⟩ := hrun.exists_last hsome
  have htoken := hspelled token (by simp)
  have hspelling : spelling (tokens' ++ [token]) = spelling tokens' ++ token.text.toList := by
    simp [spelling]
  rw [hspelling, List.getLast?_append_of_ne_nil _ htoken.ne_nil]
  intro hsign
  have hmem := List.mem_of_getLast? hsign
  cases hkind : token.kind with
  | identifier => exact isWordChar_ne_conjunctionSign (htoken.forall_isWordChar hkind _ hmem) rfl
  | closeParen => simp [htoken.toList_eq hkind rfl] at hmem
  | _ => simp [Phase.after, hkind] at hlast

end Ends

section Search

variable {tokens : List Token} {formula : Formula}

theorem passesBack_name {token : Token} (hspelled : token.IsSpelled)
    (hname : token.kind = .identifier) : PassesBack '^' token.text.toList := by
  refine passesBack_of_forall fun c hc => ?_
  have hword := hspelled.forall_isWordChar hname c hc
  exact ⟨isWordChar_ne_conjunctionSign hword, isWordChar_ne_paren hword⟩

theorem Derives.passesBack_primary (hderives : Derives .primary tokens formula)
    (hspelled : ∀ token ∈ tokens, token.IsSpelled) : PassesBack '^' (spelling tokens) := by
  cases hderives with
  | @name token hname =>
      rw [spelling_cons]
      exact (passesBack_name (hspelled token List.mem_cons_self) hname).append (passesBack_nil _)
  | application hname _ hopening harguments hclosing =>
      obtain ⟨htoken, hrest⟩ := List.forall_mem_cons.mp hspelled
      have hspelledArguments := (List.forall_mem_append.mp (List.forall_mem_cons.mp hrest).2).1
      rw [spelling_cons, spelling_parenthesized hrest hopening hclosing]
      exact (passesBack_name htoken hname).append
        (passesBack_parenthesized '^' (harguments.isBalanced hspelledArguments))
  | group hopening hinner hclosing =>
      have hspelledInner := (List.forall_mem_append.mp (List.forall_mem_cons.mp hspelled).2).1
      rw [spelling_parenthesized hspelled hopening hclosing]
      exact passesBack_parenthesized '^' (hinner.readsAs hspelledInner).isClear.isBalanced

theorem Derives.passesBack_negation (hderives : Derives .negation tokens formula)
    (hspelled : ∀ token ∈ tokens, token.IsSpelled) : PassesBack '^' (spelling tokens) := by
  generalize hrank : Rank.negation = rank at hderives
  induction hderives with
  | ofPrimary hprimary => exact hprimary.passesBack_primary hspelled
  | negation hsign _ ih =>
      obtain ⟨hspelledSign, hoperand⟩ := List.forall_mem_cons.mp hspelled
      rw [spelling_cons, hspelledSign.toList_eq hsign rfl]
      exact (passesBack_singleton (by decide) (by decide) (by decide)).append (ih hoperand rfl)
  | _ => cases hrank

theorem Derives.main?_of_negation (hderives : Derives .negation tokens formula)
    (hspelled : ∀ token ∈ tokens, token.IsSpelled)
    (hstrip : stripOuter (spelling tokens) = spelling tokens) :
    formula.main? = none ∨ formula.main? = some .negation := by
  cases hderives with
  | negation => exact Or.inr rfl
  | ofPrimary hprimary =>
      cases hprimary with
      | name => exact Or.inl rfl
      | application => exact Or.inl rfl
      | group hopening hinner hclosing =>
          have hspelledInner := (List.forall_mem_append.mp (List.forall_mem_cons.mp hspelled).2).1
          rw [spelling_parenthesized hspelled hopening hclosing] at hstrip
          exact absurd hstrip
            (stripOuter_parenthesized_ne (hinner.readsAs hspelledInner).isClear.isBalanced)

end Search

section Parts

variable {text : List Char} {tokens tokens' : List Token} {sign : Token}
  {left right formula : Formula}

theorem conjunctionParts?_of_equivalence
    (hspelled : ∀ token ∈ tokens ++ sign :: tokens', token.IsSpelled)
    (hstrip : stripOuter text = spelling (tokens ++ sign :: tokens'))
    (hleft : Derives .equivalence tokens left) (hsign : sign.kind = .equivalence)
    (hright : Derives .implication tokens' right) : conjunctionParts? text = none := by
  have hsplit := isSome_splitEquivalence?_of_equivalence hspelled hleft hsign hright
  rw [conjunctionParts?, hstrip, hsplit, Bool.true_or]
  rfl

theorem conjunctionParts?_of_implication
    (hspelled : ∀ token ∈ tokens ++ sign :: tokens', token.IsSpelled)
    (hstrip : stripOuter text = spelling (tokens ++ sign :: tokens'))
    (hleft : Derives .disjunction tokens left) (hsign : sign.kind = .implication)
    (hright : Derives .implication tokens' right) : conjunctionParts? text = none := by
  have hsplit := splitTop?_arrow_of_implication hspelled hleft hsign hright
  rw [conjunctionParts?, hstrip, hsplit, Option.isSome_some, Bool.or_true]
  rfl

theorem conjunctionParts?_of_disjunction (hspelled : ∀ token ∈ tokens, token.IsSpelled)
    (hstrip : stripOuter text = spelling tokens) (hderives : Derives .disjunction tokens formula) :
    conjunctionParts? text =
      (splitLast? (spelling tokens) '^').map (Prod.map stripOuter stripOuter) := by
  have hequivalence := splitEquivalence?_of_implication hspelled (.ofDisjunction hderives)
  have harrow := splitTop?_arrow_of_disjunction hspelled hderives
  rw [conjunctionParts?, hstrip, hequivalence, harrow]
  cases splitLast? (spelling tokens) '^' with
  | none => rfl
  | some parts => rfl

theorem splitLast?_of_conjunction
    (hspelled : ∀ token ∈ tokens ++ sign :: tokens', token.IsSpelled)
    (hleft : Derives .conjunction tokens left) (hsign : sign.kind = .conjunction)
    (hright : Derives .negation tokens' right) :
    splitLast? (spelling (tokens ++ sign :: tokens')) '^' =
      some (spelling tokens, spelling tokens') := by
  obtain ⟨hspelledLeft, hspelledRest⟩ := List.forall_mem_append.mp hspelled
  obtain ⟨-, hspelledRight⟩ := List.forall_mem_cons.mp hspelledRest
  rw [spelling_pair hspelled hsign rfl]
  exact (hright.passesBack_negation hspelledRight).splitLast?_eq_some (by decide) (by decide)
    (hleft.readsAs hspelledLeft).ne_nil (hright.readsAs hspelledRight).ne_nil

end Parts

/-- For a text that is read as a formula, the split of the compact text finds a conjunction exactly
if the formula is one, or a disjunction with a conjunction sign outside the parentheses of its core.
Of a conjunction it finds the cores of two pieces of the text around a sign of conjunction, which
are read as the conjuncts. -/
theorem conjunction_split_of_parse (text : String) (formula : Formula)
    (hparse : parse false text = .ok formula) :
    ((conjunctionParts? (compact text.toList)).isSome = true ↔
      formula.main? = some .conjunction ∨
      formula.main? = some .disjunction ∧ StandsOutside '^' (core text.toList)) ∧
    ∀ left right, formula = .conj left right → ∃ first second,
      IsSignBetween .conjunction "^" (respell text.toList) first second ∧
      parse false (String.ofList first) = .ok left ∧
      parse false (String.ofList second) = .ok right ∧
      conjunctionParts? (compact text.toList) = some (core first, core second) := by
  obtain ⟨tokens, hscan, hderives⟩ := exists_tokens_of_parse hparse
  have hspells : Spells 0 (respell text.toList) tokens := scanFrom_eq_ok_iff_spells.mp hscan
  obtain ⟨before, inner, after, rfl, hbefore, hafter, hstrip, hbare⟩ :=
    hderives.hasCore hspells.isSpelled
  have hspelled : ∀ token ∈ inner, token.IsSpelled := fun token htoken =>
    hspells.isSpelled token (by simp [htoken])
  have hbody : core text.toList = spelling inner := by
    rw [core, compact, hspells.removeBlanks_eq, hstrip]
  cases hbare with
  | equivalence hleft hsign hright =>
      simp [conjunctionParts?_of_equivalence hspelled hbody hleft hsign hright, main?, connectives]
  | implication hleft hsign hright =>
      simp [conjunctionParts?_of_implication hspelled hbody hleft hsign hright, main?, connectives]
  | unsplit hinner _ =>
      have hparts := conjunctionParts?_of_disjunction hspelled hbody hinner
      have hreads := hinner.readsAs hspelled
      have hoperand := hinner.isOperand
      cases hinner with
      | disjunction hleft hsign hright =>
          have hiff := isSome_splitLast?_iff (by decide) (by decide) hreads.isClear.isBalanced
            (hoperand.head?_ne hspelled) (hoperand.getLast?_ne hspelled)
          rw [hparts, Option.isSome_map, hiff, hbody]
          simp [main?, connectives]
      | ofConjunction hconjunction =>
          cases hconjunction with
          | ofNegation hnegation =>
              have hself : stripOuter (spelling inner) = spelling inner := by
                rw [← hbody, core, stripOuter_stripOuter]
              rw [hparts, (hnegation.passesBack_negation hspelled).splitLast?_eq_none]
              have hmain := hnegation.main?_of_negation hspelled hself
              constructor
              · rcases hmain with hmain | hmain <;> simp [hmain]
              · rintro left right rfl
                simp [main?, connectives] at hmain
          | conjunction hleft hsign hright =>
              obtain ⟨first, second, hbetween, ⟨_, hfirst⟩, _, hsecond⟩ :=
                exists_pieces_of_spells "^" hspells hbefore hafter hsign rfl
              rw [splitLast?_of_conjunction hspelled hleft hsign hright, Option.map_some,
                Prod.map_apply, ← core_of_spells hfirst, ← core_of_spells hsecond] at hparts
              refine ⟨by simp [hparts, main?, connectives], ?_⟩
              rintro _ _ ⟨⟩
              exact ⟨first, second, hbetween,
                parse_of_spells hfirst (.ofImplication (.ofDisjunction (.ofConjunction hleft))),
                parse_of_spells hsecond (.ofImplication (.ofDisjunction hright.ofNegations)),
                hparts⟩

theorem grouped_conjunction_is_split :
    parse false "( (P(x) ∨ A) ∧ B ^ !C )" =
      .ok (.conj (.conj (.disj (.atom "P(x)") (.atom "A")) (.atom "B")) (.neg (.atom "C"))) ∧
    (conjunctionParts? (compact "( (P(x) ∨ A) ∧ B ^ !C )".toList)).isSome = true ∧
    ∃ first second,
      IsSignBetween .conjunction "^" (respell "( (P(x) ∨ A) ∧ B ^ !C )".toList) first second ∧
      parse false (String.ofList first) =
        .ok (.conj (.disj (.atom "P(x)") (.atom "A")) (.atom "B")) ∧
      parse false (String.ofList second) = .ok (.neg (.atom "C")) ∧
      conjunctionParts? (compact "( (P(x) ∨ A) ∧ B ^ !C )".toList) =
        some (core first, core second) := by
  have hparse : parse false "( (P(x) ∨ A) ∧ B ^ !C )" =
      .ok (.conj (.conj (.disj (.atom "P(x)") (.atom "A")) (.atom "B")) (.neg (.atom "C"))) := by
    decide +kernel
  have hsplit := conjunction_split_of_parse _ _ hparse
  exact ⟨hparse, hsplit.1.mpr (Or.inl rfl), hsplit.2 _ _ rfl⟩

/-- The sign is found inside the left side of a disjunction. -/
theorem disjunction_is_split_within_conjunction :
    parse false "(A)^(B)v(C)" = .ok (.disj (.conj (.atom "A") (.atom "B")) (.atom "C")) ∧
    conjunctionParts? (compact "(A)^(B)v(C)".toList) = some ("A".toList, "(B)v(C)".toList) := by
  constructor
  · decide +kernel
  · decide +kernel

end Deduction.Formula
