import Deduction.Proofs.Check.Discharge
import Deduction.Proofs.Check.Totality

namespace Deduction

@[simp] theorem Finding.approximate_require {condition : Bool} {objection : Objection} :
    (Finding.require condition objection).approximate = false := by
  cases condition <;> rfl

@[simp] theorem Finding.approximate_object {objection : Objection} :
    (Finding.object objection).approximate = false := rfl

/-- One formula is the negation of the other, up to canonical form. -/
def Formula.Opposed (first second : Formula) : Prop :=
  first.agrees (.neg second) = true ∨ second.agrees (.neg first) = true

theorem Formula.agrees_neg_of_negates {first second : Formula}
    (hnegates : first.negates second = true) : first.agrees (.neg second) = true := by
  cases first with
  | neg operand =>
      have hcanonical : operand.canonical = second.canonical := beq_iff_eq.mp hnegates
      rw [agrees, beq_iff_eq, canonical_neg, canonical_neg, hcanonical]
  | _ => contradiction

theorem Formula.opposed_of_contradicts {first second : Formula}
    (hcontradicts : first.contradicts second = true) : first.Opposed second := by
  rw [contradicts, Bool.or_eq_true] at hcontradicts
  exact hcontradicts.imp agrees_neg_of_negates agrees_neg_of_negates

/-- Among formulas there is a contradiction: a conjunction of a formula and its negation, or two
formulas of which one is the negation of the other. -/
def Formula.HasContradiction (formulas : Formula → Prop) : Prop :=
  (∃ left right, formulas (.conj left right) ∧ left.Opposed right) ∨
    ∃ first second, formulas first ∧ formulas second ∧ first.Opposed second

theorem Formula.HasContradiction.mono {formulas formulas' : Formula → Prop}
    (hcontradiction : HasContradiction formulas)
    (hformulas : ∀ formula, formulas formula → formulas' formula) :
    HasContradiction formulas' := by
  rcases hcontradiction with
    ⟨left, right, hconj, hopposed⟩ | ⟨first, second, hfirst, hsecond, hopposed⟩
  · exact Or.inl ⟨left, right, hformulas _ hconj, hopposed⟩
  · exact Or.inr ⟨first, second, hformulas _ hfirst, hformulas _ hsecond, hopposed⟩

namespace Context

variable {context : Context}

/-- The line under check or one of its citations spells no formula. -/
def HasUnparsed (context : Context) : Prop :=
  context.formula = none ∨ ∃ cited ∈ context.citations, cited.formula = none

theorem hasUnparsed_iff_of_one {cited : Citation} (hcitations : context.citations = [cited]) :
    context.HasUnparsed ↔ context.formula = none ∨ cited.formula = none := by
  simp [HasUnparsed, hcitations]

theorem hasUnparsed_iff_of_two {first second : Citation}
    (hcitations : context.citations = [first, second]) :
    context.HasUnparsed ↔
      context.formula = none ∨ first.formula = none ∨ second.formula = none := by
  simp [HasUnparsed, hcitations]

theorem hasUnparsed_of_one {cited : Citation} (hcitations : context.citations = [cited])
    (hnone : ∀ conclusion formula, context.formula = some conclusion →
      cited.formula = some formula → False) : context.HasUnparsed := by
  rw [hasUnparsed_iff_of_one hcitations]
  cases hconclusion : context.formula with
  | none => exact Or.inl rfl
  | some conclusion =>
      cases hformula : cited.formula with
      | none => exact Or.inr rfl
      | some formula => exact (hnone conclusion formula hconclusion hformula).elim

theorem hasUnparsed_of_two {first second : Citation}
    (hcitations : context.citations = [first, second])
    (hnone : ∀ conclusion a b, context.formula = some conclusion → first.formula = some a →
      second.formula = some b → False) : context.HasUnparsed := by
  rw [hasUnparsed_iff_of_two hcitations]
  cases hconclusion : context.formula with
  | none => exact Or.inl rfl
  | some conclusion =>
      cases ha : first.formula with
      | none => exact Or.inr (Or.inl rfl)
      | some a =>
          cases hb : second.formula with
          | none => exact Or.inr (Or.inr rfl)
          | some b => exact (hnone conclusion a b hconclusion ha hb).elim

theorem not_hasUnparsed {conclusion : Formula} (hconclusion : context.formula = some conclusion)
    (hcited : ∀ cited ∈ context.citations, cited.formula ≠ none) : ¬ context.HasUnparsed := by
  rintro (hnone | ⟨cited, hmem, hnone⟩)
  · rw [hconclusion] at hnone
    contradiction
  · exact hcited cited hmem hnone

end Context

namespace Check

variable {context : Context} {finding : Finding}

/-- A check that passes a line marks it exactly when a formula is missing. -/
def MarksUnparsed (check : Check) : Prop :=
  ∀ context finding, check context = some finding → finding.objections = [] →
    (finding.approximate = true ↔ context.HasUnparsed)

theorem marks_of_require {condition : Bool} {objection : Objection}
    (hfinding : some (Finding.require condition objection) = some finding)
    (hparsed : ¬ context.HasUnparsed) : finding.approximate = true ↔ context.HasUnparsed := by
  obtain rfl := Option.some.inj hfinding
  rw [Finding.approximate_require]
  exact iff_of_false Bool.false_ne_true hparsed

theorem marks_of_textual {compared : Finding}
    (hfinding : some compared.textual = some finding) (hunparsed : context.HasUnparsed) :
    finding.approximate = true ↔ context.HasUnparsed := by
  obtain rfl := Option.some.inj hfinding
  exact iff_of_true rfl hunparsed

theorem exists_of_whenParsed {judge : Formula → List Formula → Option Finding}
    (hfinding : context.whenParsed judge = some finding) (hclean : finding.objections = []) :
    ¬ context.HasUnparsed ∧ ∃ conclusion cited, judge conclusion cited = some finding := by
  unfold Context.whenParsed at hfinding
  split at hfinding
  · rename_i conclusion cited hconclusion hcited
    refine ⟨Context.not_hasUnparsed hconclusion ?_, conclusion, cited, hfinding⟩
    intro citation hmem hnone
    have hmapped : citation.formula ∈ cited.map some :=
      mapM_eq_some_iff.mp hcited ▸ List.mem_map_of_mem hmem
    rw [hnone] at hmapped
    simp at hmapped
  · exact (Finding.not_pass_object hfinding hclean).elim

/-- What was found, if anything, was not found by comparing texts. -/
def IsExact (outcome : Option Finding) : Prop :=
  ∀ finding, outcome = some finding → finding.approximate = false

@[simp] theorem isExact_none : IsExact none := by
  intro finding hfinding
  contradiction

@[simp] theorem isExact_some : IsExact (some finding) ↔ finding.approximate = false := by
  constructor
  · intro hexact
    exact hexact finding rfl
  · intro happroximate found hfound
    exact Option.some.inj hfound ▸ happroximate

theorem marksUnparsed_whenParsed {judge : Context → Formula → List Formula → Option Finding}
    (hjudge : ∀ context conclusion cited, IsExact (judge context conclusion cited)) :
    MarksUnparsed fun context => context.whenParsed (judge context) := by
  intro context finding hfinding hclean
  obtain ⟨hparsed, conclusion, cited, hjudged⟩ := exists_of_whenParsed hfinding hclean
  rw [hjudge context conclusion cited finding hjudged]
  exact iff_of_false Bool.false_ne_true hparsed

theorem marksUnparsed_reiteration : MarksUnparsed reiteration := by
  intro context finding hfinding _
  unfold reiteration at hfinding
  split at hfinding
  · rename_i cited hcitations
    split at hfinding
    · rename_i conclusion formula hconclusion hformula
      exact marks_of_require hfinding
        (Context.not_hasUnparsed hconclusion (by simp [hcitations, hformula]))
    · rename_i hnone
      exact marks_of_textual hfinding (Context.hasUnparsed_of_one hcitations hnone)
  · contradiction

theorem marksUnparsed_conjunctionIntro : MarksUnparsed conjunctionIntro := by
  intro context finding hfinding hclean
  unfold conjunctionIntro at hfinding
  split at hfinding
  · rename_i first second hcitations
    dsimp only at hfinding
    split at hfinding
    · rename_i left right a b hconclusion ha hb
      exact marks_of_require hfinding
        (Context.not_hasUnparsed hconclusion (by simp [hcitations, ha, hb]))
    · exact (Finding.not_pass_object hfinding hclean).elim
    · rename_i hnone
      have hunparsed := Context.hasUnparsed_of_two hcitations hnone
      split at hfinding
      · exact marks_of_textual hfinding hunparsed
      · split at hfinding
        · exact marks_of_textual hfinding hunparsed
        · obtain rfl := Option.some.inj hfinding
          exact iff_of_true rfl hunparsed
  · contradiction

theorem marksUnparsed_conjunctionElim : MarksUnparsed conjunctionElim := by
  intro context finding hfinding hclean
  unfold conjunctionElim at hfinding
  split at hfinding
  · rename_i cited hcitations
    split at hfinding
    · rename_i conclusion left right hconclusion hformula
      exact marks_of_require hfinding
        (Context.not_hasUnparsed hconclusion (by simp [hcitations, hformula]))
    · exact (Finding.not_pass_object hfinding hclean).elim
    · rename_i hnone
      have hunparsed := Context.hasUnparsed_of_one hcitations hnone
      split at hfinding <;> exact marks_of_textual hfinding hunparsed
  · contradiction

theorem marksUnparsed_conditionalElim : MarksUnparsed conditionalElim := by
  intro context finding hfinding _
  unfold conditionalElim at hfinding
  split at hfinding
  · rename_i first second hcitations
    split at hfinding
    · rename_i conclusion a b hconclusion ha hb
      exact marks_of_require hfinding
        (Context.not_hasUnparsed hconclusion (by simp [hcitations, ha, hb]))
    · rename_i hnone
      exact marks_of_textual hfinding (Context.hasUnparsed_of_two hcitations hnone)
  · contradiction

theorem formula_of_conditionalSides? {antecedent consequent : Sentence}
    (hsides : conditionalSides? context = some (antecedent, consequent)) :
    antecedent.formula.isSome = context.formula.isSome ∧
      consequent.formula.isSome = context.formula.isSome := by
  unfold conditionalSides? at hsides
  split at hsides
  · rename_i left right hformula
    obtain ⟨rfl, rfl⟩ := Prod.mk.inj (Option.some.inj hsides)
    rw [hformula]
    exact ⟨rfl, rfl⟩
  · contradiction
  · rename_i hformula
    obtain ⟨parts, _, hparts⟩ := Option.map_eq_some_iff.mp hsides
    obtain ⟨rfl, rfl⟩ := Prod.mk.inj hparts
    rw [hformula]
    exact ⟨rfl, rfl⟩

theorem marksUnparsed_conditionalIntro : MarksUnparsed conditionalIntro := by
  intro context finding hfinding hclean
  unfold conditionalIntro at hfinding
  split at hfinding
  · rename_i assumed derived hcitations
    split at hfinding
    · exact (Finding.not_pass_object hfinding hclean).elim
    · rename_i antecedent consequent hsides
      obtain ⟨hantecedent, hconsequent⟩ := formula_of_conditionalSides? hsides
      split at hfinding
      · exact (Finding.not_pass_object hfinding hclean).elim
      · obtain rfl := Option.some.inj hfinding
        rw [Context.hasUnparsed_iff_of_two hcitations]
        simp only [Sentence.isTextual, hantecedent, hconsequent]
        cases context.formula <;> cases assumed.formula <;> cases derived.formula <;> simp
  · contradiction

/-- The mark on a line that passes tells whether a formula is missing, by all rules but those that
never set it, always set it, or compare texts of lines that are not cited. -/
theorem marksUnparsed_standard {rule : Rule} (hquantifier : rule ∉ Ruleset.quantificational)
    (hother : rule ∉ [.premise, .assumption, .explosion, .negationIntro, .indirectProof]) :
    MarksUnparsed (standard rule) := by
  cases rule with
  | reiteration => exact marksUnparsed_reiteration
  | conjunctionIntro => exact marksUnparsed_conjunctionIntro
  | conjunctionElim => exact marksUnparsed_conjunctionElim
  | conditionalElim => exact marksUnparsed_conditionalElim
  | conditionalIntro => exact marksUnparsed_conditionalIntro
  | modusTollens =>
      apply marksUnparsed_whenParsed
      intro _ _ _
      split <;> simp
  | biconditionalIntro =>
      apply marksUnparsed_whenParsed
      intro _ _ _
      split
      · split <;> simp
      · simp
  | biconditionalElim =>
      apply marksUnparsed_whenParsed
      intro _ _ _
      split <;> simp
  | disjunctionIntro =>
      apply marksUnparsed_whenParsed
      intro _ _ _
      split
      · split <;> simp
      · simp
  | disjunctionElim =>
      apply marksUnparsed_whenParsed
      intro _ _ _
      split <;> simp
  | doubleNegationIntro =>
      apply marksUnparsed_whenParsed
      intro _ _ _
      split
      · split <;> simp
      · simp
  | doubleNegationElim =>
      apply marksUnparsed_whenParsed
      intro _ _ _
      split <;> simp
  | deMorgan =>
      apply marksUnparsed_whenParsed
      intro _ _ _
      split <;> simp
  | excludedMiddle =>
      apply marksUnparsed_whenParsed
      intro _ _ _
      split <;> simp
  | disjunctiveSyllogism =>
      apply marksUnparsed_whenParsed
      intro _ _ _
      split <;> simp
  | premise => exact absurd (by decide) hother
  | assumption => exact absurd (by decide) hother
  | explosion => exact absurd (by decide) hother
  | negationIntro => exact absurd (by decide) hother
  | indirectProof => exact absurd (by decide) hother
  | universalIntro => exact absurd (by decide) hquantifier
  | universalElim => exact absurd (by decide) hquantifier
  | existentialIntro => exact absurd (by decide) hquantifier
  | existentialElim => exact absurd (by decide) hquantifier
  | quantifierConversion => exact absurd (by decide) hquantifier

theorem formula_of_explosion (hfinding : standard .explosion context = some finding)
    (hclean : finding.objections = []) :
    finding.approximate = false ∧ ∀ cited ∈ context.citations, cited.formula ≠ none := by
  change explosion context = some finding at hfinding
  unfold explosion at hfinding
  split at hfinding
  · rename_i cited hcitations
    split at hfinding
    · rename_i formula hformula
      obtain rfl := Option.some.inj hfinding
      exact ⟨Finding.approximate_require, by simp [hcitations, hformula]⟩
    · exact (Finding.not_pass_object hfinding hclean).elim
  · contradiction

/-- Premises and assumptions have nothing to compare, and Explosion compares the cited formula. -/
theorem approximate_of_exact {rule : Rule} (hrule : rule ∈ [.premise, .assumption, .explosion])
    (hfinding : standard rule context = some finding) (hclean : finding.objections = []) :
    finding.approximate = false := by
  cases rule with
  | premise => exact Option.some.inj hfinding ▸ rfl
  | assumption => exact Option.some.inj hfinding ▸ rfl
  | explosion => exact (formula_of_explosion hfinding hclean).1
  | _ => exact absurd hrule (by decide)

theorem exists_of_compare {first second : Citation}
    (hcompare : contradiction?.compare first second = some false) :
    ∃ a b, first.formula = some a ∧ second.formula = some b ∧ a.Opposed b := by
  unfold contradiction?.compare at hcompare
  split at hcompare
  · rename_i a b ha hb
    split at hcompare
    · rename_i hcontradicts
      exact ⟨a, b, ha, hb, Formula.opposed_of_contradicts hcontradicts⟩
    · contradiction
  · split at hcompare <;> contradiction

theorem exists_of_search {citations : List Citation}
    (hsearch : contradiction?.search citations = some false) :
    ∃ first ∈ citations, ∃ second ∈ citations,
      contradiction?.compare first second = some false := by
  induction citations with
  | nil => contradiction
  | cons first rest ih =>
      rw [contradiction?.search] at hsearch
      split at hsearch
      · rename_i textual hfound
        obtain rfl := Option.some.inj hsearch
        obtain ⟨second, hsecond, hcompare⟩ := List.exists_of_findSome?_eq_some hfound
        exact ⟨first, List.mem_cons_self, second, List.mem_cons_of_mem first hsecond, hcompare⟩
      · obtain ⟨first', hfirst, second, hsecond, hcompare⟩ := ih hsearch
        exact ⟨first', List.mem_cons_of_mem _ hfirst, second, List.mem_cons_of_mem _ hsecond,
          hcompare⟩

theorem hasContradiction_of_contradiction? {citations : List Citation}
    (hfound : contradiction? citations = some false) :
    Formula.HasContradiction fun formula => ∃ cited ∈ citations, cited.formula = some formula := by
  unfold contradiction? at hfound
  split at hfound
  · rename_i hany
    obtain ⟨cited, hcited, hcontradiction⟩ := List.any_eq_true.mp hany
    cases hformula : cited.formula with
    | none =>
        rw [hformula] at hcontradiction
        contradiction
    | some formula =>
        rw [hformula] at hcontradiction
        cases formula with
        | conj left right =>
            exact Or.inl ⟨left, right, ⟨cited, hcited, hformula⟩,
              Formula.opposed_of_contradicts hcontradiction⟩
        | _ => contradiction
  · obtain ⟨first, hfirst, second, hsecond, hcompare⟩ := exists_of_search hfound
    obtain ⟨a, b, ha, hb, hopposed⟩ := exists_of_compare hcompare
    exact Or.inr ⟨a, b, ⟨first, hfirst, ha⟩, ⟨second, hsecond, hb⟩, hopposed⟩

theorem exists_of_exact_discharge {candidates : List Frame} {textual : Bool} {missing : Objection}
    (hclean : (dischargeByContradiction context candidates textual missing).objections = [])
    (hexact : (dischargeByContradiction context candidates textual missing).approximate = false) :
    textual = false ∧
      ∃ frame ∈ candidates, contradiction? (context.citationsIn frame) = some false := by
  unfold dischargeByContradiction at hclean hexact
  split at hclean
  · contradiction
  · dsimp only at hclean hexact
    split at hclean
    · rename_i frame byText hfound
      rw [hfound] at hexact
      obtain ⟨htextual, rfl⟩ := Bool.or_eq_false_iff.mp hexact
      obtain ⟨candidate, hcandidate, hcontradiction⟩ := List.exists_of_findSome?_eq_some hfound
      obtain ⟨_, hcontradiction, heq⟩ := Option.map_eq_some_iff.mp hcontradiction
      obtain ⟨rfl, rfl⟩ := Prod.mk.inj heq
      exact ⟨htextual, candidate, hcandidate, hcontradiction⟩
    · contradiction

/-- The line closes a subproof that opens with a formula and holds a contradiction among the
formulas cited at its level. -/
def ClosesByFormulas (context : Context) (assumes : Formula → Prop) : Prop :=
  ∃ frame ∈ context.dischargeable, ∃ assumption,
    context.formulas[frame.start]? = some (some assumption) ∧ assumes assumption ∧
      Formula.HasContradiction fun formula =>
        ∃ cited ∈ context.citationsIn frame, cited.formula = some formula

theorem formula_of_isTextual_eq_false {first second : Sentence}
    (htextual : first.isTextual second = false) :
    ∃ a b, first.formula = some a ∧ second.formula = some b := by
  rw [Sentence.isTextual, Bool.not_eq_false', Bool.and_eq_true] at htextual
  obtain ⟨a, ha⟩ := Option.isSome_iff_exists.mp htextual.1
  obtain ⟨b, hb⟩ := Option.isSome_iff_exists.mp htextual.2
  exact ⟨a, b, ha, hb⟩

theorem formula_of_negationTarget? {target : Sentence} {operand : Formula}
    (htarget : negationTarget? context = some target) (hformula : target.formula = some operand) :
    context.formula = some (.neg operand) := by
  unfold negationTarget? at htarget
  split at htarget
  · rename_i negated hnegated
    obtain rfl := Option.some.inj htarget
    obtain rfl := Option.some.inj hformula
    exact hnegated
  · contradiction
  · obtain ⟨text, _, rfl⟩ := Option.map_eq_some_iff.mp htarget
    contradiction

theorem closesByFormulas_negationIntro (hfinding : standard .negationIntro context = some finding)
    (hclean : finding.objections = []) (hexact : finding.approximate = false) :
    ∃ operand, context.formula = some (.neg operand) ∧
      ClosesByFormulas context fun assumption => assumption.agrees operand = true := by
  change negationIntro context = some finding at hfinding
  unfold negationIntro at hfinding
  split at hfinding
  · exact (Finding.not_pass_object hfinding hclean).elim
  · rename_i target htarget
    split at hfinding
    · contradiction
    · rename_i assumed hassumed
      obtain rfl := Option.some.inj hfinding
      obtain ⟨htextual, frame, hframe, hcontradiction⟩ := exists_of_exact_discharge hclean hexact
      obtain ⟨entry, hentry, rfl⟩ := List.mem_map.mp hframe
      obtain ⟨hmem, hagrees⟩ := List.mem_filter.mp hentry
      obtain ⟨hdischargeable, hat⟩ := mem_assumptions? hassumed hmem
      -- No candidate was compared by its text, so this one and the line have formulas.
      obtain ⟨assumption, operand, hassumption, hoperand⟩ :=
        formula_of_isTextual_eq_false
          (Bool.eq_false_iff.mpr (List.any_eq_false.mp htextual entry hmem))
      rw [Sentence.agrees, hassumption, hoperand] at hagrees
      exact ⟨operand, formula_of_negationTarget? htarget hoperand, entry.1, hdischargeable,
        assumption, hassumption ▸ hat, hagrees, hasContradiction_of_contradiction? hcontradiction⟩

theorem formula_of_assumesDenial {conclusion assumption : Sentence}
    (hdenial : (assumesDenial conclusion assumption).1 = true)
    (htextual : (assumesDenial conclusion assumption).2 = false) :
    ∃ denial formula, assumption.formula = some denial ∧ conclusion.formula = some formula ∧
      denial.agrees (.neg formula) = true := by
  have hresult : assumesDenial conclusion assumption = (true, false) := Prod.ext hdenial htextual
  unfold assumesDenial at hresult
  split at hresult
  · rename_i operand formula hassumption hconclusion
    exact ⟨.neg operand, formula, hassumption, hconclusion,
      Formula.agrees_neg_of_negates (Prod.mk.inj hresult).1⟩
  · exact absurd (Prod.mk.inj hresult).1 Bool.false_ne_true
  · split at hresult
    · exact absurd (Prod.mk.inj hresult).2.symm Bool.false_ne_true
    · exact absurd (Prod.mk.inj hresult).1 Bool.false_ne_true

theorem closesByFormulas_indirectProof (hfinding : standard .indirectProof context = some finding)
    (hclean : finding.objections = []) (hexact : finding.approximate = false) :
    ∃ conclusion, context.formula = some conclusion ∧
      ClosesByFormulas context fun assumption => assumption.agrees (.neg conclusion) = true := by
  change indirectProof context = some finding at hfinding
  unfold indirectProof at hfinding
  split at hfinding
  · contradiction
  · rename_i assumed hassumed
    obtain rfl := Option.some.inj hfinding
    obtain ⟨htextual, frame, hframe, hcontradiction⟩ := exists_of_exact_discharge hclean hexact
    obtain ⟨entry, hentry, rfl⟩ := List.mem_map.mp hframe
    obtain ⟨hmem, hdenial⟩ := List.mem_filter.mp hentry
    obtain ⟨hdischargeable, hat⟩ := mem_assumptions? hassumed hmem
    obtain ⟨assumption, conclusion, hassumption, hconclusion, hagrees⟩ :=
      formula_of_assumesDenial hdenial
        (Bool.eq_false_iff.mpr (List.any_eq_false.mp htextual entry hmem))
    exact ⟨conclusion, hconclusion, entry.1, hdischargeable, assumption, hassumption ▸ hat, hagrees,
      hasContradiction_of_contradiction? hcontradiction⟩

end Check

end Deduction
