import Deduction.Check.Propositional
import Deduction.Proofs.Formula.Rearrangement

namespace Deduction

def Formula.Holds (valuation : String → Bool) (formula : Option Formula) : Prop :=
  ∃ parsed, formula = some parsed ∧ parsed.eval valuation = true

theorem Finding.objections_require {condition : Bool} {objection : Objection} :
    (Finding.require condition objection).objections = [] ↔ condition = true := by
  cases condition <;> simp [Finding.require, Finding.clean, Finding.object]

theorem Finding.not_pass_object {objection : Objection} {finding : Finding}
    (hfinding : some (Finding.object objection) = some finding)
    (hclean : finding.objections = []) : False := by
  obtain rfl := Option.some.inj hfinding
  contradiction

namespace Check

open Formula

variable {valuation : String → Bool}

/-- A check passes a conclusion only if it is true whenever all cited lines are. -/
def IsTruthPreserving (check : Check) : Prop :=
  ∀ (valuation : String → Bool) (context : Context) (finding : Finding) (conclusion : Formula),
    check context = some finding → finding.objections = [] →
      context.formula = some conclusion →
      (∀ cited ∈ context.citations, Holds valuation cited.formula) →
        conclusion.eval valuation = true

/-- A judgement by formulas passes a conclusion only if it is true whenever all cited formulas
are. -/
def JudgesSoundly (judge : Formula → List Formula → Option Finding) : Prop :=
  ∀ (valuation : String → Bool) (conclusion : Formula) (cited : List Formula) (finding : Finding),
    judge conclusion cited = some finding → finding.objections = [] →
      (∀ formula ∈ cited, formula.eval valuation = true) → conclusion.eval valuation = true

theorem mapM_formula_of_holds {citations : List Citation}
    (hcited : ∀ cited ∈ citations, Holds valuation cited.formula) :
    ∃ formulas, citations.mapM (·.formula) = some formulas ∧
      ∀ formula ∈ formulas, formula.eval valuation = true := by
  induction citations with
  | nil => exact ⟨[], rfl, by simp⟩
  | cons cited rest ih =>
      obtain ⟨formula, hformula, htrue⟩ := hcited cited List.mem_cons_self
      obtain ⟨formulas, hformulas, hall⟩ :=
        ih fun other hother => hcited other (List.mem_cons_of_mem cited hother)
      refine ⟨formula :: formulas, ?_, ?_⟩
      · simp [List.mapM_cons, hformula, hformulas]
      · simpa using ⟨htrue, hall⟩

theorem JudgesSoundly.whenParsed {judge : Formula → List Formula → Option Finding}
    (hjudge : JudgesSoundly judge) :
    IsTruthPreserving fun context => context.whenParsed judge := by
  intro valuation context finding conclusion hfinding hclean hconclusion hcited
  obtain ⟨formulas, hformulas, hall⟩ := mapM_formula_of_holds hcited
  simp only [Context.whenParsed, hconclusion, hformulas] at hfinding
  exact hjudge valuation conclusion formulas finding hfinding hclean hall

theorem eval_of_either_order {test : Formula → Formula → Bool} {conclusion first second : Formula}
    {objection : Objection}
    (htest : ∀ a b, test a b = true → a.eval valuation = true → b.eval valuation = true →
      conclusion.eval valuation = true)
    (hclean : (Finding.require (test first second || test second first) objection).objections = [])
    (hfirst : first.eval valuation = true) (hsecond : second.eval valuation = true) :
    conclusion.eval valuation = true := by
  rw [Finding.objections_require, Bool.or_eq_true] at hclean
  rcases hclean with hpass | hpass
  · exact htest first second hpass hfirst hsecond
  · exact htest second first hpass hsecond hfirst

theorem isTruthPreserving_reiteration : IsTruthPreserving reiteration := by
  intro valuation context finding conclusion hfinding hclean hconclusion hcited
  unfold reiteration at hfinding
  split at hfinding
  · rename_i cited hcitations
    obtain ⟨formula, hformula, htrue⟩ := hcited cited (by simp [hcitations])
    simp only [hconclusion, hformula, Option.some.injEq] at hfinding
    subst hfinding
    rw [Finding.objections_require, beq_iff_eq] at hclean
    rw [hclean]
    exact htrue
  · contradiction

theorem isTruthPreserving_conjunctionIntro : IsTruthPreserving conjunctionIntro := by
  intro valuation context finding conclusion hfinding hclean hconclusion hcited
  unfold conjunctionIntro at hfinding
  split at hfinding
  · rename_i first second hcitations
    obtain ⟨a, ha, hfirst⟩ := hcited first (by simp [hcitations])
    obtain ⟨b, hb, hsecond⟩ := hcited second (by simp [hcitations])
    cases conclusion with
    | conj left right =>
        simp only [hconclusion, ha, hb, Option.some.injEq] at hfinding
        subst hfinding
        simp only [Finding.objections_require, Bool.or_eq_true, Bool.and_eq_true] at hclean
        rw [eval, Bool.and_eq_true]
        rcases hclean with ⟨hleft, hright⟩ | ⟨_, hleft, hright⟩
        · rw [eval_eq_of_agrees hleft, eval_eq_of_agrees hright]
          exact ⟨hfirst, hsecond⟩
        · rw [eval_eq_of_agrees hleft, eval_eq_of_agrees hright]
          exact ⟨hsecond, hfirst⟩
    | _ =>
        simp only [hconclusion, ha, hb] at hfinding
        exact (Finding.not_pass_object hfinding hclean).elim
  · contradiction

theorem isTruthPreserving_conjunctionElim : IsTruthPreserving conjunctionElim := by
  intro valuation context finding conclusion hfinding hclean hconclusion hcited
  unfold conjunctionElim at hfinding
  split at hfinding
  · rename_i cited hcitations
    obtain ⟨formula, hformula, htrue⟩ := hcited cited (by simp [hcitations])
    cases formula with
    | conj left right =>
        simp only [hconclusion, hformula, Option.some.injEq] at hfinding
        subst hfinding
        rw [Finding.objections_require, Bool.or_eq_true] at hclean
        rw [eval, Bool.and_eq_true] at htrue
        rcases hclean with hside | hside
        · rw [eval_eq_of_agrees hside]
          exact htrue.1
        · rw [eval_eq_of_agrees hside]
          exact htrue.2
    | _ =>
        simp only [hconclusion, hformula] at hfinding
        exact (Finding.not_pass_object hfinding hclean).elim
  · contradiction

theorem eval_of_detaches {conclusion premise conditional : Formula}
    (hdetaches : detaches conclusion premise conditional = true)
    (hpremise : premise.eval valuation = true)
    (hconditional : conditional.eval valuation = true) : conclusion.eval valuation = true := by
  cases conditional with
  | imp left right =>
      rw [detaches, Bool.and_eq_true] at hdetaches
      rw [eval, eval_eq_of_agrees hdetaches.1, hpremise] at hconditional
      rw [eval_eq_of_agrees hdetaches.2]
      exact hconditional
  | _ => contradiction

theorem isTruthPreserving_conditionalElim : IsTruthPreserving conditionalElim := by
  intro valuation context finding conclusion hfinding hclean hconclusion hcited
  unfold conditionalElim at hfinding
  split at hfinding
  · rename_i first second hcitations
    obtain ⟨a, ha, hfirst⟩ := hcited first (by simp [hcitations])
    obtain ⟨b, hb, hsecond⟩ := hcited second (by simp [hcitations])
    simp only [hconclusion, ha, hb, Option.some.injEq] at hfinding
    subst hfinding
    exact eval_of_either_order (fun _ _ => eval_of_detaches) hclean hfirst hsecond
  · contradiction

theorem eval_of_deniesAntecedent {conclusion conditional denial : Formula}
    (hdenies : deniesAntecedent conclusion conditional denial = true)
    (hconditional : conditional.eval valuation = true) (hdenial : denial.eval valuation = true) :
    conclusion.eval valuation = true := by
  unfold deniesAntecedent at hdenies
  split at hdenies
  · rename_i concluded left right denied
    rw [Bool.and_eq_true] at hdenies
    simp only [eval, Bool.not_eq_true', Bool.or_eq_true] at hconditional hdenial ⊢
    rw [eval_eq_of_agrees hdenies.2]
    rw [eval_eq_of_agrees hdenies.1] at hdenial
    rcases hconditional with hleft | hright
    · exact hleft
    · exact absurd hright (by simp [hdenial])
  · contradiction

theorem isTruthPreserving_modusTollens : IsTruthPreserving modusTollens := by
  apply JudgesSoundly.whenParsed
  intro valuation conclusion cited finding hfinding hclean hcited
  beta_reduce at hfinding
  split at hfinding
  · rename_i first second
    obtain rfl := Option.some.inj hfinding
    exact eval_of_either_order (fun _ _ => eval_of_deniesAntecedent) hclean
      (hcited first (by simp)) (hcited second (by simp))
  · contradiction

theorem eval_eq_of_areDirections {left right first second : Formula}
    (hdirections : areDirections left right first second = true)
    (hfirst : first.eval valuation = true) (hsecond : second.eval valuation = true) :
    left.eval valuation = right.eval valuation := by
  unfold areDirections at hdirections
  split at hdirections
  · rename_i a b c d
    simp only [Bool.and_eq_true] at hdirections
    obtain ⟨⟨⟨ha, hb⟩, hc⟩, hd⟩ := hdirections
    rw [eval, eval_eq_of_agrees ha, eval_eq_of_agrees hb] at hfirst
    rw [eval, eval_eq_of_agrees hc, eval_eq_of_agrees hd] at hsecond
    cases hleft : left.eval valuation <;> cases hright : right.eval valuation <;>
      simp_all
  · contradiction

theorem isTruthPreserving_biconditionalIntro : IsTruthPreserving biconditionalIntro := by
  apply JudgesSoundly.whenParsed
  intro valuation conclusion cited finding hfinding hclean hcited
  beta_reduce at hfinding
  split at hfinding
  · rename_i first second
    have hfirst := hcited first (by simp)
    have hsecond := hcited second (by simp)
    split at hfinding
    · obtain rfl := Option.some.inj hfinding
      rw [Finding.objections_require, Bool.or_eq_true] at hclean
      rw [eval, beq_iff_eq]
      rcases hclean with hdirections | hdirections
      · exact eval_eq_of_areDirections hdirections hfirst hsecond
      · exact (eval_eq_of_areDirections hdirections hfirst hsecond).symm
    · exact (Finding.not_pass_object hfinding hclean).elim
  · contradiction

theorem eval_of_otherSide? {side biconditional other : Formula}
    (hother : otherSide? side biconditional = some other)
    (hside : side.eval valuation = true)
    (hbiconditional : biconditional.eval valuation = true) : other.eval valuation = true := by
  unfold otherSide? at hother
  split at hother
  · rename_i left right
    rw [eval, beq_iff_eq] at hbiconditional
    split at hother
    · rename_i hleft
      obtain rfl := Option.some.inj hother
      rw [← hbiconditional, ← eval_eq_of_agrees hleft]
      exact hside
    · split at hother
      · rename_i hright
        obtain rfl := Option.some.inj hother
        rw [hbiconditional, ← eval_eq_of_agrees hright]
        exact hside
      · contradiction
  · contradiction

theorem isTruthPreserving_biconditionalElim : IsTruthPreserving biconditionalElim := by
  apply JudgesSoundly.whenParsed
  intro valuation conclusion cited finding hfinding hclean hcited
  dsimp only at hfinding
  split at hfinding
  · rename_i first second
    obtain rfl := Option.some.inj hfinding
    have hfirst := hcited first (by simp)
    have hsecond := hcited second (by simp)
    rw [Finding.objections_require, Bool.or_eq_true] at hclean
    rcases hclean with hconcludes | hconcludes
    · split at hconcludes
      · rename_i other hother
        rw [eval_eq_of_agrees hconcludes]
        exact eval_of_otherSide? hother hsecond hfirst
      · contradiction
    · split at hconcludes
      · rename_i other hother
        rw [eval_eq_of_agrees hconcludes]
        exact eval_of_otherSide? hother hfirst hsecond
      · contradiction
  · contradiction

theorem isTruthPreserving_disjunctionIntro : IsTruthPreserving disjunctionIntro := by
  apply JudgesSoundly.whenParsed
  intro valuation conclusion cited finding hfinding hclean hcited
  beta_reduce at hfinding
  split at hfinding
  · rename_i formula
    have htrue := hcited formula (by simp)
    split at hfinding
    · obtain rfl := Option.some.inj hfinding
      rw [Finding.objections_require, Bool.or_eq_true] at hclean
      rw [eval, Bool.or_eq_true]
      rcases hclean with hside | hside
      · exact Or.inl (eval_eq_of_agrees hside valuation ▸ htrue)
      · exact Or.inr (eval_eq_of_agrees hside valuation ▸ htrue)
    · exact (Finding.not_pass_object hfinding hclean).elim
  · contradiction

theorem isTruthPreserving_doubleNegationIntro : IsTruthPreserving doubleNegationIntro := by
  apply JudgesSoundly.whenParsed
  intro valuation conclusion cited finding hfinding hclean hcited
  beta_reduce at hfinding
  split at hfinding
  · rename_i formula
    split at hfinding
    · obtain rfl := Option.some.inj hfinding
      rw [Finding.objections_require] at hclean
      rw [eval, eval, Bool.not_not, eval_eq_of_agrees hclean]
      exact hcited formula (by simp)
    · exact (Finding.not_pass_object hfinding hclean).elim
  · contradiction

theorem isTruthPreserving_doubleNegationElim : IsTruthPreserving doubleNegationElim := by
  apply JudgesSoundly.whenParsed
  intro valuation conclusion cited finding hfinding hclean hcited
  beta_reduce at hfinding
  split at hfinding
  · rename_i operand
    obtain rfl := Option.some.inj hfinding
    rw [Finding.objections_require] at hclean
    have htrue := hcited (.neg (.neg operand)) (by simp)
    rw [eval, eval, Bool.not_not, eval_eq_of_agrees hclean] at htrue
    exact htrue
  · exact (Finding.not_pass_object hfinding hclean).elim
  · contradiction

theorem eval_of_deMorganDual? {source dual : Formula} (hdual : deMorganDual? source = some dual) :
    dual.eval valuation = source.eval valuation := by
  unfold deMorganDual? at hdual
  split at hdual
  · obtain rfl := Option.some.inj hdual
    simp [eval]
  · obtain rfl := Option.some.inj hdual
    simp [eval]
  · obtain rfl := Option.some.inj hdual
    simp [eval]
  · obtain rfl := Option.some.inj hdual
    simp [eval]
  · contradiction

theorem eval_eq_of_isDeMorganDual {source target : Formula}
    (hdual : isDeMorganDual source target = true) :
    target.eval valuation = source.eval valuation := by
  unfold isDeMorganDual at hdual
  split at hdual
  · rename_i dual hsource
    rw [← eval_eq_of_agrees hdual]
    exact eval_of_deMorganDual? hsource
  · contradiction

theorem isTruthPreserving_deMorgan : IsTruthPreserving deMorgan := by
  apply JudgesSoundly.whenParsed
  intro valuation conclusion cited finding hfinding hclean hcited
  beta_reduce at hfinding
  split at hfinding
  · rename_i formula
    obtain rfl := Option.some.inj hfinding
    rw [Finding.objections_require, Bool.or_eq_true] at hclean
    have htrue := hcited formula (by simp)
    rcases hclean with hdual | hdual
    · rw [eval_eq_of_isDeMorganDual hdual]
      exact htrue
    · rw [← eval_eq_of_isDeMorganDual hdual]
      exact htrue
  · contradiction

theorem eval_of_negates {first second : Formula} (hnegates : first.negates second = true) :
    first.eval valuation = !second.eval valuation := by
  cases first with
  | neg operand =>
      rw [negates] at hnegates
      rw [eval, eval_eq_of_agrees hnegates]
  | _ => contradiction

theorem eval_of_contradicts {first second : Formula}
    (hcontradicts : first.contradicts second = true) :
    first.eval valuation = !second.eval valuation := by
  rw [contradicts, Bool.or_eq_true] at hcontradicts
  rcases hcontradicts with hnegates | hnegates
  · exact eval_of_negates hnegates
  · rw [eval_of_negates hnegates, Bool.not_not]

theorem eval_of_isContradiction {formula : Formula}
    (hcontradiction : formula.isContradiction = true) :
    formula.eval valuation = false := by
  cases formula with
  | conj left right =>
      rw [isContradiction] at hcontradiction
      rw [eval, eval_of_contradicts hcontradiction, Bool.not_and_self]
  | _ => contradiction

theorem isTruthPreserving_explosion : IsTruthPreserving explosion := by
  intro valuation context finding conclusion hfinding hclean _ hcited
  unfold explosion at hfinding
  split at hfinding
  · rename_i cited hcitations
    obtain ⟨formula, hformula, htrue⟩ := hcited cited (by simp [hcitations])
    simp only [hformula, Option.some.injEq] at hfinding
    subst hfinding
    rw [Finding.objections_require] at hclean
    exact absurd htrue (by simp [eval_of_isContradiction hclean])
  · contradiction

theorem isTruthPreserving_excludedMiddle : IsTruthPreserving excludedMiddle := by
  apply JudgesSoundly.whenParsed
  intro valuation conclusion cited finding hfinding hclean _
  beta_reduce at hfinding
  split at hfinding
  · rename_i left right
    obtain rfl := Option.some.inj hfinding
    rw [Finding.objections_require] at hclean
    rw [eval, eval_of_contradicts hclean, Bool.not_or_self]
  · exact (Finding.not_pass_object hfinding hclean).elim

theorem eval_of_leavesOther {conclusion disjunction denial : Formula}
    (hleaves : leavesOther conclusion disjunction denial = true)
    (hdisjunction : disjunction.eval valuation = true) (hdenial : denial.eval valuation = true) :
    conclusion.eval valuation = true := by
  unfold leavesOther at hleaves
  split at hleaves
  · rename_i left right denied
    simp only [eval, Bool.or_eq_true, Bool.not_eq_true'] at hdisjunction hdenial
    split at hleaves
    · rename_i hleft
      rw [eval_eq_of_agrees hleaves]
      rw [eval_eq_of_agrees hleft] at hdenial
      exact hdisjunction.resolve_left (by simp [hdenial])
    · split at hleaves
      · rename_i hright
        rw [eval_eq_of_agrees hleaves]
        rw [eval_eq_of_agrees hright] at hdenial
        exact hdisjunction.resolve_right (by simp [hdenial])
      · contradiction
  · contradiction

theorem isTruthPreserving_disjunctiveSyllogism : IsTruthPreserving disjunctiveSyllogism := by
  apply JudgesSoundly.whenParsed
  intro valuation conclusion cited finding hfinding hclean hcited
  beta_reduce at hfinding
  split at hfinding
  · rename_i first second
    obtain rfl := Option.some.inj hfinding
    exact eval_of_either_order (fun _ _ => eval_of_leavesOther) hclean
      (hcited first (by simp)) (hcited second (by simp))
  · contradiction

end Check

end Deduction
