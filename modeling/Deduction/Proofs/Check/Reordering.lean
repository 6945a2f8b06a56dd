import Deduction.Proofs.Check.Approximation
import Mathlib.Data.List.Permutation

namespace Deduction

def Context.citing (context : Context) (citations : List Citation) : Context :=
  { context with citations }

/-- The context with other labels cited on the line under check, which resolve as before. -/
def Context.naming (context : Context) (labels : List String) : Context :=
  { context with line := { context.line with citations := labels } }

/-- The rules that take their citations in any order whatever the policy. -/
def Rule.unordered : List Rule :=
  [ .conditionalElim, .modusTollens, .biconditionalIntro, .biconditionalElim
  , .disjunctiveSyllogism, .disjunctionElim, .negationIntro, .indirectProof ]

/-- A rule takes its citations in any order. That a conjunction may be introduced so is a matter of
policy. -/
def Rule.TakesAnyOrder (rule : Rule) (order : ConjunctOrder) : Prop :=
  rule ∈ unordered ∨ rule = .conjunctionIntro ∧ order = .any

theorem Rule.TakesAnyOrder.mem_propositional {rule : Rule} {order : ConjunctOrder}
    (hrule : rule.TakesAnyOrder order) : rule ∈ Ruleset.propositional := by
  have hsubset : unordered ⊆ Ruleset.propositional := by decide
  rcases hrule with hunordered | ⟨rfl, -⟩
  · exact hsubset hunordered
  · decide

theorem Formula.contradicts_comm (first second : Formula) :
    first.contradicts second = second.contradicts first :=
  Bool.or_comm _ _

theorem Formula.textContradicts_comm (first second : List Char) :
    textContradicts first second = textContradicts second first :=
  Bool.or_comm _ _

namespace Check

def Passes (check : Check) (context : Context) : Prop :=
  ∃ finding, check context = some finding ∧ finding.objections = []

/-- What passes a check still passes with the citations in another order, wherever the check
answers. -/
def IgnoresOrder (check : Check) (signature : Signature) : Prop :=
  ∀ (context : Context) (citations : List Citation), context.IsComplete →
    signature.Allows context.citations.length → context.citations.Perm citations →
      check.Passes context → check.Passes (context.citing citations)

variable {context : Context} {citations : List Citation} {discharges heuristic : Bool}

theorem passes_of_swap {check : Check}
    (hallows : Signature.Allows ⟨2, some 2, discharges, heuristic⟩ context.citations.length)
    (hperm : context.citations.Perm citations)
    (hswap : ∀ first second, context.citations = [first, second] →
      check.Passes (context.citing [second, first]))
    (hpasses : check.Passes context) : check.Passes (context.citing citations) := by
  obtain ⟨first, second, hcited⟩ := List.length_eq_two.mp (length_of_allows hallows)
  rw [hcited] at hperm
  rcases List.pair_perm.mp hperm with rfl | rfl
  · rwa [← hcited]
  · exact hswap first second hcited

theorem ignoresOrder_whenParsed {judge : Formula → List Formula → Option Finding}
    (hjudge : ∀ conclusion first second,
      judge conclusion [second, first] = judge conclusion [first, second]) :
    IgnoresOrder (fun context => context.whenParsed judge) ⟨2, some 2, discharges, heuristic⟩ := by
  intro context citations _ hallows hperm hpasses
  refine passes_of_swap hallows hperm ?_ hpasses
  intro first second hcited
  obtain ⟨finding, hfinding, hclean⟩ := hpasses
  refine ⟨finding, ?_, hclean⟩
  simp only [Context.whenParsed, hcited, Context.citing] at hfinding ⊢
  cases hconclusion : context.formula with
  | none =>
      rw [hconclusion] at hfinding
      exact (Finding.not_pass_object hfinding hclean).elim
  | some conclusion =>
      cases hfirst : first.formula with
      | none =>
          simp only [hconclusion, List.mapM_cons, hfirst] at hfinding
          exact (Finding.not_pass_object hfinding hclean).elim
      | some a =>
          cases hsecond : second.formula with
          | none =>
              simp only [hconclusion, List.mapM_cons, hfirst, hsecond] at hfinding
              exact (Finding.not_pass_object hfinding hclean).elim
          | some b =>
              simp only [hconclusion, List.mapM_cons, hfirst, hsecond] at hfinding ⊢
              exact (hjudge conclusion a b).trans hfinding

theorem ignoresOrder_modusTollens : modusTollens.IgnoresOrder Rule.modusTollens.signature :=
  ignoresOrder_whenParsed fun _ _ _ => by dsimp only; rw [Bool.or_comm]

theorem areDirections_swap (left right first second : Formula) :
    areDirections left right second first = areDirections right left first second := by
  cases first with
  | imp a b =>
      cases second with
      | imp c d =>
          rw [areDirections, areDirections, Bool.and_assoc, Bool.and_comm, ← Bool.and_assoc]
      | _ => rfl
  | _ => cases second <;> rfl

theorem ignoresOrder_biconditionalIntro :
    biconditionalIntro.IgnoresOrder Rule.biconditionalIntro.signature := by
  apply ignoresOrder_whenParsed
  intro conclusion first second
  dsimp only
  cases conclusion with
  | iff left right =>
      cases first with
      | imp a b =>
          cases second with
          | imp c d =>
              dsimp only
              rw [areDirections_swap left right (.imp a b), areDirections_swap right left (.imp a b)
                (.imp c d), Bool.or_comm]
          | _ => rfl
      | _ => cases second <;> rfl
  | _ => rfl

theorem ignoresOrder_biconditionalElim :
    biconditionalElim.IgnoresOrder Rule.biconditionalElim.signature :=
  ignoresOrder_whenParsed fun _ _ _ => by dsimp only; rw [Bool.or_comm]

theorem ignoresOrder_disjunctiveSyllogism :
    disjunctiveSyllogism.IgnoresOrder Rule.disjunctiveSyllogism.signature :=
  ignoresOrder_whenParsed fun _ _ _ => by dsimp only; rw [Bool.or_comm]

/-- By formulas and by texts alike, both citations are tried as the conditional. -/
theorem ignoresOrder_conditionalElim :
    conditionalElim.IgnoresOrder Rule.conditionalElim.signature := by
  intro context citations _ hallows hperm hpasses
  refine passes_of_swap hallows hperm ?_ hpasses
  intro first second hcited
  obtain ⟨finding, hfinding, hclean⟩ := hpasses
  refine ⟨finding, ?_, hclean⟩
  rw [← hfinding]
  unfold conditionalElim
  rw [hcited]
  dsimp only [Context.citing, Context.text]
  rw [Bool.or_comm (detachesText _ second.text.toList _)]
  cases context.formula with
  | none => rfl
  | some conclusion =>
      cases first.formula with
      | none => cases second.formula <;> rfl
      | some a =>
          cases second.formula with
          | none => rfl
          | some b =>
              dsimp only
              rw [Bool.or_comm]

theorem passes_conjunctionIntro_of_perm
    (hallows : Rule.conjunctionIntro.signature.Allows context.citations.length)
    (hany : context.conjunctOrder = .any) (hperm : context.citations.Perm citations)
    (hpasses : conjunctionIntro.Passes context) :
    conjunctionIntro.Passes (context.citing citations) := by
  refine passes_of_swap hallows hperm ?_ hpasses
  intro first second hcited
  obtain ⟨finding, hfinding, hclean⟩ := hpasses
  unfold conjunctionIntro at hfinding
  unfold Passes conjunctionIntro
  rw [hcited, hany] at hfinding
  dsimp only [Context.citing, Context.text] at hfinding ⊢
  rw [hany]
  simp only [beq_self_eq_true, Bool.true_and] at hfinding ⊢
  split at hfinding
  · rename_i left right a b hconclusion hfirst hsecond
    refine ⟨finding, ?_, hclean⟩
    rw [hconclusion, hfirst, hsecond]
    dsimp only
    rw [Bool.or_comm]
    exact hfinding
  · exact (Finding.not_pass_object hfinding hclean).elim
  · rename_i hjoined hunparsed
    split
    · rename_i hconclusion hsecond hfirst
      exact absurd hsecond (hjoined _ _ _ _ hconclusion hfirst)
    · rename_i _ hconclusion hsecond hfirst
      exact absurd hsecond (hunparsed _ _ _ hconclusion hfirst)
    · split at hfinding
      · obtain rfl := Option.some.inj hfinding
        exact absurd hclean (List.cons_ne_nil _ _)
      · split at hfinding
        · rename_i hfits
          rw [if_pos ((Bool.or_comm _ _).trans hfits)]
          exact ⟨_, rfl, rfl⟩
        · -- both conjuncts fit in order, or there would be an objection
          rename_i hfits
          obtain rfl := Option.some.inj hfinding
          obtain ⟨hleft, hright⟩ := List.append_eq_nil_iff.mp hclean
          simp only [ite_eq_left_iff, List.cons_ne_nil, imp_false, Decidable.not_not]
            at hleft hright
          simp [hleft, hright] at hfits

theorem compare_comm (first second : Citation) :
    contradiction?.compare first second = contradiction?.compare second first := by
  unfold contradiction?.compare
  rw [Formula.textContradicts_comm first.text.toList]
  cases first.formula with
  | none => cases second.formula <;> rfl
  | some a =>
      cases second.formula with
      | none => rfl
      | some b =>
          dsimp only
          rw [Formula.contradicts_comm]

theorem search_eq_none_iff {citations : List Citation} :
    contradiction?.search citations = none ↔
      citations.Pairwise fun first second => contradiction?.compare first second = none := by
  induction citations with
  | nil => simp [contradiction?.search]
  | cons first rest ih =>
      rw [contradiction?.search, List.pairwise_cons, ← ih, ← List.findSome?_eq_none_iff]
      cases rest.findSome? (contradiction?.compare first) <;> simp

theorem isSome_contradiction?_of_perm {citations citations' : List Citation}
    (hperm : citations.Perm citations') (hfound : (contradiction? citations).isSome = true) :
    (contradiction? citations').isSome = true := by
  unfold contradiction? at hfound ⊢
  rw [hperm.any_eq] at hfound
  split
  · rfl
  · rename_i hnone
    rw [if_neg hnone, Option.isSome_iff_ne_none, Ne, search_eq_none_iff] at hfound
    rw [Option.isSome_iff_ne_none, Ne, search_eq_none_iff]
    intro hpairwise
    exact hfound ((hperm.pairwise_iff fun hnone => (compare_comm _ _).trans hnone).mpr hpairwise)

theorem objections_discharge_of_perm {candidates : List Frame} {textual : Bool}
    {missing : Objection} (hperm : context.citations.Perm citations)
    (hclean : (dischargeByContradiction context candidates textual missing).objections = []) :
    (dischargeByContradiction (context.citing citations) candidates textual
      missing).objections = [] := by
  obtain ⟨frame, hframe, hfound⟩ := exists_of_dischargeByContradiction hclean
  have hinside : (context.citationsIn frame).Perm ((context.citing citations).citationsIn frame) :=
    hperm.filter _
  exact objections_dischargeByContradiction hframe
    (isSome_contradiction?_of_perm hinside hfound)

theorem ignoresOrder_negationIntro :
    negationIntro.IgnoresOrder Rule.negationIntro.signature := by
  intro context citations _ _ hperm hpasses
  obtain ⟨finding, hfinding, hclean⟩ := hpasses
  have htarget : negationTarget? (context.citing citations) = negationTarget? context := rfl
  have hassumed : assumptions? (context.citing citations) = assumptions? context := rfl
  unfold negationIntro at hfinding
  unfold Passes negationIntro
  rw [htarget, hassumed]
  split at hfinding
  · exact (Finding.not_pass_object hfinding hclean).elim
  · split at hfinding
    · contradiction
    · obtain rfl := Option.some.inj hfinding
      exact ⟨_, rfl, objections_discharge_of_perm hperm hclean⟩

theorem ignoresOrder_indirectProof :
    indirectProof.IgnoresOrder Rule.indirectProof.signature := by
  intro context citations _ _ hperm hpasses
  obtain ⟨finding, hfinding, hclean⟩ := hpasses
  have hassumed : assumptions? (context.citing citations) = assumptions? context := rfl
  unfold indirectProof at hfinding
  unfold Passes indirectProof
  rw [hassumed]
  split at hfinding
  · contradiction
  · obtain rfl := Option.some.inj hfinding
    exact ⟨_, rfl, objections_discharge_of_perm hperm hclean⟩

theorem mem_selections_iff {α : Type} {items others : List α} {chosen : α} :
    (chosen, others) ∈ selections items ↔
      ∃ before after, items = before ++ chosen :: after ∧ others = before ++ after := by
  induction items generalizing chosen others with
  | nil => simp [selections]
  | cons first rest ih =>
      rw [selections, List.mem_cons, List.mem_map]
      constructor
      · rintro (heq | ⟨⟨other, remaining⟩, hmem, heq⟩)
        · obtain ⟨rfl, rfl⟩ := Prod.mk.inj heq
          exact ⟨[], others, rfl, rfl⟩
        · obtain ⟨rfl, rfl⟩ := Prod.mk.inj heq
          obtain ⟨before, after, rfl, rfl⟩ := ih.mp hmem
          exact ⟨first :: before, after, rfl, rfl⟩
      · rintro ⟨before, after, hitems, rfl⟩
        cases before with
        | nil =>
            obtain ⟨rfl, rfl⟩ := List.cons.inj hitems
            exact Or.inl rfl
        | cons head tail =>
            obtain ⟨rfl, rfl⟩ := List.cons.inj hitems
            exact Or.inr ⟨(chosen, tail ++ after), ih.mpr ⟨tail, after, rfl, rfl⟩, rfl⟩

theorem exists_selection_of_perm {α : Type} {items items' others : List α} {chosen : α}
    (hperm : items.Perm items') (hselection : (chosen, others) ∈ selections items) :
    ∃ others', (chosen, others') ∈ selections items' ∧ others.Perm others' := by
  obtain ⟨before, after, rfl, rfl⟩ := mem_selections_iff.mp hselection
  have hchosen : chosen ∈ items' := hperm.mem_iff.mp (by simp)
  obtain ⟨before', after', rfl⟩ := List.append_of_mem hchosen
  refine ⟨before' ++ after', mem_selections_iff.mpr ⟨before', after', rfl, rfl⟩, ?_⟩
  apply @List.Perm.cons_inv _ chosen
  exact List.perm_middle.symm.trans (hperm.trans List.perm_middle)

theorem casesProve_comm (conclusion : Formula) (disjunction : Citation)
    (first second : Formula × Formula) :
    casesProve conclusion disjunction second first =
      casesProve conclusion disjunction first second := by
  unfold casesProve
  split
  · rw [Bool.or_comm, Bool.and_right_comm, Bool.and_comm (second.1.agrees _),
      Bool.and_comm (second.1.agrees _)]
  · rfl

theorem provesByCases?_swap {conclusion : Formula} {disjunction first second : Citation}
    (hproves : provesByCases? context conclusion disjunction [first, second] = some true) :
    provesByCases? context conclusion disjunction [second, first] = some true := by
  unfold provesByCases? at hproves ⊢
  split at hproves
  · split at hproves
    · cases hproves
    · rename_i haccess
      rw [if_neg haccess]
      cases hfirst : caseOf? context first with
      | none =>
          simp [List.mapM_cons, hfirst] at hproves
      | some case =>
          cases hsecond : caseOf? context second with
          | none => simp [List.mapM_cons, hfirst, hsecond] at hproves
          | some case' =>
              simp only [List.mapM_cons, hfirst, hsecond] at hproves ⊢
              cases case <;> cases case'
              · cases hproves
              · cases hproves
              · cases hproves
              · exact (congrArg some (casesProve_comm _ _ _ _)).trans hproves
  · cases hproves

theorem exists_formulas_of_perm {citations citations' : List Citation} {formulas : List Formula}
    (hperm : citations.Perm citations') (hformulas : citations.mapM (·.formula) = some formulas) :
    ∃ formulas', citations'.mapM (·.formula) = some formulas' := by
  apply Option.isSome_iff_exists.mp
  apply isSome_mapM
  intro cited hcited
  have hmem : cited.formula ∈ formulas.map some :=
    mapM_eq_some_iff.mp hformulas ▸ List.mem_map_of_mem (hperm.mem_iff.mpr hcited)
  obtain ⟨formula, _, hformula⟩ := List.mem_map.mp hmem
  rw [← hformula]
  rfl

theorem exists_of_mem_choices {conclusion : Formula}
    {choices : List (Citation × List Citation)} {choice : Citation × List Citation}
    (hanswers : (findCases? context conclusion choices).isSome = true) (hmem : choice ∈ choices)
    (hproves : provesByCases? context conclusion choice.1 choice.2 = some true) :
    ∃ disjunction, findCases? context conclusion choices = some (some disjunction) := by
  induction choices with
  | nil => contradiction
  | cons first rest ih =>
      obtain ⟨disjunction, others⟩ := first
      rw [findCases?] at hanswers ⊢
      split at hanswers
      · contradiction
      · exact ⟨disjunction, rfl⟩
      · rename_i hfails
        rcases List.mem_cons.mp hmem with rfl | hrest
        · rw [hproves] at hfails
          cases hfails
        · exact ih hanswers hrest

/-- What a citation proves as a case, and whether it is a disjunction in scope, does not depend on
the citations beside it. -/
theorem ignoresOrder_disjunctionElim :
    disjunctionElim.IgnoresOrder Rule.disjunctionElim.signature := by
  intro context citations hcomplete hallows hperm hpasses
  obtain ⟨finding, hfinding, hclean⟩ := hpasses
  have hlength : context.citations.length = 3 := length_of_allows hallows
  unfold disjunctionElim Context.whenParsed at hfinding
  split at hfinding
  · rename_i conclusion formulas hconclusion hformulas
    dsimp only at hfinding
    split at hfinding
    · contradiction
    · rename_i disjunction hfound
      obtain ⟨others, hselection, hproves⟩ := exists_of_findCases? hfound
      obtain ⟨others', hselection', hothers⟩ := exists_selection_of_perm hperm hselection
      have hproves' : provesByCases? (context.citing citations) conclusion disjunction others' =
          some true := by
        have hcount := length_of_mem_selections hselection
        obtain ⟨first, second, rfl⟩ := List.length_eq_two.mp (by omega : others.length = 2)
        rcases List.pair_perm.mp hothers with rfl | rfl
        · exact hproves
        · exact provesByCases?_swap hproves
      have hcomplete' : (context.citing citations).IsComplete := ⟨hcomplete.opens, hcomplete.ends⟩
      obtain ⟨found, hfound'⟩ := exists_of_mem_choices
        (isSome_findCases?_selections hcomplete' conclusion (hperm.length_eq.symm.trans hlength))
        hselection' hproves'
      obtain ⟨formulas', hformulas'⟩ := exists_formulas_of_perm hperm hformulas
      refine ⟨{ remark := some (.caseSplit found.label) },
        (@whenParsed_eq (context.citing citations) _ _ _ hconclusion hformulas').trans ?_, rfl⟩
      dsimp only [Context.citing] at hfound' ⊢
      rw [hfound']
    · exact (Finding.not_pass_object hfinding hclean).elim
  · exact (Finding.not_pass_object hfinding hclean).elim

theorem findCases?_naming (context : Context) (labels : List String) (conclusion : Formula)
    (choices : List (Citation × List Citation)) :
    findCases? (context.naming labels) conclusion choices =
      findCases? context conclusion choices := by
  induction choices with
  | nil => rfl
  | cons choice rest ih =>
      rw [findCases?, findCases?, ih]
      rfl

theorem standard_naming {rule : Rule} (hrule : rule ∈ Ruleset.propositional) (context : Context)
    (labels : List String) : standard rule (context.naming labels) = standard rule context := by
  cases rule with
  | disjunctionElim =>
      change disjunctionElim _ = disjunctionElim _
      unfold disjunctionElim
      simp only [findCases?_naming]
      rfl
  | universalIntro => exact absurd hrule (by decide)
  | universalElim => exact absurd hrule (by decide)
  | existentialIntro => exact absurd hrule (by decide)
  | existentialElim => exact absurd hrule (by decide)
  | quantifierConversion => exact absurd hrule (by decide)
  | _ => rfl

/-- Whatever a rule that takes its citations in any order passes, it passes in every order. -/
theorem passes_citing {rule : Rule} (hrule : rule.TakesAnyOrder context.conjunctOrder)
    (hcomplete : context.IsComplete) (hallows : rule.signature.Allows context.citations.length)
    (hperm : context.citations.Perm citations) (hpasses : (standard rule).Passes context) :
    (standard rule).Passes (context.citing citations) := by
  rcases hrule with hunordered | ⟨rfl, hany⟩
  · have hignores : (standard rule).IgnoresOrder rule.signature := by
      simp only [Rule.unordered, List.mem_cons, List.not_mem_nil, or_false] at hunordered
      rcases hunordered with rfl | rfl | rfl | rfl | rfl | rfl | rfl | rfl
      · exact ignoresOrder_conditionalElim
      · exact ignoresOrder_modusTollens
      · exact ignoresOrder_biconditionalIntro
      · exact ignoresOrder_biconditionalElim
      · exact ignoresOrder_disjunctiveSyllogism
      · exact ignoresOrder_disjunctionElim
      · exact ignoresOrder_negationIntro
      · exact ignoresOrder_indirectProof
    exact hignores context citations hcomplete hallows hperm hpasses
  · exact passes_conjunctionIntro_of_perm hallows hany hperm hpasses

end Check

end Deduction
