import Deduction.Proofs.Check.Relaxation
import Deduction.Proofs.Validation.Approximation
import Deduction.Proofs.Validation.Conclusion
import Deduction.Proofs.Validation.Totality

namespace Deduction

/-- A policy that reads formulas the same way and differs at most in not enforcing scopes, accepting
unknown rules, and taking conjuncts in any order. -/
structure Policy.Relaxes (policy relaxed : Policy) : Prop where
  malformed : relaxed.malformed = policy.malformed
  enforceScope : relaxed.enforceScope = policy.enforceScope ∨ relaxed.enforceScope = false
  unknownRule : relaxed.unknownRule = policy.unknownRule ∨ relaxed.unknownRule = .accept
  conjunctOrder : relaxed.conjunctOrder = policy.conjunctOrder ∨ relaxed.conjunctOrder = .any

theorem Policy.Relaxes.lenient_eq {policy relaxed : Policy} (hrelaxes : policy.Relaxes relaxed) :
    relaxed.lenient = policy.lenient := by
  rw [Policy.lenient, Policy.lenient, hrelaxes.malformed]

theorem Policy.Relaxes.unknownRule_eq {policy relaxed : Policy} (hrelaxes : policy.Relaxes relaxed)
    (haccept : policy.unknownRule = .accept) : relaxed.unknownRule = .accept := by
  rcases hrelaxes.unknownRule with hsame | hrelaxed
  · exact hsame.trans haccept
  · exact hrelaxed

/-- The same ruleset, or one for first-order logic in place of a truth-functional one. -/
def Ruleset.Relaxes (ruleset relaxed : Ruleset) : Prop :=
  relaxed = ruleset ∨ ruleset.isFirstOrder = false ∧ relaxed.isFirstOrder = true

theorem Ruleset.Relaxes.isFirstOrder {ruleset relaxed : Ruleset}
    (hrelaxes : ruleset.Relaxes relaxed) (hfirst : ruleset.isFirstOrder = true) :
    relaxed.isFirstOrder = true := by
  rcases hrelaxes with rfl | ⟨-, hrelaxed⟩
  · exact hfirst
  · exact hrelaxed

theorem Ruleset.Relaxes.allows {ruleset relaxed : Ruleset} (hrelaxes : ruleset.Relaxes relaxed)
    {rule : Rule} (hallows : ruleset.allows rule = true) : relaxed.allows rule = true := by
  rcases hrelaxes with rfl | ⟨htruth, hfirst⟩
  · exact hallows
  · rw [Ruleset.allows, Ruleset.rules, htruth, List.contains_iff_mem] at hallows
    rw [Ruleset.allows, Ruleset.rules, hfirst, List.contains_iff_mem]
    exact List.mem_append_left _ hallows

namespace Trial

/-- The same proof under trial, under a policy and a ruleset that relax those given. -/
structure Relaxes (trial relaxed : Trial) : Prop where
  policy : trial.policy.Relaxes relaxed.policy
  ruleset : trial.ruleset.Relaxes relaxed.ruleset
  checks : relaxed.checks = trial.checks
  lines : relaxed.lines = trial.lines
  formulas : relaxed.formulas = trial.formulas
  frames : relaxed.frames = trial.frames

theorem relaxes_ofLines {policy policy' : Policy} {ruleset ruleset' : Ruleset}
    (hpolicy : policy.Relaxes policy') (hruleset : ruleset.Relaxes ruleset')
    (checks : Rule → Check) (lines : List Line) :
    (ofLines policy ruleset checks lines).Relaxes (ofLines policy' ruleset' checks lines) where
  policy := hpolicy
  ruleset := hruleset
  checks := rfl
  lines := rfl
  formulas := by rw [ofLines, ofLines, hpolicy.lenient_eq]
  frames := rfl

namespace Relaxes

variable {trial relaxed : Trial} {position : Nat} {line : Line} {rule : Rule}

theorem labelled?_eq (hrelaxes : trial.Relaxes relaxed) (label : String) :
    relaxed.labelled? position label = trial.labelled? position label := by
  rw [labelled?, labelled?, hrelaxes.lines]

theorem formulaOf?_eq (hrelaxes : trial.Relaxes relaxed) :
    relaxed.formulaOf? line = trial.formulaOf? line := by
  rw [formulaOf?, formulaOf?, hrelaxes.policy.lenient_eq]

theorem context_eq (hrelaxes : trial.Relaxes relaxed) (citations : List Citation) :
    relaxed.context position line citations =
      (trial.context position line citations).reordered relaxed.policy.conjunctOrder := by
  simp only [context, Context.reordered, hrelaxes.formulaOf?_eq, hrelaxes.frames,
    hrelaxes.formulas]

theorem cite_eq_ok (hrelaxes : trial.Relaxes relaxed) {discharges : Bool} {label : String}
    {cited : Citation} (hcite : trial.cite position line discharges label = .ok cited) :
    relaxed.cite position line discharges label = .ok cited := by
  unfold cite at hcite ⊢
  rw [hrelaxes.labelled?_eq, hrelaxes.lines, hrelaxes.formulas, hrelaxes.frames]
  split at hcite
  · contradiction
  · rename_i hself
    rw [if_neg hself]
    split at hcite
    · split at hcite
      · contradiction
      · rename_i hscope
        rw [if_neg, ← hcite]
        rcases hrelaxes.policy.enforceScope with hsame | hoff
        · rw [hsame]
          exact hscope
        · simp [hoff]
    · split at hcite <;> contradiction

theorem citationOutcomes_eq (hrelaxes : trial.Relaxes relaxed)
    (hissues : citationIssues (trial.citationOutcomes position line rule) = []) :
    relaxed.citationOutcomes position line rule = trial.citationOutcomes position line rule := by
  apply List.map_congr_left
  intro label hlabel
  obtain ⟨cited, -, hcite⟩ := exists_citation hissues hlabel
  rw [hcite, hrelaxes.cite_eq_ok hcite]

theorem issues_apply (hrelaxes : trial.Relaxes relaxed)
    (htolerates : (trial.checks rule).Tolerates)
    (hissues : (trial.apply position line rule).issues = []) :
    (relaxed.apply position line rule).issues = [] := by
  obtain ⟨hcitations, harity, finding, hfinding, hclean⟩ := exists_finding_of_apply hissues
  obtain ⟨tolerant, htolerant, hpasses⟩ := htolerates _ relaxed.policy.conjunctOrder finding
    hrelaxes.policy.conjunctOrder hfinding hclean
  have houtcomes := hrelaxes.citationOutcomes_eq hcitations
  rw [← hrelaxes.context_eq, ← houtcomes, ← hrelaxes.checks] at htolerant
  rw [← houtcomes] at hcitations
  rw [apply_eq_of_finding hcitations harity htolerant, hpasses, List.map_nil]

theorem issues_justify (hrelaxes : trial.Relaxes relaxed)
    (htolerates : ∀ rule, (trial.checks rule).Tolerates)
    (hissues : (trial.justify position line).issues = []) :
    (relaxed.justify position line).issues = [] := by
  unfold justify at hissues ⊢
  cases hrule : Rule.parse? line.rule with
  | none =>
      rw [hrule] at hissues
      have haccept : trial.policy.unknownRule = .accept := by
        cases hunknown : trial.policy.unknownRule with
        | accept => rfl
        | reject =>
            rw [hunknown] at hissues
            exact absurd hissues (List.cons_ne_nil _ _)
      rw [hrelaxes.policy.unknownRule_eq haccept]
  | some rule =>
      rw [hrule] at hissues
      dsimp only at hissues ⊢
      by_cases hallows : trial.ruleset.allows rule = true
      · rw [if_pos hallows] at hissues
        rw [if_pos (hrelaxes.ruleset.allows hallows)]
        exact hrelaxes.issues_apply (htolerates rule) hissues
      · rw [if_neg hallows] at hissues
        exact absurd hissues (List.cons_ne_nil _ _)

theorem formulaIssues_eq_nil (hrelaxes : trial.Relaxes relaxed)
    (hissues : trial.formulaIssues line = []) : relaxed.formulaIssues line = [] := by
  rw [formulaIssues] at hissues ⊢
  rw [hrelaxes.policy.lenient_eq]
  by_cases hblank : Formula.isBlankText line.formula = true
  · rw [if_pos hblank] at hissues
    exact absurd hissues (List.cons_ne_nil _ _)
  · rw [if_neg hblank] at hissues ⊢
    cases hparse : Formula.parse trial.policy.lenient line.formula with
    | ok formula => rfl
    | error error =>
        rw [hparse] at hissues
        dsimp only at hissues ⊢
        by_cases hfirst : trial.ruleset.isFirstOrder = true
        · rw [if_pos (hrelaxes.ruleset.isFirstOrder hfirst)]
        · rw [if_neg hfirst] at hissues
          exact absurd hissues (List.cons_ne_nil _ _)

theorem accepted_judge (hrelaxes : trial.Relaxes relaxed)
    (htolerates : ∀ rule, (trial.checks rule).Tolerates)
    (haccepted : (trial.judge position line).accepted = true) :
    (relaxed.judge position line).accepted = true := by
  obtain ⟨hlabel, hformula, hjustify⟩ := accepted_judge_iff.mp haccepted
  refine accepted_judge_iff.mpr ⟨?_, hrelaxes.formulaIssues_eq_nil hformula,
    hrelaxes.issues_justify htolerates hjustify⟩
  rw [labelIssues, hrelaxes.labelled?_eq]
  exact hlabel

end Relaxes

end Trial

namespace Validation

variable {policy policy' : Policy} {ruleset ruleset' : Ruleset} {premises : List String}
  {conclusion : String} {lines : List Line}

theorem ok_run_of_relaxes (hpolicy : policy.Relaxes policy') (hruleset : ruleset.Relaxes ruleset')
    (hok : (run policy Check.standard ruleset premises conclusion lines).ok = true) :
    (run policy' Check.standard ruleset' premises conclusion lines).ok = true := by
  obtain ⟨haccepted, hconcluded⟩ := ok_run_iff.mp hok
  refine ok_run_iff.mpr ⟨?_, hconcluded⟩
  intro judgement hjudgement
  obtain ⟨position, line, hline, rfl⟩ := Trial.mem_judgements.mp hjudgement
  apply (Trial.relaxes_ofLines hpolicy hruleset Check.standard lines).accepted_judge
    Check.tolerates_standard
  exact haccepted _ (Trial.mem_judgements.mpr ⟨position, line, hline, rfl⟩)

theorem conclusionReached_run_of_relaxes (hpolicy : policy.Relaxes policy')
    (hruleset : ruleset.Relaxes ruleset') (hdepths : ∀ line ∈ lines, 0 ≤ line.depth)
    (hreached : (run policy Check.standard ruleset premises conclusion
      lines).conclusionReached = true) :
    (run policy' Check.standard ruleset' premises conclusion lines).conclusionReached = true := by
  rw [conclusionReached_run_iff hdepths] at hreached ⊢
  rw [hpolicy.lenient_eq]
  obtain ⟨hblank, hpremise | ⟨position, line, hline, hdepth, haccepted, hstates⟩⟩ := hreached
  · exact ⟨hblank, Or.inl hpremise⟩
  · exact ⟨hblank, Or.inr ⟨position, line, hline, hdepth,
      (Trial.relaxes_ofLines hpolicy hruleset Check.standard lines).accepted_judge
        Check.tolerates_standard haccepted, hstates⟩⟩

end Validation

namespace Document

/-- Where no depth is negative, relaxing the policy and the ruleset rejects nothing: accepted lines
stay accepted, a valid proof stays valid and a conclusion that was reached stays so. -/
theorem stands_of_relaxes (document : Document) (policy policy' : Policy) (name : Option String)
    (ruleset ruleset' : Ruleset) (validation : Validation)
    (hdepths : ∀ line ∈ document.lines, 0 ≤ line.depth)
    (hpolicy : policy.Relaxes policy') (hruleset : ruleset.Relaxes ruleset')
    (hresolve : Ruleset.resolve document.ruleset policy.defaultRuleset.name = .ok ruleset)
    (hresolve' : Ruleset.resolve name policy'.defaultRuleset.name = .ok ruleset')
    (hvalidate : document.validate policy = .ok validation) :
    ∃ relaxed, validate policy' { document with ruleset := name } = .ok relaxed ∧
      (∀ (position : Nat) (before : LineVerdict),
        validation.verdict.lines[position]? = some before → before.ok = true →
        ∃ after : LineVerdict, relaxed.verdict.lines[position]? = some after ∧
          after.ok = true) ∧
      (validation.verdict.ok = true → relaxed.verdict.ok = true) ∧
      (validation.verdict.conclusionReached = true →
        relaxed.verdict.conclusionReached = true) := by
  rw [validate_eq_run hresolve] at hvalidate
  obtain rfl := Except.ok.inj hvalidate
  have hvalidate' : validate policy' { document with ruleset := name } =
      .ok (Validation.run policy' Check.standard ruleset' document.premises document.conclusion
        document.lines) := validate_eq_run hresolve'
  refine ⟨_, hvalidate', ?_, ?_, ?_⟩
  · intro position before hbefore hok
    obtain ⟨line, hline, rfl⟩ := Validation.exists_line_of_verdict_run hbefore
    exact ⟨_, Validation.verdict_lines_run hline,
      (Trial.relaxes_ofLines hpolicy hruleset Check.standard document.lines).accepted_judge
        Check.tolerates_standard hok⟩
  · exact Validation.ok_run_of_relaxes hpolicy hruleset
  · rw [Validation.conclusionReached_verdict, Validation.conclusionReached_verdict]
    exact Validation.conclusionReached_run_of_relaxes hpolicy hruleset hdepths

/-- A proof that joins two premises inside a subproof. -/
def joined : Document where
  premises := ["A", "B"]
  conclusion := "C -> A"
  lines :=
    [ { label := "1", formula := "A", rule := "Premise" }
    , { label := "2", formula := "B", rule := "Premise" }
    , { label := "3", formula := "C", rule := "Assumption", depth := 1 }
    , { label := "4", formula := "A ^ B", rule := "∧I", citations := ["1", "2"], depth := 1 }
    , { label := "5", formula := "A", rule := "∧E", citations := ["4"], depth := 1 }
    , { label := "6", formula := "C -> A", rule := "→I", citations := ["3", "5"] } ]

/-- Every switch is relaxed at once. -/
theorem joined_stands :
    ∃ relaxed,
      validate { unknownRule := .accept, conjunctOrder := .any, enforceScope := false }
        { joined with ruleset := some "fol_derived" } = .ok relaxed ∧
      relaxed.verdict.ok = true ∧ relaxed.verdict.conclusionReached = true := by
  have hresolve : Ruleset.resolve joined.ruleset (Policy.defaultRuleset {}).name =
      .ok .tflBasic := by rfl
  have hok : (Validation.run {} Check.standard .tflBasic joined.premises joined.conclusion
      joined.lines).verdict.ok = true := by decide +kernel
  have hparse : Formula.parse? false "C -> A" = some (.imp (.atom "C") (.atom "A")) := by
    decide +kernel
  have hreached : (Validation.run {} Check.standard .tflBasic joined.premises joined.conclusion
      joined.lines).conclusionReached = true := by
    rw [Validation.conclusionReached_run_iff (by decide)]
    exact ⟨by decide +kernel, Or.inr ⟨5, _, rfl, rfl, by decide +kernel,
      Or.inl ⟨_, _, hparse, hparse, by decide +kernel⟩⟩⟩
  obtain ⟨relaxed, hrelaxed, -, hokAfter, hreachedAfter⟩ := stands_of_relaxes joined {}
    { unknownRule := .accept, conjunctOrder := .any, enforceScope := false }
    (some "fol_derived") .tflBasic .folDerived _ (by decide)
    ⟨rfl, Or.inr rfl, Or.inr rfl, Or.inr rfl⟩ (Or.inr ⟨rfl, rfl⟩) hresolve (by decide +kernel)
    (validate_eq_run hresolve)
  exact ⟨relaxed, hrelaxed, hokAfter hok, hreachedAfter hreached⟩

end Document

end Deduction
