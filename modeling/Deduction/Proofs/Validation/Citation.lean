import Deduction.Proofs.Validation.Approximation

namespace Deduction

namespace Trial

variable {trial : Trial} {position : Nat} {line : Line}

theorem label_of_cite {discharges : Bool} {label : String} {cited : Citation}
    (hcite : trial.cite position line discharges label = .ok cited) :
    label ≠ "" ∧ label ≠ line.label := by
  have hlabelled := labelled?_of_cite hcite
  have hsome : label ≠ "" := by
    rintro rfl
    rw [labelled?, if_pos (by decide)] at hlabelled
    contradiction
  refine ⟨hsome, ?_⟩
  rintro rfl
  rw [cite, if_pos (by simpa using hsome)] at hcite
  contradiction

theorem levelAt_le_of_cite {policy : Policy} {ruleset : Ruleset} {checks : Rule → Check}
    {lines : List Line} {label : String} {cited : Citation}
    (hcite : (ofLines policy ruleset checks lines).cite position line false label = .ok cited)
    (hscope : policy.enforceScope = true) :
    ∀ between, cited.position ≤ between → between ≤ position →
      Frame.levelAt lines cited.position ≤ Frame.levelAt lines between := by
  obtain ⟨hbefore, -, -, haccessible⟩ := cite_eq_ok hcite
  exact (Frame.isAccessible_ofLines_iff (Nat.le_of_lt hbefore)).mp (haccessible hscope rfl)

end Trial

namespace Document

/-- Every citation of an accepted line is of an earlier line, in scope unless the rule closes a
subproof. Being in scope is a matter of the depth column. -/
theorem citations_of_accepted :
    (∀ (document : Document) (policy : Policy) (ruleset : Ruleset) (validation : Validation)
        (position : Nat) (line : Line) (rule : Rule) (verdict : LineVerdict),
      Ruleset.resolve document.ruleset policy.defaultRuleset.name = .ok ruleset →
      document.validate policy = .ok validation → document.lines[position]? = some line →
      Rule.parse? line.rule = some rule → validation.verdict.lines[position]? = some verdict →
      verdict.ok = true →
      ∀ label ∈ line.citations, label ≠ "" ∧ label ≠ line.label ∧
        ∃ citation source,
          (Trial.ofLines policy ruleset Check.standard document.lines).cite position line
            rule.signature.discharges label = .ok citation ∧
          IsCited document.lines position label citation.position source ∧
          (policy.enforceScope = true → rule.signature.discharges = false →
            ∀ between, citation.position ≤ between → between ≤ position →
              Frame.levelAt document.lines citation.position ≤
                Frame.levelAt document.lines between)) ∧
    (∀ (lines : List Line) (cited citing : Nat), cited ≤ citing →
      (Frame.isAccessible (Frame.ofLines lines) cited citing = true ↔
        ∀ between, cited ≤ between → between ≤ citing →
          Frame.levelAt lines cited ≤ Frame.levelAt lines between)) := by
  refine ⟨?_, fun lines cited citing hle => Frame.isAccessible_ofLines_iff hle⟩
  intro document policy ruleset validation position line rule verdict hruleset hvalidate hline
    hrule hverdict hok label hlabel
  obtain rfl := verdict_eq_judge hruleset hvalidate hline hverdict
  obtain ⟨-, hcitations, -⟩ := Trial.exists_finding_of_accepted hrule hok
  obtain ⟨citation, -, hcite⟩ := Trial.exists_citation hcitations hlabel
  obtain ⟨source, hsource, -⟩ := Trial.isCited_of_cite hcite
  obtain ⟨hsome, hother⟩ := Trial.label_of_cite hcite
  refine ⟨hsome, hother, citation, source, hcite, hsource, ?_⟩
  intro hscope hdischarges
  rw [hdischarges] at hcite
  exact Trial.levelAt_le_of_cite hcite hscope

/-- A subproof, a line after it, and a second subproof at the depth of the first. -/
def reopened : Document where
  premises := ["B"]
  conclusion := "B"
  lines :=
    [ { label := "1", formula := "A", rule := "Assumption", depth := 1 }
    , { label := "2", formula := "B", rule := "Premise" }
    , { label := "3", formula := "C", rule := "Assumption", depth := 1 }
    , { label := "4", formula := "C & B", rule := "∧I", citations := ["3", "2"], depth := 1 } ]

/-- The last line cites its own subproof and the line before it; the first subproof stays closed. -/
theorem reopened_cites :
    (∀ label ∈ ["3", "2"], label ≠ "" ∧ label ≠ "4" ∧
      ∃ cited source, IsCited reopened.lines 3 label cited source ∧
        ∀ between, cited ≤ between → between ≤ 3 →
          Frame.levelAt reopened.lines cited ≤ Frame.levelAt reopened.lines between) ∧
    Frame.isAccessible (Frame.ofLines reopened.lines) (0 : Nat) (3 : Nat) = false := by
  have hresolve : Ruleset.resolve reopened.ruleset (Policy.defaultRuleset {}).name =
      .ok .tflBasic := by rfl
  have hverdict : (Validation.run {} Check.standard .tflBasic reopened.premises
      reopened.conclusion reopened.lines).verdict.lines[3]? =
        some { label := "4", ok := true,
               evidence := some { rule := "Conjunction Intro", citations := ["3", "2"] } } := by
    decide +kernel
  have hrule : Rule.parse? "∧I" = some .conjunctionIntro := by decide +kernel
  obtain ⟨hcitations, haccessible⟩ := citations_of_accepted
  constructor
  · intro label hlabel
    obtain ⟨hsome, hother, citation, source, -, hsource, hlevels⟩ :=
      hcitations reopened {} .tflBasic _ 3
        { label := "4", formula := "C & B", rule := "∧I", citations := ["3", "2"], depth := 1 }
        .conjunctionIntro _ hresolve (validate_eq_run hresolve) rfl hrule hverdict rfl label hlabel
    exact ⟨hsome, hother, citation.position, source, hsource, hlevels rfl rfl⟩
  · rw [Bool.eq_false_iff, Ne, haccessible reopened.lines 0 3 (by decide)]
    intro hlevels
    exact absurd (hlevels 1 (by decide) (by decide)) (by decide)

end Document

end Deduction
