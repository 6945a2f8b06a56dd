import Deduction.Proofs.Check.Extension
import Deduction.Proofs.Validation.Acceptance

namespace Deduction

/-- What may become of an issue when lines are appended: what was cited in vain may be the label of
one of them. -/
def Issue.GoesOn (extra : List Line) (before after : Issue) : Prop :=
  after = before ∨
    ∃ line ∈ extra, before = .citesNothing line.label ∧ after = .citesForward line.label

/-- What may become of a judgement when lines are appended. -/
structure Judgement.GoesOn (extra : List Line) (before after : Judgement) : Prop where
  line : after.line = before.line
  rule : after.rule = before.rule
  remark : after.remark = before.remark
  approximate : after.approximate = before.approximate
  issues : List.Forall₂ (Issue.GoesOn extra) before.issues after.issues

theorem Issue.forall₂_goesOn_refl (extra : List Line) (issues : List Issue) :
    List.Forall₂ (Issue.GoesOn extra) issues issues :=
  List.forall₂_same.mpr fun _ _ => Or.inl rfl

theorem isEmpty_eq_of_forall₂ {α β : Type} {related : α → β → Prop} {items : List α}
    {items' : List β} (hitems : List.Forall₂ related items items') :
    items'.isEmpty = items.isEmpty := by
  cases hitems <;> rfl

namespace Judgement.GoesOn

variable {extra : List Line} {before after : Judgement}

theorem prepend (hgoes : GoesOn extra before after) (issues : List Issue) :
    GoesOn extra { before with issues := issues ++ before.issues }
      { after with issues := issues ++ after.issues } :=
  ⟨hgoes.line, hgoes.rule, hgoes.remark, hgoes.approximate,
    List.rel_append (Issue.forall₂_goesOn_refl extra issues) hgoes.issues⟩

theorem accepted_eq (hgoes : GoesOn extra before after) : after.accepted = before.accepted :=
  isEmpty_eq_of_forall₂ hgoes.issues

theorem evidence_eq (hgoes : GoesOn extra before after) :
    after.verdict.evidence = before.verdict.evidence := by
  rw [verdict, verdict, hgoes.rule, hgoes.line, hgoes.remark, hgoes.approximate]

theorem messages (hgoes : GoesOn extra before after) :
    List.Forall₂ (fun message message' => message' = message ∨
      ∃ line ∈ extra, message = (Issue.citesNothing line.label).message ∧
        message' = (Issue.citesForward line.label).message)
      before.verdict.messages after.verdict.messages := by
  rw [verdict, verdict, List.forall₂_map_left_iff, List.forall₂_map_right_iff]
  apply hgoes.issues.imp
  rintro issue issue' (rfl | ⟨line, hline, rfl, rfl⟩)
  · exact Or.inl rfl
  · exact Or.inr ⟨line, hline, rfl, rfl⟩

end Judgement.GoesOn

namespace Trial

/-- The validation of a proof that goes on with further lines. -/
structure GoesOn (extra : List Line) (trial longer : Trial) : Prop where
  policy : longer.policy = trial.policy
  ruleset : longer.ruleset = trial.ruleset
  checks : longer.checks = trial.checks
  lines : longer.lines = trial.lines ++ extra
  length : trial.formulas.length = trial.lines.length
  formulas : ∀ position < trial.lines.length,
    longer.formulas[position]? = trial.formulas[position]?
  frames : Frame.GoesOn trial.lines.length trial.frames longer.frames

theorem goesOn_ofLines (policy : Policy) (ruleset : Ruleset) (checks : Rule → Check)
    (lines extra : List Line) :
    GoesOn extra (ofLines policy ruleset checks lines)
      (ofLines policy ruleset checks (lines ++ extra)) := by
  refine ⟨rfl, rfl, rfl, rfl, List.length_map _, ?_, Frame.goesOn_ofLines lines extra⟩
  intro position hposition
  change position < lines.length at hposition
  rw [ofLines, ofLines, List.getElem?_map, List.getElem?_map, List.getElem?_append_left hposition]

/-- What may become of a citation when lines are appended. -/
def OutcomeGoesOn (extra : List Line) (before after : Except Issue Citation) : Prop :=
  after = before ∨ ∃ line ∈ extra, before = .error (.citesNothing line.label) ∧
    after = .error (.citesForward line.label)

variable {extra : List Line} {trial longer : Trial} {position : Nat} {line : Line}

namespace GoesOn

theorem labelled?_eq (hgoes : GoesOn extra trial longer) (hposition : position < trial.lines.length)
    (label : String) : longer.labelled? position label = trial.labelled? position label := by
  rw [labelled?, labelled?, hgoes.lines, List.take_append_of_le_length (Nat.le_of_lt hposition)]

theorem hasLabel_iff (hgoes : GoesOn extra trial longer) {label : String} :
    longer.hasLabel label = true ↔
      trial.hasLabel label = true ∨ label.isEmpty = false ∧ ∃ line ∈ extra, line.label = label := by
  simp [hasLabel, hgoes.lines, and_or_left]

theorem cite_goesOn (hgoes : GoesOn extra trial longer) (hposition : position < trial.lines.length)
    (line : Line) (discharges : Bool) (label : String) :
    OutcomeGoesOn extra (trial.cite position line discharges label)
      (longer.cite position line discharges label) := by
  unfold cite
  rw [hgoes.labelled?_eq hposition, hgoes.policy]
  split
  · exact Or.inl rfl
  · cases hlabelled : trial.labelled? position label with
    | some cited =>
        have hcited := Nat.lt_trans (labelled?_eq_some hlabelled).1 hposition
        left
        dsimp only
        rw [hgoes.frames.isAccessible_eq hcited hposition, hgoes.lines,
          List.getElem?_append_left hcited, hgoes.formulas cited hcited]
    | none =>
        by_cases hlabel : trial.hasLabel label = true
        · exact Or.inl (by rw [if_pos hlabel, if_pos (hgoes.hasLabel_iff.mpr (Or.inl hlabel))])
        · by_cases hlonger : longer.hasLabel label = true
          · obtain hbefore | ⟨_, later, hlater, rfl⟩ := hgoes.hasLabel_iff.mp hlonger
            · exact absurd hbefore hlabel
            · exact Or.inr ⟨later, hlater, if_neg hlabel, if_pos hlonger⟩
          · exact Or.inl (by rw [if_neg hlabel, if_neg hlonger])

theorem resolved_eq {outcomes outcomes' : List (Except Issue Citation)}
    (houtcomes : List.Forall₂ (OutcomeGoesOn extra) outcomes outcomes') :
    resolved outcomes' = resolved outcomes := by
  induction houtcomes with
  | nil => rfl
  | cons hhead _ ih =>
      unfold resolved at ih ⊢
      rcases hhead with rfl | ⟨later, _, rfl, rfl⟩
      · rw [List.filterMap_cons, List.filterMap_cons, ih]
      · exact ih

theorem forall₂_citationIssues {outcomes outcomes' : List (Except Issue Citation)}
    (houtcomes : List.Forall₂ (OutcomeGoesOn extra) outcomes outcomes') :
    List.Forall₂ (Issue.GoesOn extra) (citationIssues outcomes) (citationIssues outcomes') := by
  induction houtcomes with
  | nil => exact List.Forall₂.nil
  | @cons _ outcome _ _ hhead _ ih =>
      rcases hhead with rfl | ⟨later, hlater, rfl, rfl⟩
      · cases outcome with
        | ok cited => exact ih
        | error issue => exact List.Forall₂.cons (Or.inl rfl) ih
      · exact List.Forall₂.cons (Or.inr ⟨later, hlater, rfl, rfl⟩) ih

theorem formulaOf?_eq (hgoes : GoesOn extra trial longer) (line : Line) :
    longer.formulaOf? line = trial.formulaOf? line := by
  rw [formulaOf?, formulaOf?, hgoes.policy]

theorem context_eq (hgoes : GoesOn extra trial longer) (position : Nat) (line : Line)
    (citations : List Citation) :
    longer.context position line citations =
      (trial.context position line citations).within longer.frames longer.formulas := by
  rw [context, context, Context.within, hgoes.formulaOf?_eq, hgoes.policy]

theorem context_goesOn {rule : Rule} (hgoes : GoesOn extra trial longer)
    (hposition : position < trial.lines.length) :
    (trial.context position line (resolved (trial.citationOutcomes position line rule))).GoesOn
      longer.frames longer.formulas := by
  have hlength := hgoes.length
  refine ⟨?_, ?_, ?_, ?_⟩
  · exact hlength ▸ hgoes.frames
  · exact hlength ▸ hgoes.formulas
  · exact hlength ▸ hposition
  · intro cited hcited
    obtain ⟨label, _, hcite⟩ := List.mem_map.mp (mem_resolved.mp hcited)
    exact hlength ▸ Nat.lt_trans (cite_eq_ok hcite).1 hposition

theorem apply_goesOn (hgoes : GoesOn extra trial longer)
    (hchecks : ∀ rule, (trial.checks rule).Foresees) (hposition : position < trial.lines.length)
    (line : Line) (rule : Rule) :
    (trial.apply position line rule).GoesOn extra (longer.apply position line rule) := by
  have houtcomes : List.Forall₂ (OutcomeGoesOn extra) (trial.citationOutcomes position line rule)
      (longer.citationOutcomes position line rule) := by
    unfold citationOutcomes
    rw [List.forall₂_map_left_iff, List.forall₂_map_right_iff, List.forall₂_same]
    intro label _
    exact hgoes.cite_goesOn hposition line rule.signature.discharges label
  have hissues := forall₂_citationIssues houtcomes
  have hcheck : longer.checks rule (longer.context position line
      (resolved (longer.citationOutcomes position line rule))) =
      trial.checks rule (trial.context position line
        (resolved (trial.citationOutcomes position line rule))) := by
    rw [hgoes.checks, resolved_eq houtcomes, hgoes.context_eq]
    exact hchecks rule _ _ _ (hgoes.context_goesOn hposition)
  unfold citationOutcomes at hissues hcheck
  have hall := List.rel_append hissues (Issue.forall₂_goesOn_refl extra
    ((rule.signature.arityError? line.citations.length).map (Issue.arity rule)).toList)
  unfold apply
  dsimp only
  rw [hcheck, isEmpty_eq_of_forall₂ hall]
  split
  · exact ⟨rfl, rfl, rfl, rfl, hall⟩
  · split
    · exact ⟨rfl, rfl, rfl, rfl, Issue.forall₂_goesOn_refl extra _⟩
    · exact ⟨rfl, rfl, rfl, rfl, Issue.forall₂_goesOn_refl extra _⟩

theorem justify_goesOn (hgoes : GoesOn extra trial longer)
    (hchecks : ∀ rule, (trial.checks rule).Foresees) (hposition : position < trial.lines.length)
    (line : Line) :
    (trial.justify position line).GoesOn extra (longer.justify position line) := by
  unfold justify
  rw [hgoes.policy, hgoes.ruleset]
  split
  · dsimp only
    split <;> exact ⟨rfl, rfl, rfl, rfl, Issue.forall₂_goesOn_refl extra _⟩
  · split
    · exact hgoes.apply_goesOn hchecks hposition line _
    · exact ⟨rfl, rfl, rfl, rfl, Issue.forall₂_goesOn_refl extra _⟩

theorem judge_goesOn (hgoes : GoesOn extra trial longer)
    (hchecks : ∀ rule, (trial.checks rule).Foresees) (hposition : position < trial.lines.length)
    (line : Line) : (trial.judge position line).GoesOn extra (longer.judge position line) := by
  have hlabel : longer.labelIssues position line = trial.labelIssues position line := by
    rw [labelIssues, labelIssues, hgoes.labelled?_eq hposition]
  have hformula : longer.formulaIssues line = trial.formulaIssues line := by
    rw [formulaIssues, formulaIssues, hgoes.policy, hgoes.ruleset]
  have hjustify := hgoes.justify_goesOn hchecks hposition line
  rw [judge, judge, hlabel, hformula]
  exact hjustify.prepend (trial.labelIssues position line ++ trial.formulaIssues line)

theorem judgements_getElem? {judgement : Judgement} (hgoes : GoesOn extra trial longer)
    (hchecks : ∀ rule, (trial.checks rule).Foresees)
    (hjudgement : trial.judgements[position]? = some judgement) :
    ∃ after, longer.judgements[position]? = some after ∧ judgement.GoesOn extra after := by
  rw [judgements, List.getElem?_mapIdx, Option.map_eq_some_iff] at hjudgement
  obtain ⟨line, hline, rfl⟩ := hjudgement
  have hposition := (List.getElem?_eq_some_iff.mp hline).1
  refine ⟨longer.judge position line, ?_, hgoes.judge_goesOn hchecks hposition line⟩
  rw [judgements, List.getElem?_mapIdx, hgoes.lines, List.getElem?_append_left hposition, hline]
  rfl

end GoesOn

end Trial

namespace Document

/-- What is said of a line stays as it is when lines are appended to the proof, but for a citation
of no line that turns out to be one of a line appended. -/
theorem verdict_of_append (document : Document) (policy : Policy) (extra : List Line)
    (validation : Validation) (hvalidate : document.validate policy = .ok validation) :
    ∃ extended, validate policy { document with lines := document.lines ++ extra } = .ok extended ∧
      ∀ (position : Nat) (before : LineVerdict),
        validation.verdict.lines[position]? = some before →
        ∃ after : LineVerdict, extended.verdict.lines[position]? = some after ∧
          after.label = before.label ∧ after.ok = before.ok ∧ after.evidence = before.evidence ∧
          List.Forall₂ (fun message message' => message' = message ∨
            ∃ line ∈ extra, message = "Reference " ++ line.label ++ " does not exist" ∧
              message' =
                "Reference " ++ line.label ++ " is not yet available (forward reference)")
            before.messages after.messages := by
  obtain ⟨ruleset, hruleset, rfl⟩ := exists_run_of_validate hvalidate
  have hgoes := Trial.goesOn_ofLines policy ruleset Check.standard document.lines extra
  refine ⟨_, validate_eq_run hruleset, ?_⟩
  intro position before hbefore
  rw [Validation.verdict, List.getElem?_map, Option.map_eq_some_iff] at hbefore
  obtain ⟨judgement, hjudgement, rfl⟩ := hbefore
  obtain ⟨after, hafter, hstands⟩ := hgoes.judgements_getElem? Check.foresees_standard hjudgement
  refine ⟨after.verdict, ?_, congrArg Line.label hstands.line, hstands.accepted_eq,
    hstands.evidence_eq, hstands.messages⟩
  rw [Validation.verdict, List.getElem?_map]
  exact congrArg (Option.map Judgement.verdict) hafter

/-- A proof left in the middle of a subproof, with a citation that leads nowhere. -/
def unfinished : Document where
  premises := []
  conclusion := "A -> B"
  lines :=
    [ { label := "1", formula := "A", rule := "Assumption", depth := 1 }
    , { label := "2", formula := "B", rule := "Reiteration", citations := ["9"], depth := 1 } ]

/-- The line appended prolongs the subproof and has the label that was cited. -/
theorem unfinished_goes_on :
    ∃ extended,
      validate {} { unfinished with
        lines := unfinished.lines ++ [{ label := "9", formula := "B", depth := 2 }] } =
          .ok extended ∧
      ∃ after : LineVerdict, extended.verdict.lines[1]? = some after ∧ after.label = "2" ∧
        after.ok = false ∧
        after.evidence = some { rule := "Reiteration", citations := ["9"] } := by
  have hresolve : Ruleset.resolve unfinished.ruleset (Policy.defaultRuleset {}).name =
      .ok .tflBasic := by rfl
  have hbefore : (Validation.run {} Check.standard .tflBasic unfinished.premises
      unfinished.conclusion unfinished.lines).verdict.lines[1]? =
        some { label := "2", ok := false, messages := ["Reference 9 does not exist"],
               evidence := some { rule := "Reiteration", citations := ["9"] } } := by
    decide +kernel
  obtain ⟨extended, hextended, hstands⟩ := verdict_of_append unfinished {}
    [{ label := "9", formula := "B", depth := 2 }] _ (validate_eq_run hresolve)
  obtain ⟨after, hafter, hlabel, hok, hevidence, _⟩ := hstands 1 _ hbefore
  exact ⟨extended, hextended, after, hafter, hlabel, hok, hevidence⟩

end Document

end Deduction
