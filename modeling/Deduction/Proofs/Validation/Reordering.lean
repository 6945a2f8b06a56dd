import Deduction.Proofs.Check.Reordering
import Deduction.Proofs.Validation.Respelling

namespace Deduction

/-- The same line, with the labels it cites in another order if its rule takes them in any. -/
structure Line.Reorders (order : ConjunctOrder) (line line' : Line) : Prop where
  label : line'.label = line.label
  formula : line'.formula = line.formula
  rule : line'.rule = line.rule
  depth : line'.depth = line.depth
  citations : line'.citations = line.citations ∨
    line.citations.Perm line'.citations ∧
      ∃ rule, Rule.parse? line.rule = some rule ∧ rule.TakesAnyOrder order

/-- Two judgements accept lines that state the same at the same depth, or neither does. -/
structure Judgement.ComesToSame (judgement judgement' : Judgement) : Prop where
  accepted : judgement'.accepted = judgement.accepted
  formula : judgement'.line.formula = judgement.line.formula
  depth : judgement'.line.depth = judgement.line.depth

def Line.uncited (line : Line) : Line :=
  { line with citations := [] }

namespace Line.Reorders

variable {order : ConjunctOrder} {line line' : Line}

theorem eq_with (hreorders : line.Reorders order line') :
    line' = { line with citations := line'.citations } := by
  obtain ⟨label, formula, rule, citations, depth⟩ := line'
  obtain ⟨rfl, rfl, rfl, rfl, -⟩ := hreorders
  rfl

theorem uncited_eq (hreorders : line.Reorders order line') : line'.uncited = line.uncited := by
  rw [hreorders.eq_with]
  rfl

protected theorem symm (hreorders : line.Reorders order line') : line'.Reorders order line where
  label := hreorders.label.symm
  formula := hreorders.formula.symm
  rule := hreorders.rule.symm
  depth := hreorders.depth.symm
  citations := by
    rcases hreorders.citations with hsame | ⟨hperm, hrule⟩
    · exact Or.inl hsame.symm
    · exact Or.inr ⟨hperm.symm, hreorders.rule ▸ hrule⟩

end Line.Reorders

namespace Trial

theorem naming_context (trial : Trial) (position : Nat) (line : Line) (citations : List Citation) :
    (trial.context position line citations).naming line.citations =
      trial.context position line citations := by
  rw [context, Context.naming]

theorem citing_context (trial : Trial) (position : Nat) (line : Line)
    (citations citations' : List Citation) :
    (trial.context position line citations).citing citations' =
      trial.context position line citations' := by
  rw [context, context, Context.citing]

/-- The same proof under trial, with citations in another order. -/
structure Reorders (trial trial' : Trial) : Prop where
  policy : trial'.policy = trial.policy
  ruleset : trial'.ruleset = trial.ruleset
  checks : trial'.checks = trial.checks
  lines : List.Forall₂ (Line.Reorders trial.policy.conjunctOrder) trial.lines trial'.lines
  formulas : trial'.formulas = trial.formulas
  frames : trial'.frames = trial.frames

theorem reorders_ofLines {policy : Policy} {lines lines' : List Line}
    (hlines : List.Forall₂ (Line.Reorders policy.conjunctOrder) lines lines') (ruleset : Ruleset)
    (checks : Rule → Check) :
    (ofLines policy ruleset checks lines).Reorders (ofLines policy ruleset checks lines') where
  policy := rfl
  ruleset := rfl
  checks := rfl
  lines := hlines
  formulas := map_eq_of_forall₂ hlines fun _ _ hline => by rw [hline.formula]
  frames := by
    have huncited : lines'.map Line.uncited = lines.map Line.uncited :=
      map_eq_of_forall₂ hlines fun _ _ hline => hline.uncited_eq
    have hframes : ∀ lines : List Line,
        Frame.ofLines (lines.map Line.uncited) = Frame.ofLines lines :=
      Frame.ofLines_map (fun _ => rfl) (fun _ => rfl) (fun _ => rfl)
    change Frame.ofLines lines' = Frame.ofLines lines
    rw [← hframes lines', huncited, hframes]

namespace Reorders

variable {trial trial' : Trial} {position : Nat} {line line' : Line} {rule : Rule}

protected theorem symm (hreorders : trial.Reorders trial') : trial'.Reorders trial where
  policy := hreorders.policy.symm
  ruleset := hreorders.ruleset.symm
  checks := hreorders.checks.symm
  lines := by
    rw [hreorders.policy]
    exact hreorders.lines.flip.imp fun _ _ hline => hline.symm
  formulas := hreorders.formulas.symm
  frames := hreorders.frames.symm

theorem map_eq {α : Type} {f : Line → α} (hreorders : trial.Reorders trial')
    (hsame : ∀ line line', line.Reorders trial.policy.conjunctOrder line' → f line' = f line) :
    trial'.lines.map f = trial.lines.map f :=
  map_eq_of_forall₂ hreorders.lines hsame

theorem labelled?_eq (hreorders : trial.Reorders trial') (label : String) :
    trial'.labelled? position label = trial.labelled? position label := by
  rw [labelled?, labelled?, findIdx?_eq_of_forall₂ (List.forall₂_take position hreorders.lines)]
  intro line line' _ hline
  rw [hline.label]

theorem hasLabel_eq (hreorders : trial.Reorders trial') (label : String) :
    trial'.hasLabel label = trial.hasLabel label := by
  have hlabels := hreorders.map_eq fun _ _ hline => hline.label
  have hany : ∀ lines : List Line, (lines.any fun line => line.label == label) =
      (lines.map Line.label).any (· == label) := by simp [Function.comp_def]
  rw [hasLabel, hasLabel, hany, hany, hlabels]

theorem cite_eq (hreorders : trial.Reorders trial')
    (hline : line.Reorders trial.policy.conjunctOrder line') (discharges : Bool)
    (label : String) :
    trial'.cite position line' discharges label = trial.cite position line discharges label := by
  have htexts := hreorders.map_eq fun _ _ hline => hline.formula
  unfold cite
  rw [hline.label, hreorders.labelled?_eq, hreorders.policy, hreorders.frames, hreorders.formulas,
    hreorders.hasLabel_eq]
  simp only [← List.getElem?_map, htexts]

theorem formulaOf?_eq (hreorders : trial.Reorders trial')
    (hline : line.Reorders trial.policy.conjunctOrder line') :
    trial'.formulaOf? line' = trial.formulaOf? line := by
  rw [formulaOf?, formulaOf?, hline.formula, hreorders.policy]

theorem perm_citationOutcomes (hreorders : trial.Reorders trial')
    (hline : line.Reorders trial.policy.conjunctOrder line') :
    (trial.citationOutcomes position line rule).Perm
      (trial'.citationOutcomes position line' rule) := by
  have houtcomes : trial'.citationOutcomes position line' rule =
      line'.citations.map (trial.cite position line rule.signature.discharges) :=
    List.map_congr_left fun label _ => hreorders.cite_eq hline _ label
  rw [houtcomes]
  rcases hline.citations with hsame | ⟨hperm, -⟩
  · rw [hsame]
    exact List.Perm.refl _
  · exact hperm.map _

theorem context_eq (hreorders : trial.Reorders trial')
    (hline : line.Reorders trial.policy.conjunctOrder line') (citations : List Citation) :
    trial'.context position line' citations =
      (trial.context position line citations).naming line'.citations := by
  rw [context, context, Context.naming, hreorders.formulaOf?_eq hline, hreorders.frames,
    hreorders.formulas, hreorders.policy]
  dsimp only
  rw [← hline.eq_with]

theorem passes_context (hreorders : trial.Reorders trial')
    (hline : line.Reorders trial.policy.conjunctOrder line')
    (hrule : Rule.parse? line.rule = some rule)
    (hcomplete : ∀ citations, (trial.context position line citations).IsComplete)
    (hallows : rule.signature.Allows
      (resolved (trial.citationOutcomes position line rule)).length)
    (hpasses : (Check.standard rule).Passes (trial.context position line
      (resolved (trial.citationOutcomes position line rule)))) :
    (Check.standard rule).Passes (trial'.context position line'
      (resolved (trial'.citationOutcomes position line' rule))) := by
  rcases hline.citations with hsame | ⟨-, rule', hrule', horder⟩
  · have heq : line' = line := by rw [hline.eq_with, hsame]
    subst heq
    have houtcomes : trial'.citationOutcomes position line' rule =
        trial.citationOutcomes position line' rule :=
      List.map_congr_left fun label _ => hreorders.cite_eq hline _ label
    rw [hreorders.context_eq hline, houtcomes, naming_context]
    exact hpasses
  · rw [hrule, Option.some.injEq] at hrule'
    subst hrule'
    rw [hreorders.context_eq hline, Check.Passes, Check.standard_naming horder.mem_propositional,
      ← citing_context]
    exact Check.passes_citing horder (hcomplete _) hallows
      ((hreorders.perm_citationOutcomes hline).filterMap _) hpasses

theorem issues_apply (hreorders : trial.Reorders trial')
    (hline : line.Reorders trial.policy.conjunctOrder line')
    (hrule : Rule.parse? line.rule = some rule)
    (hcomplete : ∀ citations, (trial.context position line citations).IsComplete)
    (hchecks : trial.checks = Check.standard)
    (hissues : (trial.apply position line rule).issues = []) :
    (trial'.apply position line' rule).issues = [] := by
  obtain ⟨hcitations, harity, finding, hfinding, hclean⟩ := exists_finding_of_apply hissues
  have hperm : (trial.citationOutcomes position line rule).Perm
      (trial'.citationOutcomes position line' rule) := hreorders.perm_citationOutcomes hline
  have hcitations' : citationIssues (trial'.citationOutcomes position line' rule) = [] := by
    rw [citationIssues_eq_nil_iff] at hcitations ⊢
    intro outcome houtcome
    exact hcitations outcome (hperm.mem_iff.mpr houtcome)
  have hlength : line'.citations.length = line.citations.length := by
    simpa [citationOutcomes] using hperm.length_eq.symm
  have hallows : rule.signature.Allows
      (resolved (trial.citationOutcomes position line rule)).length := by
    rw [length_resolved hcitations, citationOutcomes, List.length_map]
    exact Signature.arityError?_eq_none_iff.mp harity
  rw [hchecks] at hfinding
  obtain ⟨finding', hfinding', hclean'⟩ := hreorders.passes_context hline hrule hcomplete hallows
    ⟨finding, hfinding, hclean⟩
  rw [← hchecks, ← hreorders.checks] at hfinding'
  rw [← hlength] at harity
  rw [apply_eq_of_finding hcitations' harity hfinding', hclean', List.map_nil]

theorem issues_justify (hreorders : trial.Reorders trial')
    (hline : line.Reorders trial.policy.conjunctOrder line')
    (hcomplete : ∀ citations, (trial.context position line citations).IsComplete)
    (hchecks : trial.checks = Check.standard)
    (hissues : (trial.justify position line).issues = []) :
    (trial'.justify position line').issues = [] := by
  unfold justify at hissues ⊢
  rw [hline.rule, hreorders.policy, hreorders.ruleset]
  cases hrule : Rule.parse? line.rule with
  | none =>
      rw [hrule] at hissues
      dsimp only at hissues ⊢
      split at hissues
      · rfl
      · exact absurd hissues (List.cons_ne_nil _ _)
  | some rule =>
      rw [hrule] at hissues
      dsimp only at hissues ⊢
      by_cases hallows : trial.ruleset.allows rule = true
      · rw [if_pos hallows] at hissues ⊢
        exact hreorders.issues_apply hline hrule hcomplete hchecks hissues
      · rw [if_neg hallows] at hissues
        exact absurd hissues (List.cons_ne_nil _ _)

theorem accepted_judge (hreorders : trial.Reorders trial')
    (hline : line.Reorders trial.policy.conjunctOrder line')
    (hcomplete : ∀ citations, (trial.context position line citations).IsComplete)
    (hchecks : trial.checks = Check.standard)
    (haccepted : (trial.judge position line).accepted = true) :
    (trial'.judge position line').accepted = true := by
  obtain ⟨hlabel, hformula, hjustify⟩ := accepted_judge_iff.mp haccepted
  refine accepted_judge_iff.mpr ⟨?_, ?_,
    hreorders.issues_justify hline hcomplete hchecks hjustify⟩
  · rw [labelIssues, hline.label, hreorders.labelled?_eq]
    exact hlabel
  · rw [formulaIssues, hline.formula, hreorders.policy, hreorders.ruleset]
    exact hformula

end Reorders

variable {policy : Policy} {lines lines' : List Line}

/-- Reordering works both ways, so a line is accepted in one order exactly if it is in another. -/
theorem accepted_judge_eq (hlines : List.Forall₂ (Line.Reorders policy.conjunctOrder) lines lines')
    (ruleset : Ruleset) {position : Nat} {line line' : Line}
    (hline : line.Reorders policy.conjunctOrder line') :
    ((ofLines policy ruleset Check.standard lines').judge position line').accepted =
      ((ofLines policy ruleset Check.standard lines).judge position line).accepted := by
  have hreorders := reorders_ofLines hlines ruleset Check.standard
  rw [Bool.eq_iff_iff]
  constructor
  · exact hreorders.symm.accepted_judge hline.symm
      (isComplete_context policy ruleset Check.standard lines' position line') rfl
  · exact hreorders.accepted_judge hline
      (isComplete_context policy ruleset Check.standard lines position line) rfl

theorem forall₂_judgements_of_reorders
    (hlines : List.Forall₂ (Line.Reorders policy.conjunctOrder) lines lines') (ruleset : Ruleset) :
    List.Forall₂ Judgement.ComesToSame (ofLines policy ruleset Check.standard lines).judgements
      (ofLines policy ruleset Check.standard lines').judgements := by
  refine forall₂_judgements_of_lines hlines ?_
  intro position line line' _ hline
  refine ⟨accepted_judge_eq hlines ruleset hline, ?_, ?_⟩
  · rw [line_judge, line_judge, hline.formula]
  · rw [line_judge, line_judge, hline.depth]

end Trial

/-- What a validation decides: which lines are accepted, whether the proof is valid, and whether its
conclusion is reached. -/
def Validation.decisions (validation : Validation) : List Bool × Bool × Bool :=
  (validation.verdict.lines.map LineVerdict.ok, validation.verdict.ok,
    validation.verdict.conclusionReached)

theorem Validation.decisions_run_of_reorders {policy : Policy} {lines lines' : List Line}
    (hlines : List.Forall₂ (Line.Reorders policy.conjunctOrder) lines lines') (ruleset : Ruleset)
    (premises : List String) (conclusion : String) :
    (run policy Check.standard ruleset premises conclusion lines').decisions =
      (run policy Check.standard ruleset premises conclusion lines).decisions := by
  have hjudgements := Trial.forall₂_judgements_of_reorders hlines ruleset
  have hflags : (Trial.ofLines policy ruleset Check.standard lines').judgements.map
        (LineVerdict.ok ∘ Judgement.verdict) =
      (Trial.ofLines policy ruleset Check.standard lines).judgements.map
        (LineVerdict.ok ∘ Judgement.verdict) :=
    map_eq_of_forall₂ hjudgements fun _ _ hsame => hsame.accepted
  have hall : (Trial.ofLines policy ruleset Check.standard lines').judgements.all
        Judgement.accepted =
      (Trial.ofLines policy ruleset Check.standard lines).judgements.all Judgement.accepted :=
    (Frame.all_eq_of_forall₂ hjudgements fun _ _ hsame => hsame.accepted.symm).symm
  have hestablished : established policy.lenient premises
        (Trial.ofLines policy ruleset Check.standard lines').judgements =
      established policy.lenient premises
        (Trial.ofLines policy ruleset Check.standard lines).judgements := by
    rw [established, established, map_filter_eq_of_forall₂ hjudgements]
    · exact fun _ _ hsame => hsame.accepted
    · intro judgement judgement' hsame
      rw [hsame.formula, hsame.depth]
  simp only [decisions, ok_verdict, conclusionReached_verdict, conclusionReached_run, ok,
    concluded_run, hestablished]
  simp only [verdict, List.map_map, judgements_run, hflags, hall]

namespace Document

/-- Where lines have their citations in another order that their rules take as well, the same lines
are accepted, and the proof is valid and reaches its conclusion as before. -/
theorem decisions_of_reordered_citations (document : Document) (policy : Policy)
    (lines : List Line)
    (hlines : List.Forall₂ (Line.Reorders policy.conjunctOrder) document.lines lines) :
    (validate policy { document with lines }).map Validation.decisions =
      (document.validate policy).map Validation.decisions := by
  rw [validate, validate, validateWith, validateWith]
  cases Ruleset.resolve document.ruleset policy.defaultRuleset.name with
  | error error => rfl
  | ok ruleset =>
      exact congrArg Except.ok (Validation.decisions_run_of_reorders hlines ruleset
        document.premises document.conclusion)

/-- A proof that a denial leads to a contradiction. -/
def denied : Document where
  premises := ["¬A → B", "¬B"]
  conclusion := "A"
  lines :=
    [ { label := "1", formula := "¬A → B", rule := "Premise" }
    , { label := "2", formula := "¬B", rule := "Premise" }
    , { label := "3", formula := "¬A", rule := "Assumption", depth := 1 }
    , { label := "4", formula := "B", rule := "→E", citations := ["1", "3"], depth := 1 }
    , { label := "5", formula := "¬B", rule := "R", citations := ["2"], depth := 1 }
    , { label := "6", formula := "A", rule := "IP", citations := ["3", "4", "5"] } ]

/-- The same proof with the citations of two of its lines turned round. -/
def deniedRound : List Line :=
  [ { label := "1", formula := "¬A → B", rule := "Premise" }
  , { label := "2", formula := "¬B", rule := "Premise" }
  , { label := "3", formula := "¬A", rule := "Assumption", depth := 1 }
  , { label := "4", formula := "B", rule := "→E", citations := ["3", "1"], depth := 1 }
  , { label := "5", formula := "¬B", rule := "R", citations := ["2"], depth := 1 }
  , { label := "6", formula := "A", rule := "IP", citations := ["5", "3", "4"] } ]

theorem denied_round :
    List.Forall₂ (Line.Reorders .ordered) denied.lines deniedRound ∧
      (validate {} { denied with lines := deniedRound }).map Validation.decisions =
        .ok ([true, true, true, true, true, true], true, true) := by
  have hsame : ∀ line : Line, line.Reorders .ordered line := fun line =>
    ⟨rfl, rfl, rfl, rfl, Or.inl rfl⟩
  have helim : Rule.parse? "→E" = some .conditionalElim := by decide +kernel
  have hindirect : Rule.parse? "IP" = some .indirectProof := by decide +kernel
  have hlines : List.Forall₂ (Line.Reorders .ordered) denied.lines deniedRound := by
    refine .cons (hsame _) (.cons (hsame _) (.cons (hsame _) (.cons ?_ (.cons (hsame _)
      (.cons ?_ .nil)))))
    · exact ⟨rfl, rfl, rfl, rfl, Or.inr ⟨by decide, _, helim, Or.inl (by decide)⟩⟩
    · exact ⟨rfl, rfl, rfl, rfl, Or.inr ⟨by decide, _, hindirect, Or.inl (by decide)⟩⟩
  have hresolve : Ruleset.resolve denied.ruleset (Policy.defaultRuleset {}).name =
      .ok .tflBasic := by rfl
  have hdecisions : (Validation.run {} Check.standard .tflBasic denied.premises
      denied.conclusion denied.lines).decisions =
        ([true, true, true, true, true, true], true, true) := by decide +kernel
  refine ⟨hlines, ?_⟩
  rw [decisions_of_reordered_citations denied {} deniedRound hlines, validate_eq_run hresolve,
    Except.map, hdecisions]

end Document

end Deduction
