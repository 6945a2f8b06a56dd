import Deduction.Validation.Basic
import Mathlib.Data.List.Basic

theorem Deduction.Ruleset.mem_propositional {ruleset : Ruleset}
    (htruth : ruleset.isFirstOrder = false) {rule : Rule} (hallows : ruleset.allows rule = true) :
    rule ∈ propositional := by
  have hrules : ruleset.rules = propositional := if_neg (by simp [htruth])
  rw [allows, hrules] at hallows
  exact List.contains_iff_mem.mp hallows

namespace Deduction.Trial

variable {trial : Trial} {position : Nat} {line : Line}

@[simp] theorem line_apply (rule : Rule) : (trial.apply position line rule).line = line := by
  unfold apply
  dsimp only
  split
  · rfl
  · split <;> rfl

@[simp] theorem line_justify : (trial.justify position line).line = line := by
  unfold justify
  split
  · dsimp only
    split <;> rfl
  · split
    · exact line_apply _
    · rfl

@[simp] theorem line_judge : (trial.judge position line).line = line := by
  rw [judge]
  simp only [line_justify]

theorem accepted_judge_iff :
    (trial.judge position line).accepted = true ↔
      trial.labelIssues position line = [] ∧ trial.formulaIssues line = [] ∧
        (trial.justify position line).issues = [] := by
  simp [judge, Judgement.accepted]

theorem mem_judgements {judgement : Judgement} :
    judgement ∈ trial.judgements ↔
      ∃ position line, trial.lines[position]? = some line ∧
        judgement = trial.judge position line := by
  rw [judgements, List.mem_mapIdx]
  constructor
  · rintro ⟨position, hposition, rfl⟩
    exact ⟨position, _, List.getElem?_eq_getElem hposition, rfl⟩
  · rintro ⟨position, line, hline, rfl⟩
    obtain ⟨hposition, rfl⟩ := List.getElem?_eq_some_iff.mp hline
    exact ⟨position, hposition, rfl⟩

theorem formulaOf?_of_formulaIssues (hruleset : trial.ruleset.isFirstOrder = false)
    (hissues : trial.formulaIssues line = []) :
    ∃ formula, trial.formulaOf? line = some formula ∧
      Formula.parse? trial.policy.lenient line.formula = some formula := by
  by_cases hblank : Formula.isBlankText line.formula = true
  · rw [formulaIssues, if_pos hblank] at hissues
    contradiction
  · cases hparse : Formula.parse trial.policy.lenient line.formula with
    | ok formula =>
        have hparse? : Formula.parse? trial.policy.lenient line.formula = some formula := by
          rw [Formula.parse?, hparse]
          rfl
        exact ⟨formula, by rw [formulaOf?, if_neg hblank, hparse?], hparse?⟩
    | error error =>
        rw [formulaIssues, if_neg hblank, hparse, hruleset] at hissues
        exact absurd hissues (List.cons_ne_nil _ _)

/-- Where unknown rules are rejected, a justified line applies an available rule. -/
theorem exists_rule_of_justify (hunknown : trial.policy.unknownRule = .reject)
    (hissues : (trial.justify position line).issues = []) :
    ∃ rule, Rule.parse? line.rule = some rule ∧ trial.ruleset.allows rule = true ∧
      (trial.apply position line rule).issues = [] := by
  cases hrule : Rule.parse? line.rule with
  | none =>
      rw [justify, hrule, hunknown] at hissues
      contradiction
  | some rule =>
      by_cases hallows : trial.ruleset.allows rule = true
      · rw [justify, hrule] at hissues
        dsimp only at hissues
        rw [if_pos hallows] at hissues
        exact ⟨rule, rfl, hallows, hissues⟩
      · rw [justify, hrule] at hissues
        dsimp only at hissues
        rw [if_neg hallows] at hissues
        contradiction

/-- The outcomes of the citations of a line under a rule. -/
def citationOutcomes (trial : Trial) (position : Nat) (line : Line) (rule : Rule) :
    List (Except Issue Citation) :=
  line.citations.map (trial.cite position line rule.signature.discharges)

/-- A rule applies when every citation resolves, their number fits, and the check has no
objection. -/
theorem exists_finding_of_apply {rule : Rule}
    (hissues : (trial.apply position line rule).issues = []) :
    citationIssues (trial.citationOutcomes position line rule) = [] ∧
      rule.signature.arityError? line.citations.length = none ∧
      ∃ finding,
        trial.checks rule (trial.context position line
          (resolved (trial.citationOutcomes position line rule))) = some finding ∧
        finding.objections = [] := by
  unfold apply at hissues
  dsimp only at hissues
  split at hissues
  · rename_i hsome
    dsimp only at hissues
    rw [hissues] at hsome
    contradiction
  · rename_i hnone
    simp only [Bool.not_eq_true', Bool.not_eq_false, List.isEmpty_iff, List.append_eq_nil_iff,
      Option.toList_eq_nil_iff, Option.map_eq_none_iff] at hnone
    refine ⟨hnone.1, hnone.2, ?_⟩
    split at hissues
    · rename_i finding hfinding
      exact ⟨finding, hfinding, List.map_eq_nil_iff.mp hissues⟩
    · contradiction

theorem apply_eq_of_finding {rule : Rule} {finding : Finding}
    (hcitations : citationIssues (trial.citationOutcomes position line rule) = [])
    (harity : rule.signature.arityError? line.citations.length = none)
    (hfinding : trial.checks rule (trial.context position line
      (resolved (trial.citationOutcomes position line rule))) = some finding) :
    trial.apply position line rule =
      { line
        rule := .known rule
        issues := finding.objections.map Issue.objection
        remark := finding.remark
        approximate := finding.approximate || rule.signature.heuristic } := by
  unfold citationOutcomes at hcitations hfinding
  unfold apply
  simp only [hcitations, harity, hfinding]
  rfl

theorem formula_context (trial : Trial) (position : Nat) (line : Line)
    (citations : List Citation) :
    (trial.context position line citations).formula = trial.formulaOf? line := by
  rw [context]

theorem labelled?_eq_some {label : String} {cited : Nat}
    (hlabelled : trial.labelled? position label = some cited) :
    cited < position ∧ ∃ source, trial.lines[cited]? = some source := by
  unfold labelled? at hlabelled
  split at hlabelled
  · contradiction
  · obtain ⟨hcited, -⟩ := List.findIdx?_eq_some_iff_getElem.mp hlabelled
    rw [List.length_take, Nat.lt_min] at hcited
    exact ⟨hcited.1, _, List.getElem?_eq_getElem hcited.2⟩

theorem labelled?_of_cite {discharges : Bool} {label : String} {cited : Citation}
    (hcite : trial.cite position line discharges label = .ok cited) :
    trial.labelled? position label = some cited.position := by
  unfold cite at hcite
  split at hcite
  · contradiction
  · split at hcite
    · rename_i earlier hlabelled
      split at hcite
      · contradiction
      · obtain rfl := Except.ok.inj hcite
        exact hlabelled
    · split at hcite <;> contradiction

/-- A citation resolves to an earlier line, in scope unless the rule closes a subproof or scopes
are not enforced. -/
theorem cite_eq_ok {discharges : Bool} {label : String} {cited : Citation}
    (hcite : trial.cite position line discharges label = .ok cited) :
    cited.position < position ∧ (∃ source, trial.lines[cited.position]? = some source) ∧
      cited.formula = trial.formulas[cited.position]?.join ∧
      (trial.policy.enforceScope = true → discharges = false →
        Frame.isAccessible trial.frames cited.position position = true) := by
  unfold cite at hcite
  split at hcite
  · contradiction
  · split at hcite
    · rename_i earlier hlabelled
      obtain ⟨hearlier, hsource⟩ := labelled?_eq_some hlabelled
      split at hcite
      · contradiction
      · rename_i hscope
        obtain rfl := Except.ok.inj hcite
        refine ⟨hearlier, hsource, rfl, ?_⟩
        rintro henforced rfl
        simpa [henforced] using hscope
    · split at hcite <;> contradiction

theorem mem_resolved {outcomes : List (Except Issue Citation)} {cited : Citation} :
    cited ∈ resolved outcomes ↔ .ok cited ∈ outcomes := by
  rw [resolved, List.mem_filterMap]
  constructor
  · rintro ⟨outcome, hmem, houtcome⟩
    cases outcome with
    | ok citation => exact Option.some.inj houtcome ▸ hmem
    | error issue => contradiction
  · intro hmem
    exact ⟨.ok cited, hmem, rfl⟩

end Deduction.Trial

namespace Deduction.Validation

variable {policy : Policy} {checks : Rule → Check} {ruleset : Ruleset} {premises : List String}
  {conclusion : String} {lines : List Line} {position : Nat}

theorem verdict_lines_run {line : Line} (hline : lines[position]? = some line) :
    (run policy checks ruleset premises conclusion lines).verdict.lines[position]? =
      some ((Trial.ofLines policy ruleset checks lines).judge position line).verdict := by
  have hjudgement : (Trial.ofLines policy ruleset checks lines).judgements[position]? =
      some ((Trial.ofLines policy ruleset checks lines).judge position line) := by
    rw [Trial.judgements, List.getElem?_mapIdx]
    exact congrArg (Option.map _) hline
  rw [verdict, List.getElem?_map]
  exact congrArg (Option.map Judgement.verdict) hjudgement

theorem exists_line_of_verdict_run {verdict : LineVerdict}
    (hverdict : (run policy checks ruleset premises conclusion lines).verdict.lines[position]? =
      some verdict) :
    ∃ line, lines[position]? = some line ∧
      verdict = ((Trial.ofLines policy ruleset checks lines).judge position line).verdict := by
  have hlength : (run policy checks ruleset premises conclusion lines).verdict.lines.length =
      lines.length := (List.length_map _).trans List.length_mapIdx
  have hposition := (List.getElem?_eq_some_iff.mp hverdict).1
  rw [hlength] at hposition
  have hline := List.getElem?_eq_getElem hposition
  rw [verdict_lines_run hline, Option.some.injEq] at hverdict
  exact ⟨_, hline, hverdict.symm⟩

end Deduction.Validation

namespace Deduction.Document

theorem validate_eq_run {document : Document} {policy : Policy} {ruleset : Ruleset}
    (hruleset : Ruleset.resolve document.ruleset policy.defaultRuleset.name = .ok ruleset) :
    document.validate policy = .ok (Validation.run policy Check.standard ruleset document.premises
      document.conclusion document.lines) := by
  rw [validate, validateWith, hruleset]

theorem validate_of_unknown {document : Document} {policy : Policy} {error : UnknownRuleset}
    (hruleset : Ruleset.resolve document.ruleset policy.defaultRuleset.name = .error error) :
    document.validate policy = .error error := by
  rw [validate, validateWith, hruleset]

theorem exists_run_of_validate {document : Document} {policy : Policy} {validation : Validation}
    (hvalidate : document.validate policy = .ok validation) :
    ∃ ruleset, Ruleset.resolve document.ruleset policy.defaultRuleset.name = .ok ruleset ∧
      validation = Validation.run policy Check.standard ruleset document.premises
        document.conclusion document.lines := by
  cases hruleset : Ruleset.resolve document.ruleset policy.defaultRuleset.name with
  | error error =>
      rw [validate, validateWith, hruleset] at hvalidate
      cases hvalidate
  | ok ruleset =>
      rw [validate_eq_run hruleset] at hvalidate
      exact ⟨ruleset, rfl, (Except.ok.inj hvalidate).symm⟩

end Deduction.Document
