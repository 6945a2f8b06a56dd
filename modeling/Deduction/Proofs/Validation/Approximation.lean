import Deduction.Proofs.Check.Approximation
import Deduction.Proofs.Validation.Acceptance

namespace Deduction

/-- The line that a label cites from a position: the first before it that carries the label. -/
structure IsCited (lines : List Line) (position : Nat) (label : String) (cited : Nat)
    (source : Line) : Prop where
  before : cited < position
  found : lines[cited]? = some source
  labelled : source.label = label
  first : ∀ earlier other, earlier < cited → lines[earlier]? = some other → other.label ≠ label

theorem Rule.heuristic_iff {rule : Rule} :
    rule.signature.heuristic = true ↔ rule ∈ Ruleset.quantificational := by
  cases rule <;> decide

theorem Judgement.approximate_of_evidence {judgement : Judgement} {evidence : Evidence}
    (hevidence : judgement.verdict.evidence = some evidence) :
    evidence.approximate = judgement.approximate := by
  obtain rfl := Option.some.inj hevidence
  rfl

theorem IsCited.unique {lines : List Line} {position cited cited' : Nat} {label : String}
    {source source' : Line} (hcited : IsCited lines position label cited source)
    (hcited' : IsCited lines position label cited' source') :
    cited = cited' ∧ source = source' := by
  have heq : cited = cited' := by
    rcases Nat.lt_trichotomy cited cited' with hlt | heq | hlt
    · exact absurd hcited.labelled (hcited'.first cited source hlt hcited.found)
    · exact heq
    · exact absurd hcited'.labelled (hcited.first cited' source' hlt hcited'.found)
  subst heq
  exact ⟨rfl, Option.some.inj (hcited.found.symm.trans hcited'.found)⟩

namespace Trial

variable {trial : Trial} {position : Nat} {line : Line} {rule : Rule}

theorem isCited_of_labelled? {label : String} {cited : Nat}
    (hlabelled : trial.labelled? position label = some cited) :
    ∃ source, IsCited trial.lines position label cited source := by
  have hbefore := (labelled?_eq_some hlabelled).1
  unfold labelled? at hlabelled
  split at hlabelled
  · contradiction
  · obtain ⟨hlength, hlabel, hfirst⟩ := List.findIdx?_eq_some_iff_getElem.mp hlabelled
    refine ⟨_, hbefore, ?_, beq_iff_eq.mp hlabel, ?_⟩
    · rw [← List.getElem?_take_of_lt hbefore, List.getElem?_eq_getElem hlength]
    · intro earlier other hearlier hother hsame
      rw [← List.getElem?_take_of_lt (Nat.lt_trans hearlier hbefore)] at hother
      obtain ⟨_, rfl⟩ := List.getElem?_eq_some_iff.mp hother
      exact hfirst earlier hearlier (beq_iff_eq.mpr hsame)

theorem formulas_ofLines (policy : Policy) (ruleset : Ruleset) (checks : Rule → Check)
    {lines : List Line} (hline : lines[position]? = some line) :
    (ofLines policy ruleset checks lines).formulas[position]? =
      some (Formula.parse? policy.lenient line.formula) := by
  rw [ofLines, List.getElem?_map, hline, Option.map_some]

theorem isCited_of_cite {policy : Policy} {ruleset : Ruleset} {checks : Rule → Check}
    {lines : List Line} {discharges : Bool} {label : String} {cited : Citation}
    (hcite : (ofLines policy ruleset checks lines).cite position line discharges label =
      .ok cited) :
    ∃ source, IsCited lines position label cited.position source ∧
      cited.formula = Formula.parse? policy.lenient source.formula := by
  have hformula := (cite_eq_ok hcite).2.2.1
  obtain ⟨source, hsource⟩ := isCited_of_labelled? (labelled?_of_cite hcite)
  change IsCited lines position label cited.position source at hsource
  refine ⟨source, hsource, ?_⟩
  rw [hformula, formulas_ofLines policy ruleset checks hsource.found, Option.join_some]

theorem exists_citation {label : String}
    (hissues : citationIssues (trial.citationOutcomes position line rule) = [])
    (hlabel : label ∈ line.citations) :
    ∃ cited ∈ resolved (trial.citationOutcomes position line rule),
      trial.cite position line rule.signature.discharges label = .ok cited := by
  have houtcome : trial.cite position line rule.signature.discharges label ∈
      trial.citationOutcomes position line rule := List.mem_map_of_mem hlabel
  cases hcite : trial.cite position line rule.signature.discharges label with
  | ok cited => exact ⟨cited, mem_resolved.mpr (hcite ▸ houtcome), rfl⟩
  | error issue =>
      have hissue : issue ∈ citationIssues (trial.citationOutcomes position line rule) :=
        List.mem_filterMap.mpr ⟨.error issue, hcite ▸ houtcome, rfl⟩
      rw [hissues] at hissue
      contradiction

theorem formulaOf?_eq_parse? (hissues : trial.formulaIssues line = []) :
    trial.formulaOf? line = Formula.parse? trial.policy.lenient line.formula := by
  by_cases hblank : Formula.isBlankText line.formula = true
  · rw [formulaIssues, if_pos hblank] at hissues
    contradiction
  · rw [formulaOf?, if_neg hblank]

theorem justify_eq_apply (hrule : Rule.parse? line.rule = some rule)
    (hissues : (trial.justify position line).issues = []) :
    trial.justify position line = trial.apply position line rule := by
  rw [justify, hrule] at hissues ⊢
  dsimp only at hissues ⊢
  by_cases hallows : trial.ruleset.allows rule = true
  · rw [if_pos hallows]
  · rw [if_neg hallows] at hissues
    exact absurd hissues (List.cons_ne_nil _ _)

/-- A line that is accepted passed the check of its rule, and its mark is what the check told. -/
theorem exists_finding_of_accepted (hrule : Rule.parse? line.rule = some rule)
    (haccepted : (trial.judge position line).accepted = true) :
    trial.formulaOf? line = Formula.parse? trial.policy.lenient line.formula ∧
      citationIssues (trial.citationOutcomes position line rule) = [] ∧
      rule.signature.Allows line.citations.length ∧
      ∃ finding,
        trial.checks rule (trial.context position line
          (resolved (trial.citationOutcomes position line rule))) = some finding ∧
        finding.objections = [] ∧
        (trial.judge position line).approximate =
          (finding.approximate || rule.signature.heuristic) := by
  obtain ⟨_, hformula, hjustify⟩ := accepted_judge_iff.mp haccepted
  have happly := justify_eq_apply hrule hjustify
  rw [happly] at hjustify
  obtain ⟨hcitations, harity, finding, hfinding, hclean⟩ := exists_finding_of_apply hjustify
  refine ⟨formulaOf?_eq_parse? hformula, hcitations,
    Signature.arityError?_eq_none_iff.mp harity, finding, hfinding, hclean, ?_⟩
  rw [judge, happly, apply_eq_of_finding hcitations harity hfinding]

variable {policy : Policy} {ruleset : Ruleset} {checks : Rule → Check} {lines : List Line}

theorem hasUnparsed_context_iff
    (hformula : (ofLines policy ruleset checks lines).formulaOf? line =
      Formula.parse? policy.lenient line.formula)
    (hcitations : citationIssues
      ((ofLines policy ruleset checks lines).citationOutcomes position line rule) = []) :
    ((ofLines policy ruleset checks lines).context position line
      (resolved ((ofLines policy ruleset checks lines).citationOutcomes position line
        rule))).HasUnparsed ↔
      Formula.parse? policy.lenient line.formula = none ∨
        ∃ label ∈ line.citations, ∃ cited source, IsCited lines position label cited source ∧
          Formula.parse? policy.lenient source.formula = none := by
  rw [Context.HasUnparsed, formula_context, hformula]
  apply or_congr Iff.rfl
  constructor
  · rintro ⟨citation, hcitation, hnone⟩
    obtain ⟨label, hlabel, hcite⟩ := List.mem_map.mp (mem_resolved.mp hcitation)
    obtain ⟨source, hsource, hparse⟩ := isCited_of_cite hcite
    exact ⟨label, hlabel, citation.position, source, hsource, hparse ▸ hnone⟩
  · rintro ⟨label, hlabel, cited, source, hsource, hnone⟩
    obtain ⟨citation, hcitation, hcite⟩ := exists_citation hcitations hlabel
    obtain ⟨source', hsource', hparse⟩ := isCited_of_cite hcite
    obtain rfl := (hsource'.unique hsource).2
    exact ⟨citation, hcitation, hparse.trans hnone⟩

end Trial

/-- A formula is spelled by a line that is cited and lies in a frame and in none nested deeper. -/
def CitesWithin (lenient : Bool) (lines : List Line) (position : Nat) (line : Line) (frame : Frame)
    (formula : Formula) : Prop :=
  ∃ label ∈ line.citations, ∃ cited source, IsCited lines position label cited source ∧
    Frame.isAtLevel (Frame.ofLines lines) frame cited = true ∧
    Formula.parse? lenient source.formula = some formula

/-- A line closes a subproof that opens with a formula of some kind and in which the lines cited
contradict each other by their formulas. -/
def ClosesContradiction (lenient : Bool) (lines : List Line) (position : Nat) (line : Line)
    (assumes : Formula → Prop) : Prop :=
  ∃ frame ∈ Frame.dischargedAt (Frame.ofLines lines) position line.depth,
    ∃ opening assumption, lines[frame.start]? = some opening ∧
      Formula.parse? lenient opening.formula = some assumption ∧ assumes assumption ∧
      Formula.HasContradiction (CitesWithin lenient lines position line frame)

theorem Trial.closesContradiction_of_closesByFormulas {policy : Policy} {ruleset : Ruleset}
    {checks : Rule → Check} {lines : List Line} {position : Nat} {line : Line} {rule : Rule}
    {assumes : Formula → Prop}
    (hcloses : Check.ClosesByFormulas ((ofLines policy ruleset checks lines).context position line
      (resolved ((ofLines policy ruleset checks lines).citationOutcomes position line rule)))
      assumes) :
    ClosesContradiction policy.lenient lines position line assumes := by
  obtain ⟨frame, hframe, assumption, hat, hassumes, hcontradiction⟩ := hcloses
  have hspans := Frame.mem_ofLines_iff.mp (Frame.mem_dischargedAt.mp hframe).1
  obtain ⟨opening, hopening, _⟩ := hspans.opens
  change (ofLines policy ruleset checks lines).formulas[frame.start]? = _ at hat
  rw [formulas_ofLines policy ruleset checks hopening, Option.some.injEq] at hat
  refine ⟨frame, hframe, opening, assumption, hopening, hat, hassumes, hcontradiction.mono ?_⟩
  rintro formula ⟨citation, hcitation, hformula⟩
  obtain ⟨hresolved, hlevel⟩ := List.mem_filter.mp hcitation
  obtain ⟨label, hlabel, hcite⟩ := List.mem_map.mp (mem_resolved.mp hresolved)
  obtain ⟨source, hsource, hparse⟩ := isCited_of_cite hcite
  exact ⟨label, hlabel, citation.position, source, hsource, hlevel, hparse ▸ hformula⟩

namespace Document

theorem verdict_eq_judge {document : Document} {policy : Policy} {ruleset : Ruleset}
    {validation : Validation} {position : Nat} {line : Line} {verdict : LineVerdict}
    (hruleset : Ruleset.resolve document.ruleset policy.defaultRuleset.name = .ok ruleset)
    (hvalidate : document.validate policy = .ok validation)
    (hline : document.lines[position]? = some line)
    (hverdict : validation.verdict.lines[position]? = some verdict) :
    verdict = ((Trial.ofLines policy ruleset Check.standard document.lines).judge
      position line).verdict := by
  rw [validate_eq_run hruleset] at hvalidate
  obtain rfl := Except.ok.inj hvalidate
  rw [Validation.verdict_lines_run hline, Option.some.injEq] at hverdict
  exact hverdict.symm

theorem exists_judge_of_verdict {document : Document} {policy : Policy} {validation : Validation}
    {position : Nat} {line : Line} {verdict : LineVerdict}
    (hvalidate : document.validate policy = .ok validation)
    (hline : document.lines[position]? = some line)
    (hverdict : validation.verdict.lines[position]? = some verdict) :
    ∃ ruleset, verdict = ((Trial.ofLines policy ruleset Check.standard document.lines).judge
      position line).verdict := by
  obtain ⟨ruleset, hruleset, -⟩ := exists_run_of_validate hvalidate
  exact ⟨ruleset, verdict_eq_judge hruleset hvalidate hline hverdict⟩

/-- What the mark on an accepted line tells, rule by rule. -/
theorem approximate_of_accepted (document : Document) (policy : Policy) (validation : Validation)
    (position : Nat) (line : Line) (rule : Rule) (verdict : LineVerdict) (evidence : Evidence)
    (hvalidate : document.validate policy = .ok validation)
    (hline : document.lines[position]? = some line) (hrule : Rule.parse? line.rule = some rule)
    (hverdict : validation.verdict.lines[position]? = some verdict) (hok : verdict.ok = true)
    (hevidence : verdict.evidence = some evidence) :
    (∀ label ∈ line.citations, ∃ cited source,
      IsCited document.lines position label cited source) ∧
    (rule ∈ Ruleset.quantificational → evidence.approximate = true) ∧
    (rule ∈ [.premise, .assumption, .explosion] → evidence.approximate = false) ∧
    (rule = .explosion → ∃ label cited source, line.citations = [label] ∧
      IsCited document.lines position label cited source ∧
        (Formula.parse? policy.lenient source.formula).isSome = true) ∧
    (rule ∉ Ruleset.quantificational →
      rule ∉ [.premise, .assumption, .explosion, .negationIntro, .indirectProof] →
      (evidence.approximate = true ↔
        Formula.parse? policy.lenient line.formula = none ∨
          ∃ label ∈ line.citations, ∃ cited source,
            IsCited document.lines position label cited source ∧
              Formula.parse? policy.lenient source.formula = none)) ∧
    (rule = .negationIntro → evidence.approximate = false →
      ∃ operand, Formula.parse? policy.lenient line.formula = some (.neg operand) ∧
        ClosesContradiction policy.lenient document.lines position line
          fun assumption => assumption.agrees operand = true) ∧
    (rule = .indirectProof → evidence.approximate = false →
      ∃ conclusion, Formula.parse? policy.lenient line.formula = some conclusion ∧
        ClosesContradiction policy.lenient document.lines position line
          fun assumption => assumption.agrees (.neg conclusion) = true) := by
  obtain ⟨ruleset, rfl⟩ := exists_judge_of_verdict hvalidate hline hverdict
  obtain ⟨hformula, hcitations, hallows, finding, hfinding, hclean, hmark⟩ :=
    Trial.exists_finding_of_accepted hrule hok
  change Check.standard rule _ = some finding at hfinding
  have happroximate : evidence.approximate =
      (finding.approximate || rule.signature.heuristic) := by
    rw [Judgement.approximate_of_evidence hevidence, hmark]
  refine ⟨?_, ?_, ?_, ?_, ?_, ?_, ?_⟩
  · intro label hlabel
    obtain ⟨citation, _, hcite⟩ := Trial.exists_citation hcitations hlabel
    obtain ⟨source, hsource, _⟩ := Trial.isCited_of_cite hcite
    exact ⟨citation.position, source, hsource⟩
  · intro hquantifier
    rw [happroximate, Rule.heuristic_iff.mpr hquantifier, Bool.or_true]
  · intro hexact
    rw [happroximate, Check.approximate_of_exact hexact hfinding hclean, Bool.false_or,
      ← Bool.not_eq_true, Rule.heuristic_iff]
    revert hexact
    cases rule <;> decide
  · rintro rfl
    obtain ⟨label, hlabel⟩ := List.length_eq_one_iff.mp
      (Nat.le_antisymm (hallows.notMore 1 rfl) hallows.enough)
    obtain ⟨citation, hcitation, hcite⟩ :=
      Trial.exists_citation hcitations (hlabel ▸ List.mem_singleton_self label)
    obtain ⟨source, hsource, hparse⟩ := Trial.isCited_of_cite hcite
    refine ⟨label, citation.position, source, hlabel, hsource, ?_⟩
    rw [← hparse, Option.isSome_iff_ne_none]
    exact (Check.formula_of_explosion hfinding hclean).2 citation hcitation
  · intro hquantifier hother
    have hheuristic : rule.signature.heuristic = false := by
      rw [← Bool.not_eq_true, Rule.heuristic_iff]
      exact hquantifier
    rw [happroximate, hheuristic, Bool.or_false,
      Check.marksUnparsed_standard hquantifier hother _ _ hfinding hclean]
    exact Trial.hasUnparsed_context_iff hformula hcitations
  · rintro rfl hexact
    rw [happroximate, Bool.or_eq_false_iff] at hexact
    obtain ⟨operand, hoperand, hcloses⟩ :=
      Check.closesByFormulas_negationIntro hfinding hclean hexact.1
    rw [Trial.formula_context, hformula] at hoperand
    exact ⟨operand, hoperand, Trial.closesContradiction_of_closesByFormulas hcloses⟩
  · rintro rfl hexact
    rw [happroximate, Bool.or_eq_false_iff] at hexact
    obtain ⟨conclusion, hconclusion, hcloses⟩ :=
      Check.closesByFormulas_indirectProof hfinding hclean hexact.1
    rw [Trial.formula_context, hformula] at hconclusion
    exact ⟨conclusion, hconclusion, Trial.closesContradiction_of_closesByFormulas hcloses⟩

/-- An assumption denied because of a line that contradicts it. -/
def refutation : Document where
  premises := ["!A"]
  conclusion := "!A"
  lines :=
    [ { label := "1", formula := "A", rule := "Assumption", depth := 1 }
    , { label := "2", formula := "!A", rule := "Premise", depth := 1 }
    , { label := "3", formula := "!A", rule := "¬I", citations := ["1", "2"] } ]

theorem refutation_closes :
    ∃ operand, Formula.parse? false "!A" = some (.neg operand) ∧
      ClosesContradiction false refutation.lines 2
        { label := "3", formula := "!A", rule := "¬I", citations := ["1", "2"] }
        fun assumption => assumption.agrees operand = true := by
  have hresolve : Ruleset.resolve refutation.ruleset (Policy.defaultRuleset {}).name =
      .ok .tflBasic := by rfl
  have hverdict : (Validation.run {} Check.standard .tflBasic refutation.premises
      refutation.conclusion refutation.lines).verdict.lines[2]? =
        some { label := "3", ok := true,
               evidence := some { rule := "Negation Intro", citations := ["1", "2"],
                                  info := some "Assumption @1" } } := by
    decide +kernel
  have hrule : Rule.parse? "¬I" = some .negationIntro := by decide +kernel
  have hmark := approximate_of_accepted refutation {} _ 2
    { label := "3", formula := "!A", rule := "¬I", citations := ["1", "2"] } .negationIntro _ _
    (validate_eq_run hresolve) rfl hrule hverdict rfl rfl
  obtain ⟨_, _, _, _, _, hcloses, _⟩ := hmark
  exact hcloses rfl rfl

end Document

end Deduction
