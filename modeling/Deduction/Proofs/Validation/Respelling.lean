import Deduction.Proofs.Check.Bare
import Deduction.Proofs.Formula.Leniency
import Deduction.Proofs.Validation.Conclusion
import Deduction.Proofs.Validation.Totality

/-!
Verdicts depend on the abstract proof and not on its spelling.

A proof is respelled by writing the same formulas and rules otherwise and by giving its lines other
labels, as long as labels stay apart. Citations then resolve to the same positions, the contexts of
the checks are the same up to words, and so are the judgements.
-/

namespace Deduction

open Formula

/-- Two texts spell the same formula strictly. -/
def SpellsSame (text text' : String) : Prop :=
  ∃ formula, parse false text = .ok formula ∧ parse false text' = .ok formula

theorem SpellsSame.parse?_eq {text text' : String} (hspells : SpellsSame text text')
    (lenient : Bool) : parse? lenient text' = parse? lenient text := by
  obtain ⟨formula, hparse, hparse'⟩ := hspells
  rw [parse?_of_strict hparse, parse?_of_strict hparse']

theorem SpellsSame.parse?_ne_none {text text' : String} (hspells : SpellsSame text text')
    (lenient : Bool) : parse? lenient text ≠ none := by
  obtain ⟨formula, hparse, -⟩ := hspells
  rw [parse?_of_strict hparse]
  exact Option.some_ne_none formula

/-- A line with its formula and its rule spelled otherwise and with other labels. -/
structure Line.Respells (rename : String → String) (line line' : Line) : Prop where
  label : line'.label = rename line.label
  formula : SpellsSame line.formula line'.formula
  rule : Rule.parse? line'.rule = Rule.parse? line.rule
  citations : line'.citations = line.citations.map rename
  depth : line'.depth = line.depth

theorem Line.Respells.bare_eq {rename : String → String} {line line' : Line}
    (hline : line.Respells rename line') : line'.bare = line.bare := by
  rw [bare, bare, hline.depth]

/-- The labels that lines carry or cite, with the empty one. -/
def namesIn (lines : List Line) : List String :=
  "" :: lines.flatMap fun line => line.label :: line.citations

/-- A renaming that keeps the labels of lines apart and leaves the empty one as it is. -/
structure KeepsApart (rename : String → String) (lines : List Line) : Prop where
  empty : rename "" = ""
  injective : ∀ name ∈ namesIn lines, ∀ name' ∈ namesIn lines,
    rename name = rename name' → name = name'

theorem label_mem_namesIn {lines : List Line} {line : Line} (hline : line ∈ lines) :
    line.label ∈ namesIn lines :=
  List.mem_cons_of_mem _ (List.mem_flatMap.mpr ⟨line, hline, List.mem_cons_self⟩)

theorem citation_mem_namesIn {lines : List Line} {line : Line} (hline : line ∈ lines)
    {label : String} (hlabel : label ∈ line.citations) : label ∈ namesIn lines :=
  List.mem_cons_of_mem _ (List.mem_flatMap.mpr ⟨line, hline, List.mem_cons_of_mem _ hlabel⟩)

namespace KeepsApart

variable {rename : String → String} {lines : List Line}

theorem beq_eq (hnames : KeepsApart rename lines) {name name' : String}
    (hname : name ∈ namesIn lines) (hname' : name' ∈ namesIn lines) :
    (rename name == rename name') = (name == name') := by
  rw [Bool.eq_iff_iff, beq_iff_eq, beq_iff_eq]
  exact ⟨hnames.injective name hname name' hname', congrArg rename⟩

theorem isEmpty_eq (hnames : KeepsApart rename lines) {name : String}
    (hname : name ∈ namesIn lines) : (rename name).isEmpty = name.isEmpty := by
  rw [Bool.eq_iff_iff, String.isEmpty_iff, String.isEmpty_iff]
  constructor
  · intro hempty
    exact hnames.injective name hname "" List.mem_cons_self (hempty.trans hnames.empty.symm)
  · rintro rfl
    exact hnames.empty

end KeepsApart

theorem map_eq_of_forall₂ {α β γ : Type} {related : α → β → Prop} {f : α → γ} {f' : β → γ}
    {items : List α} {items' : List β} (hitems : List.Forall₂ related items items')
    (hsame : ∀ a b, related a b → f' b = f a) : items'.map f' = items.map f := by
  induction hitems with
  | nil => rfl
  | cons hhead _ ih => rw [List.map_cons, List.map_cons, hsame _ _ hhead, ih]

theorem map_filter_eq_of_forall₂ {α β γ : Type} {related : α → β → Prop} {keep : α → Bool}
    {keep' : β → Bool} {f : α → γ} {f' : β → γ} {items : List α} {items' : List β}
    (hitems : List.Forall₂ related items items')
    (hkeep : ∀ a b, related a b → keep' b = keep a) (hsame : ∀ a b, related a b → f' b = f a) :
    (items'.filter keep').map f' = (items.filter keep).map f := by
  have hkept : List.Forall₂ related (items.filter keep) (items'.filter keep') :=
    List.rel_filter (fun a b hrelated =>
      iff_of_eq (congrArg (· = true) (hkeep a b hrelated).symm)) hitems
  exact map_eq_of_forall₂ hkept hsame

theorem findIdx?_eq_of_forall₂ {α β : Type} {related : α → β → Prop} {test : α → Bool}
    {test' : β → Bool} {items : List α} {items' : List β}
    (hitems : List.Forall₂ related items items')
    (htest : ∀ a b, a ∈ items → related a b → test' b = test a) :
    items'.findIdx? test' = items.findIdx? test := by
  induction hitems with
  | nil => rfl
  | cons hhead _ ih =>
      rw [List.findIdx?_cons, List.findIdx?_cons, htest _ _ List.mem_cons_self hhead,
        ih fun a b ha => htest a b (List.mem_cons_of_mem _ ha)]

/-- Whether a line is accepted, and whether its verdict is marked. -/
def Judgement.outcome (judgement : Judgement) : Bool × Bool :=
  (judgement.accepted, judgement.approximate)

theorem Judgement.outcome_eq_iff {judgement judgement' : Judgement} :
    judgement'.outcome = judgement.outcome ↔
      judgement'.accepted = judgement.accepted ∧
        judgement'.approximate = judgement.approximate :=
  Prod.mk_inj

/-- A judgement on a respelled line that comes to the same. -/
structure Judgement.Respells (rename : String → String) (judgement judgement' : Judgement) :
    Prop where
  outcome : judgement'.outcome = judgement.outcome
  line : judgement.line.Respells rename judgement'.line

theorem Judgement.Respells.accepted_eq {rename : String → String} {judgement judgement' : Judgement}
    (hrespells : judgement.Respells rename judgement') :
    judgement'.accepted = judgement.accepted :=
  (Judgement.outcome_eq_iff.mp hrespells.outcome).1

theorem Judgement.accepted_iff {judgement : Judgement} :
    judgement.accepted = true ↔ judgement.issues = [] :=
  List.isEmpty_iff

namespace Trial

theorem approximate_judge (trial : Trial) (position : Nat) (line : Line) :
    (trial.judge position line).approximate = (trial.justify position line).approximate := by
  rw [judge]

theorem formulaOf?_of_strict (trial : Trial) {line : Line} {formula : Formula}
    (hparse : parse false line.formula = .ok formula) : trial.formulaOf? line = some formula := by
  rw [formulaOf?, if_neg (by simp [isBlankText_of_strict hparse]), parse?_of_strict hparse]

theorem formulaIssues_of_strict (trial : Trial) {line : Line} {formula : Formula}
    (hparse : parse false line.formula = .ok formula) : trial.formulaIssues line = [] := by
  rw [formulaIssues, if_neg (by simp [isBlankText_of_strict hparse]), parse_of_strict hparse]

theorem citationIssues_eq_nil_iff {outcomes : List (Except Issue Citation)} :
    citationIssues outcomes = [] ↔ ∀ outcome ∈ outcomes, outcome.toOption.isSome = true := by
  rw [citationIssues, List.filterMap_eq_nil_iff]
  apply forall₂_congr
  intro outcome _
  cases outcome <;> simp [Except.toOption]

theorem outcome_apply (trial : Trial) (position : Nat) (line : Line) (rule : Rule) :
    (trial.apply position line rule).outcome =
      if citationIssues (trial.citationOutcomes position line rule) = [] ∧
          rule.signature.arityError? line.citations.length = none then
        ((trial.checks rule (trial.context position line
          (resolved (trial.citationOutcomes position line rule)))).map Finding.outcome).elim
            (false, rule.signature.heuristic)
            fun found => (found.1, found.2 || rule.signature.heuristic)
      else (false, false) := by
  unfold citationOutcomes apply Judgement.outcome Judgement.accepted
  dsimp only
  split
  · rename_i hissues
    rw [if_neg]
    · simpa using hissues
    · simpa using hissues
  · rename_i hissues
    rw [if_pos]
    · cases trial.checks rule (trial.context position line
        (resolved (line.citations.map (trial.cite position line rule.signature.discharges)))) with
      | none => rfl
      | some finding => simp [Finding.outcome]
    · simpa using hissues

theorem forall₂_judgements_of_lines {trial trial' : Trial} {related : Line → Line → Prop}
    {judged : Judgement → Judgement → Prop}
    (hlines : List.Forall₂ related trial.lines trial'.lines)
    (hjudge : ∀ position line line', line ∈ trial.lines → related line line' →
      judged (trial.judge position line) (trial'.judge position line')) :
    List.Forall₂ judged trial.judgements trial'.judgements := by
  rw [List.forall₂_iff_get] at hlines ⊢
  refine ⟨by simp [judgements, hlines.1], ?_⟩
  intro position hposition hposition'
  simp only [judgements, List.length_mapIdx] at hposition hposition'
  have hline := hlines.2 position hposition hposition'
  simp only [judgements, List.get_eq_getElem, List.getElem_mapIdx] at hline ⊢
  exact hjudge position _ _ (List.getElem_mem hposition) hline

/-- The same proof under trial, respelled. -/
structure Respells (rename : String → String) (trial trial' : Trial) : Prop where
  policy : trial'.policy = trial.policy
  ruleset : trial'.ruleset = trial.ruleset
  checks : trial'.checks = trial.checks
  lines : List.Forall₂ (Line.Respells rename) trial.lines trial'.lines
  names : KeepsApart rename trial.lines
  formulas : trial'.formulas = trial.formulas
  parsed : none ∉ trial.formulas
  length : trial.formulas.length = trial.lines.length
  frames : trial'.frames.map Frame.bare = trial.frames.map Frame.bare

theorem respells_ofLines {rename : String → String} {lines lines' : List Line}
    (hlines : List.Forall₂ (Line.Respells rename) lines lines') (hnames : KeepsApart rename lines)
    (policy : Policy) (ruleset : Ruleset) (checks : Rule → Check) :
    (ofLines policy ruleset checks lines).Respells rename
      (ofLines policy ruleset checks lines') where
  policy := rfl
  ruleset := rfl
  checks := rfl
  lines := hlines
  names := hnames
  formulas := map_eq_of_forall₂ hlines fun _ _ hline => hline.formula.parse?_eq policy.lenient
  parsed := by
    have hparsed : ∀ line ∈ lines, parse? policy.lenient line.formula ≠ none :=
      ((List.forall₂_and_left lines lines').mp (hlines.imp fun line _ hline =>
        ⟨hline.formula.parse?_ne_none policy.lenient, hline⟩)).1
    intro hnone
    obtain ⟨line, hline, hparse⟩ := List.mem_map.mp hnone
    exact hparsed line hline hparse
  length := List.length_map _
  frames := by
    have hbare : lines'.map Line.bare = lines.map Line.bare :=
      map_eq_of_forall₂ hlines fun _ _ hline => hline.bare_eq
    change (Frame.ofLines lines').map Frame.bare = (Frame.ofLines lines).map Frame.bare
    rw [← Frame.ofLines_bare, ← Frame.ofLines_bare, hbare]

namespace Respells

variable {rename : String → String} {trial trial' : Trial} {position : Nat} {line line' : Line}
  {rule : Rule}

theorem labelled?_eq (hrespells : trial.Respells rename trial') {label : String}
    (hlabel : label ∈ namesIn trial.lines) :
    trial'.labelled? position (rename label) = trial.labelled? position label := by
  rw [labelled?, labelled?, hrespells.names.isEmpty_eq hlabel,
    findIdx?_eq_of_forall₂ (List.forall₂_take position hrespells.lines)]
  intro line line' hmem hline
  rw [hline.label]
  exact hrespells.names.beq_eq (label_mem_namesIn (List.mem_of_mem_take hmem)) hlabel

theorem isAccessible_eq (hrespells : trial.Respells rename trial') (cited citing : Int) :
    Frame.isAccessible trial'.frames cited citing =
      Frame.isAccessible trial.frames cited citing := by
  rw [← Frame.isAccessible_bare trial'.frames, hrespells.frames, Frame.isAccessible_bare]

theorem cite_bare (hrespells : trial.Respells rename trial') (hline : line.Respells rename line')
    (hmem : line ∈ trial.lines) {label : String} (hlabel : label ∈ namesIn trial.lines)
    (position : Nat) (discharges : Bool) :
    (trial'.cite position line' discharges (rename label)).toOption.map Citation.bare =
      (trial.cite position line discharges label).toOption.map Citation.bare := by
  have hown := label_mem_namesIn hmem
  unfold cite
  rw [hline.label, hrespells.names.isEmpty_eq hown, hrespells.names.beq_eq hlabel hown,
    hrespells.labelled?_eq hlabel, hrespells.policy, hrespells.formulas]
  split
  · rfl
  · cases trial.labelled? position label with
    | none =>
        dsimp only
        split <;> split <;> rfl
    | some cited =>
        dsimp only
        rw [hrespells.isAccessible_eq]
        split <;> rfl

theorem resolved_bare (hrespells : trial.Respells rename trial')
    (hline : line.Respells rename line') (hmem : line ∈ trial.lines) :
    (resolved (trial'.citationOutcomes position line' rule)).map Citation.bare =
      (resolved (trial.citationOutcomes position line rule)).map Citation.bare := by
  unfold resolved citationOutcomes
  rw [hline.citations, List.map_map, List.map_filterMap, List.map_filterMap, List.filterMap_map,
    List.filterMap_map]
  apply List.filterMap_congr
  intro label hlabel
  exact hrespells.cite_bare hline hmem (citation_mem_namesIn hmem hlabel) position
    rule.signature.discharges

theorem citationIssues_eq_nil (hrespells : trial.Respells rename trial')
    (hline : line.Respells rename line') (hmem : line ∈ trial.lines) :
    citationIssues (trial'.citationOutcomes position line' rule) = [] ↔
      citationIssues (trial.citationOutcomes position line rule) = [] := by
  unfold citationOutcomes
  rw [citationIssues_eq_nil_iff, citationIssues_eq_nil_iff, hline.citations, List.map_map,
    List.forall_mem_map, List.forall_mem_map]
  apply forall₂_congr
  intro label hlabel
  have hsame := congrArg Option.isSome (hrespells.cite_bare hline hmem
    (citation_mem_namesIn hmem hlabel) position rule.signature.discharges)
  rw [Option.isSome_map, Option.isSome_map] at hsame
  rw [Function.comp_apply, hsame]

theorem context_bare (hrespells : trial.Respells rename trial')
    (hline : line.Respells rename line') (hmem : line ∈ trial.lines) :
    (trial'.context position line'
        (resolved (trial'.citationOutcomes position line' rule))).bare =
      (trial.context position line
        (resolved (trial.citationOutcomes position line rule))).bare := by
  obtain ⟨formula, hparse, hparse'⟩ := hline.formula
  simp only [context, Context.bare, hrespells.resolved_bare hline hmem, hline.bare_eq,
    formulaOf?_of_strict _ hparse, formulaOf?_of_strict _ hparse', hrespells.frames,
    hrespells.formulas, hrespells.policy]

theorem isParsed_context (hrespells : trial.Respells rename trial')
    (hline : line.Respells rename line') :
    (trial.context position line
      (resolved (trial.citationOutcomes position line rule))).IsParsed := by
  have hspelled : (trial.context position line
      (resolved (trial.citationOutcomes position line rule))).formula ≠ none := by
    obtain ⟨formula, hparse, -⟩ := hline.formula
    rw [formula_context, formulaOf?_of_strict trial hparse]
    exact Option.some_ne_none formula
  refine ⟨hspelled, ?_, hrespells.parsed⟩
  intro cited hcited hnone
  obtain ⟨label, _, hcite⟩ := List.mem_map.mp (mem_resolved.mp hcited)
  obtain ⟨_, ⟨source, hsource⟩, hformula, _⟩ := cite_eq_ok hcite
  have hposition : cited.position < trial.formulas.length := by
    rw [hrespells.length]
    exact (List.getElem?_eq_some_iff.mp hsource).1
  rw [hformula, List.getElem?_eq_getElem hposition, Option.join_some] at hnone
  exact hrespells.parsed (hnone ▸ List.getElem_mem hposition)

theorem outcome_apply_eq (hrespells : trial.Respells rename trial')
    (hline : line.Respells rename line') (hmem : line ∈ trial.lines)
    (hcheck : (trial.checks rule).IgnoresWords) :
    (trial'.apply position line' rule).outcome = (trial.apply position line rule).outcome := by
  have hlength : line'.citations.length = line.citations.length := by
    rw [hline.citations, List.length_map]
  rw [outcome_apply, outcome_apply, hlength, hrespells.checks,
    hcheck.outcome_eq (hrespells.context_bare hline hmem) (hrespells.isParsed_context hline)]
  simp only [hrespells.citationIssues_eq_nil hline hmem]

theorem outcome_justify_eq (hrespells : trial.Respells rename trial')
    (hline : line.Respells rename line') (hmem : line ∈ trial.lines)
    (hchecks : ∀ rule, trial.ruleset.allows rule = true → (trial.checks rule).IgnoresWords) :
    (trial'.justify position line').outcome = (trial.justify position line).outcome := by
  unfold justify
  rw [hline.rule, hrespells.policy, hrespells.ruleset]
  cases hrule : Rule.parse? line.rule with
  | none =>
      dsimp only
      cases trial.policy.unknownRule <;> rfl
  | some rule =>
      dsimp only
      by_cases hallows : trial.ruleset.allows rule = true
      · rw [if_pos hallows, if_pos hallows]
        exact hrespells.outcome_apply_eq hline hmem (hchecks rule hallows)
      · rw [if_neg hallows, if_neg hallows]
        rfl

theorem labelIssues_eq_nil_iff (hrespells : trial.Respells rename trial')
    (hline : line.Respells rename line') (hmem : line ∈ trial.lines) :
    trial'.labelIssues position line' = [] ↔ trial.labelIssues position line = [] := by
  have hown := label_mem_namesIn hmem
  rw [labelIssues, labelIssues, hline.label, hrespells.names.isEmpty_eq hown,
    hrespells.labelled?_eq hown]
  split
  · simp
  · split <;> simp

theorem outcome_judge_eq (hrespells : trial.Respells rename trial')
    (hline : line.Respells rename line') (hmem : line ∈ trial.lines)
    (hchecks : ∀ rule, trial.ruleset.allows rule = true → (trial.checks rule).IgnoresWords) :
    (trial'.judge position line').outcome = (trial.judge position line).outcome := by
  have hjustify : (trial'.justify position line').outcome =
      (trial.justify position line).outcome := hrespells.outcome_justify_eq hline hmem hchecks
  obtain ⟨hjustified, hmarked⟩ := Judgement.outcome_eq_iff.mp hjustify
  obtain ⟨formula, hparse, hparse'⟩ := hline.formula
  have hissues : (trial'.justify position line').issues = [] ↔
      (trial.justify position line).issues = [] := by
    rw [← Judgement.accepted_iff, ← Judgement.accepted_iff, hjustified]
  have haccepted : (trial'.judge position line').accepted =
      (trial.judge position line).accepted := by
    rw [Bool.eq_iff_iff, accepted_judge_iff, accepted_judge_iff,
      hrespells.labelIssues_eq_nil_iff hline hmem, formulaIssues_of_strict trial hparse,
      formulaIssues_of_strict trial' hparse', hissues]
  have happroximate : (trial'.judge position line').approximate =
      (trial.judge position line).approximate := by
    rw [approximate_judge, approximate_judge, hmarked]
  exact Judgement.outcome_eq_iff.mpr ⟨haccepted, happroximate⟩

/-- A respelled proof is judged line by line like the proof. -/
theorem forall₂_judgements (hrespells : trial.Respells rename trial')
    (hchecks : ∀ rule, trial.ruleset.allows rule = true → (trial.checks rule).IgnoresWords) :
    List.Forall₂ (Judgement.Respells rename) trial.judgements trial'.judgements := by
  apply forall₂_judgements_of_lines hrespells.lines
  intro position line line' hmem hline
  refine ⟨hrespells.outcome_judge_eq hline hmem hchecks, ?_⟩
  rw [line_judge, line_judge]
  exact hline

end Respells

end Trial

theorem SpellsSame.ofText_eq {text text' : String} (hspells : SpellsSame text text')
    (lenient : Bool) : Standing.ofText lenient text' = Standing.ofText lenient text := by
  obtain ⟨formula, hparse, hparse'⟩ := hspells
  rw [Standing.ofText, Standing.ofText, parse?_of_strict hparse, parse?_of_strict hparse']

theorem SpellsSame.isBlankText_eq {text text' : String} (hspells : SpellsSame text text') :
    isBlankText text = false ∧ isBlankText text' = false := by
  obtain ⟨formula, hparse, hparse'⟩ := hspells
  exact ⟨isBlankText_of_strict hparse, isBlankText_of_strict hparse'⟩

namespace Validation

variable {rename : String → String} {premises premises' : List String}
  {conclusion conclusion' : String} {lines lines' : List Line}

theorem established_eq {judgements judgements' : List Judgement} (lenient : Bool)
    (hpremises : List.Forall₂ SpellsSame premises premises')
    (hjudgements : List.Forall₂ (Judgement.Respells rename) judgements judgements') :
    established lenient premises' judgements' = established lenient premises judgements := by
  rw [established, established]
  congr 1
  · apply map_filter_eq_of_forall₂ hpremises
    · intro premise premise' hspells
      rw [hspells.isBlankText_eq.1, hspells.isBlankText_eq.2]
    · intro premise premise' hspells
      rw [hspells.ofText_eq]
  · apply map_filter_eq_of_forall₂ hjudgements
    · intro judgement judgement' hjudged
      exact hjudged.accepted_eq
    · intro judgement judgement' hjudged
      rw [hjudged.line.formula.ofText_eq, hjudged.line.depth]

variable {policy : Policy} {ruleset : Ruleset} {checks : Rule → Check}

theorem conclusionReached_run_eq (hpremises : List.Forall₂ SpellsSame premises premises')
    (hconclusion : SpellsSame conclusion conclusion')
    (hjudgements : List.Forall₂ (Judgement.Respells rename)
      (Trial.ofLines policy ruleset checks lines).judgements
      (Trial.ofLines policy ruleset checks lines').judgements) :
    (run policy checks ruleset premises' conclusion' lines').conclusionReached =
      (run policy checks ruleset premises conclusion lines).conclusionReached := by
  rw [conclusionReached_run, conclusionReached_run,
    established_eq policy.lenient hpremises hjudgements, reaches, reaches,
    hconclusion.isBlankText_eq.1, hconclusion.isBlankText_eq.2, hconclusion.ofText_eq]

theorem ok_run_eq (hconclusion : SpellsSame conclusion conclusion')
    (hjudgements : List.Forall₂ (Judgement.Respells rename)
      (Trial.ofLines policy ruleset checks lines).judgements
      (Trial.ofLines policy ruleset checks lines').judgements) :
    (run policy checks ruleset premises' conclusion' lines').ok =
      (run policy checks ruleset premises conclusion lines).ok := by
  obtain ⟨formula, hparse, hparse'⟩ := hconclusion
  have hall : (Trial.ofLines policy ruleset checks lines).judgements.all Judgement.accepted =
      (Trial.ofLines policy ruleset checks lines').judgements.all Judgement.accepted :=
    Frame.all_eq_of_forall₂ hjudgements fun _ _ hjudged =>
      hjudged.accepted_eq.symm
  rw [Bool.eq_iff_iff, ok_run_iff, ok_run_iff, ← List.all_eq_true, ← List.all_eq_true]
  exact and_congr (iff_of_eq (congrArg (· = true) hall.symm))
    (iff_of_true (exists_nonblank_of_strict hparse') (exists_nonblank_of_strict hparse))

end Validation

namespace Document

/-- A document with everything spelled otherwise: the same formulas, rules and depths, and labels
renamed so that they stay apart. -/
structure Respells (rename : String → String) (document document' : Document) : Prop where
  premises : List.Forall₂ SpellsSame document.premises document'.premises
  conclusion : SpellsSame document.conclusion document'.conclusion
  lines : List.Forall₂ (Line.Respells rename) document.lines document'.lines
  names : KeepsApart rename document.lines

/-- In truth-functional logic a proof and its respelling get the same verdicts: line by line whether
it is accepted and whether the verdict is marked, and as a whole. -/
theorem verdict_of_respells (document document' : Document) (rename : String → String)
    (policy : Policy) (ruleset : Ruleset) (htruth : ruleset.isFirstOrder = false)
    (hresolve : Ruleset.resolve document.ruleset policy.defaultRuleset.name = .ok ruleset)
    (hresolve' : Ruleset.resolve document'.ruleset policy.defaultRuleset.name = .ok ruleset)
    (hrespells : document.Respells rename document') :
    ∃ validation validation', document.validate policy = .ok validation ∧
      document'.validate policy = .ok validation' ∧
      List.Forall₂ (fun verdict verdict' : LineVerdict => verdict'.ok = verdict.ok ∧
          verdict'.evidence.map (·.approximate) = verdict.evidence.map (·.approximate))
        validation.verdict.lines validation'.verdict.lines ∧
      validation'.verdict.ok = validation.verdict.ok ∧
      validation'.verdict.conclusionReached = validation.verdict.conclusionReached := by
  have hjudgements := (Trial.respells_ofLines hrespells.lines hrespells.names policy ruleset
    Check.standard).forall₂_judgements fun rule hallows =>
      Check.ignoresWords_standard (Ruleset.mem_propositional htruth hallows)
  refine ⟨_, _, validate_eq_run hresolve, validate_eq_run hresolve', ?_, ?_, ?_⟩
  · rw [Validation.verdict, Validation.verdict, List.forall₂_map_left_iff,
      List.forall₂_map_right_iff]
    refine hjudgements.imp fun judgement judgement' hjudged => ?_
    obtain ⟨haccepted, happroximate⟩ := Judgement.outcome_eq_iff.mp hjudged.outcome
    exact ⟨haccepted, congrArg some happroximate⟩
  · exact Validation.ok_run_eq hrespells.conclusion hjudgements
  · rw [Validation.conclusionReached_verdict, Validation.conclusionReached_verdict]
    exact Validation.conclusionReached_run_eq hrespells.premises hrespells.conclusion hjudgements

/-- The contrapositive of a conditional. -/
def contraposed : Document where
  premises := ["A -> B"]
  conclusion := "!B -> !A"
  lines :=
    [ { label := "1", formula := "A -> B", rule := "Premise" }
    , { label := "2", formula := "!B", rule := "Assumption", depth := 1 }
    , { label := "3", formula := "!A", rule := "MT", citations := ["1", "2"], depth := 1 }
    , { label := "4", formula := "!B -> !A", rule := "→I", citations := ["2", "3"] } ]

def recontraposed : Document where
  premises := ["(A ⇒ B)"]
  conclusion := "~B => (¬A)"
  lines :=
    [ { label := "11", formula := "((A → B))", rule := "given" }
    , { label := "22", formula := "¬ B", rule := "hyp", depth := 1 }
    , { label := "33", formula := "~(A)", rule := "Modus Tollens", citations := ["11", "22"],
        depth := 1 }
    , { label := "44", formula := "(~B) => ¬A", rule := "Conditional Introduction",
        citations := ["22", "33"] } ]
  ruleset := some "TFL_Basic"

theorem recontraposed_is_valid :
    ∃ validation, recontraposed.validate {} = .ok validation ∧ validation.verdict.ok = true ∧
      validation.verdict.conclusionReached = true := by
  have hpremise : ∀ text ∈ ["A -> B", "(A ⇒ B)", "((A → B))"],
      parse false text = .ok (.imp (.atom "A") (.atom "B")) := by decide +kernel
  have hassumption : ∀ text ∈ ["!B", "¬ B"], parse false text = .ok (.neg (.atom "B")) := by
    decide +kernel
  have hresult : ∀ text ∈ ["!A", "~(A)"], parse false text = .ok (.neg (.atom "A")) := by
    decide +kernel
  have hconclusion : ∀ text ∈ ["!B -> !A", "~B => (¬A)", "(~B) => ¬A"],
      parse false text = .ok (.imp (.neg (.atom "B")) (.neg (.atom "A"))) := by decide +kernel
  have hrespells : contraposed.Respells (fun label => label ++ label) recontraposed := by
    refine ⟨.cons ?_ .nil, ?_, .cons ?_ (.cons ?_ (.cons ?_ (.cons ?_ .nil))), ?_⟩
    · exact ⟨_, hpremise _ (by decide), hpremise _ (by decide)⟩
    · exact ⟨_, hconclusion _ (by decide), hconclusion _ (by decide)⟩
    · exact ⟨rfl, ⟨_, hpremise _ (by decide), hpremise _ (by decide)⟩, by decide +kernel, rfl, rfl⟩
    · exact ⟨rfl, ⟨_, hassumption _ (by decide), hassumption _ (by decide)⟩, by decide +kernel,
        rfl, rfl⟩
    · exact ⟨rfl, ⟨_, hresult _ (by decide), hresult _ (by decide)⟩, by decide +kernel, rfl, rfl⟩
    · exact ⟨rfl, ⟨_, hconclusion _ (by decide), hconclusion _ (by decide)⟩, by decide +kernel,
        rfl, rfl⟩
    · exact ⟨rfl, by decide +kernel⟩
  have hresolve : Ruleset.resolve contraposed.ruleset (Policy.defaultRuleset {}).name =
      .ok .tflBasic := by rfl
  have hok : (Validation.run {} Check.standard .tflBasic contraposed.premises
      contraposed.conclusion contraposed.lines).verdict.ok = true := by decide +kernel
  have hreached : (Validation.run {} Check.standard .tflBasic contraposed.premises
      contraposed.conclusion contraposed.lines).verdict.conclusionReached = true := by
    decide +kernel
  obtain ⟨validation, validation', hvalidate, hvalidate', -, hsame, hsame'⟩ :=
    verdict_of_respells contraposed recontraposed (fun label => label ++ label) {} .tflBasic rfl
      hresolve (by decide +kernel) hrespells
  rw [validate_eq_run hresolve] at hvalidate
  obtain rfl := Except.ok.inj hvalidate
  exact ⟨validation', hvalidate', hsame.trans hok, hsame'.trans hreached⟩

end Document

end Deduction
