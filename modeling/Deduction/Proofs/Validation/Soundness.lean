import Deduction.Proofs.Check.Discharge
import Deduction.Proofs.Validation.Conclusion

/-!
Soundness of validation in truth-functional logic.

A line of a proof whose lines are all accepted is true wherever the assumptions of the frames
around it are. The proof goes by the position of the line: what its check consults lies before it,
and the frames around what it cites are frames around it or a subproof that it closes. A conclusion
that is reached is a premise, or a line outside all frames, up to canonical form.
-/

namespace Deduction

open Formula

namespace Check

theorem isTruthPreserving_standard {rule : Rule} (hrule : rule ∈ Ruleset.propositional)
    (hpremise : rule ≠ .premise) (hassumption : rule ≠ .assumption)
    (hdischarges : rule.signature.discharges = false) : IsTruthPreserving (standard rule) := by
  cases rule with
  | premise => exact absurd rfl hpremise
  | assumption => exact absurd rfl hassumption
  | reiteration => exact isTruthPreserving_reiteration
  | conjunctionIntro => exact isTruthPreserving_conjunctionIntro
  | conjunctionElim => exact isTruthPreserving_conjunctionElim
  | conditionalElim => exact isTruthPreserving_conditionalElim
  | modusTollens => exact isTruthPreserving_modusTollens
  | disjunctionIntro => exact isTruthPreserving_disjunctionIntro
  | doubleNegationIntro => exact isTruthPreserving_doubleNegationIntro
  | doubleNegationElim => exact isTruthPreserving_doubleNegationElim
  | biconditionalIntro => exact isTruthPreserving_biconditionalIntro
  | biconditionalElim => exact isTruthPreserving_biconditionalElim
  | deMorgan => exact isTruthPreserving_deMorgan
  | explosion => exact isTruthPreserving_explosion
  | excludedMiddle => exact isTruthPreserving_excludedMiddle
  | disjunctiveSyllogism => exact isTruthPreserving_disjunctiveSyllogism
  | conditionalIntro | disjunctionElim | negationIntro | indirectProof => contradiction
  | universalIntro | universalElim | existentialIntro | existentialElim | quantifierConversion =>
      exact absurd hrule (by decide)

theorem closesSoundly_standard {rule : Rule} (hrule : rule ∈ Ruleset.propositional)
    (hdischarges : rule.signature.discharges = true) : ClosesSoundly (standard rule) := by
  cases rule with
  | conditionalIntro => exact closesSoundly_conditionalIntro
  | disjunctionElim => exact closesSoundly_disjunctionElim
  | negationIntro => exact closesSoundly_negationIntro
  | indirectProof => exact closesSoundly_indirectProof
  | existentialElim => exact absurd hrule (by decide)
  | _ => contradiction

end Check

/-- The line at a position spells a true formula. -/
def HoldsAt (policy : Policy) (lines : List Line) (valuation : String → Bool)
    (position : Nat) : Prop :=
  ∃ line, lines[position]? = some line ∧ Holds valuation (parse? policy.lenient line.formula)

/-- The opening line of every frame around a position spells a true formula. -/
def AssumptionsHoldAt (policy : Policy) (lines : List Line) (valuation : String → Bool)
    (position : Nat) : Prop :=
  ∀ frame ∈ Frame.around (Frame.ofLines lines) position,
    HoldsAt policy lines valuation frame.start

/-- Every line before a position is true where its assumptions are. -/
def HoldBefore (policy : Policy) (lines : List Line) (valuation : String → Bool)
    (position : Nat) : Prop :=
  ∀ earlier < position, AssumptionsHoldAt policy lines valuation earlier →
    HoldsAt policy lines valuation earlier

/-- The line at a position is a premise or an assumption at which no frame opens. -/
def IsGivenAt (lines : List Line) (position : Nat) : Prop :=
  (∃ line, lines[position]? = some line ∧
    (Rule.parse? line.rule = some .premise ∨ Rule.parse? line.rule = some .assumption)) ∧
  ∀ frame ∈ Frame.ofLines lines, frame.start ≠ position

namespace Trial

variable {trial : Trial} {valuation : String → Bool} {position : Nat} {line : Line}

/-- All lines are accepted by the standard checks in truth-functional logic, with scopes enforced
and unknown rules rejected. -/
structure Succeeds (trial : Trial) : Prop where
  checks : trial.checks = Check.standard
  formulas : trial.formulas = trial.lines.map fun line =>
    parse? trial.policy.lenient line.formula
  frames : trial.frames = Frame.ofLines trial.lines
  scope : trial.policy.enforceScope = true
  unknown : trial.policy.unknownRule = .reject
  truthFunctional : trial.ruleset.isFirstOrder = false
  accepted : ∀ judgement ∈ trial.judgements, judgement.accepted = true

namespace Succeeds

theorem accepted_judge (hsucceeds : trial.Succeeds) (hline : trial.lines[position]? = some line) :
    (trial.judge position line).accepted = true :=
  hsucceeds.accepted _ (mem_judgements.mpr ⟨position, line, hline, rfl⟩)

theorem exists_formula (hsucceeds : trial.Succeeds) (hline : trial.lines[position]? = some line) :
    ∃ formula, trial.formulaOf? line = some formula ∧
      parse? trial.policy.lenient line.formula = some formula := by
  obtain ⟨-, hissues, -⟩ := accepted_judge_iff.mp (hsucceeds.accepted_judge hline)
  exact formulaOf?_of_formulaIssues hsucceeds.truthFunctional hissues

theorem formulas_getElem? (hsucceeds : trial.Succeeds)
    (hline : trial.lines[position]? = some line) :
    trial.formulas[position]? = some (parse? trial.policy.lenient line.formula) := by
  rw [hsucceeds.formulas, List.getElem?_map, hline, Option.map_some]

theorem holds_formulas_iff (hsucceeds : trial.Succeeds) :
    Holds valuation trial.formulas[position]?.join ↔
      HoldsAt trial.policy trial.lines valuation position := by
  rw [HoldsAt, hsucceeds.formulas, List.getElem?_map]
  cases trial.lines[position]? with
  | none => simp [Holds]
  | some source => simp

/-- A line at the level of a subproof that is closed comes earlier, and its assumptions hold if
that of the subproof does. -/
theorem assumptionsHoldAt_of_isAtLevel {frame : Frame} {depth : Int} {index : Nat}
    (hassumptions : AssumptionsHoldAt trial.policy trial.lines valuation position)
    (hframe : frame ∈ Frame.dischargedAt (Frame.ofLines trial.lines) position depth)
    (hassumption : HoldsAt trial.policy trial.lines valuation frame.start)
    (hlevel : Frame.isAtLevel (Frame.ofLines trial.lines) frame index = true) :
    index < position ∧ AssumptionsHoldAt trial.policy trial.lines valuation index := by
  obtain ⟨hindex, haround⟩ := Frame.around_of_isAtLevel hframe hlevel
  refine ⟨hindex, ?_⟩
  intro other hother
  rcases haround other hother with rfl | hmem
  · exact hassumption
  · exact hassumptions other hmem

theorem supports (hsucceeds : trial.Succeeds) {discharges : Bool} {citations : List Citation}
    (hcitations : ∀ cited ∈ citations, ∃ label,
      trial.cite position line discharges label = .ok cited)
    (hearlier : HoldBefore trial.policy trial.lines valuation position)
    (hassumptions : AssumptionsHoldAt trial.policy trial.lines valuation position) :
    (trial.context position line citations).Supports valuation := by
  refine ⟨?_, ?_, ?_, ?_⟩
  · intro hnone
    change none ∈ trial.formulas at hnone
    rw [hsucceeds.formulas] at hnone
    obtain ⟨source, hmem, hsource⟩ := List.mem_map.mp hnone
    obtain ⟨index, hindex⟩ := List.getElem?_of_mem hmem
    obtain ⟨formula, -, hparse⟩ := hsucceeds.exists_formula hindex
    rw [hparse] at hsource
    exact Option.some_ne_none formula hsource
  · intro cited hmem
    obtain ⟨label, hcite⟩ := hcitations cited hmem
    obtain ⟨-, ⟨source, hsource⟩, hformula, -⟩ := cite_eq_ok hcite
    have hparsed := hsucceeds.formulas_getElem? hsource
    rw [hformula, hparsed, Option.join_some]
    exact hparsed
  · intro cited hmem haccess
    obtain ⟨label, hcite⟩ := hcitations cited hmem
    obtain ⟨hposition, -, hformula, -⟩ := cite_eq_ok hcite
    change Frame.isAccessible trial.frames cited.position position = true at haccess
    rw [hsucceeds.frames, Frame.isAccessible_iff] at haccess
    rw [hformula, hsucceeds.holds_formulas_iff]
    apply hearlier cited.position hposition
    intro frame hframe
    exact hassumptions frame (haccess frame hframe)
  · intro frame hframe hassumption index hlevel
    change frame ∈ Frame.dischargedAt trial.frames position line.depth at hframe
    change Frame.isAtLevel trial.frames frame index = true at hlevel
    rw [hsucceeds.frames] at hframe hlevel
    obtain ⟨hindex, hopen⟩ := assumptionsHoldAt_of_isAtLevel hassumptions hframe
      (hsucceeds.holds_formulas_iff.mp hassumption) hlevel
    exact hsucceeds.holds_formulas_iff.mpr (hearlier index hindex hopen)

theorem eval_of_apply (hsucceeds : trial.Succeeds) {rule : Rule} {conclusion : Formula}
    (hrule : rule ∈ Ruleset.propositional) (hpremise : rule ≠ .premise)
    (hassumption : rule ≠ .assumption) (happlied : (trial.apply position line rule).issues = [])
    (hconclusion : trial.formulaOf? line = some conclusion)
    (hearlier : HoldBefore trial.policy trial.lines valuation position)
    (hassumptions : AssumptionsHoldAt trial.policy trial.lines valuation position) :
    conclusion.eval valuation = true := by
  obtain ⟨-, -, finding, hfinding, hclean⟩ := exists_finding_of_apply happlied
  rw [hsucceeds.checks] at hfinding
  have hcitations : ∀ cited ∈ resolved (trial.citationOutcomes position line rule), ∃ label,
      trial.cite position line rule.signature.discharges label = .ok cited := by
    intro cited hcited
    obtain ⟨label, -, hcite⟩ := List.mem_map.mp (mem_resolved.mp hcited)
    exact ⟨label, hcite⟩
  have hsupports := hsucceeds.supports hcitations hearlier hassumptions
  have hformula := (formula_context trial position line
    (resolved (trial.citationOutcomes position line rule))).trans hconclusion
  cases hdischarges : rule.signature.discharges with
  | true =>
      exact Check.closesSoundly_standard hrule hdischarges valuation _ finding conclusion
        hsupports hfinding hclean hformula
  | false =>
      apply Check.isTruthPreserving_standard hrule hpremise hassumption hdischarges valuation _
        finding conclusion hfinding hclean hformula
      intro cited hcited
      obtain ⟨label, hcite⟩ := hcitations cited hcited
      exact hsupports.accessible cited hcited
        ((cite_eq_ok hcite).2.2.2 hsucceeds.scope hdischarges)

/-- One step of a proof: a line is true where its assumptions hold if every earlier line is. -/
theorem holdsAt_step (hsucceeds : trial.Succeeds)
    (hgiven : IsGivenAt trial.lines position → HoldsAt trial.policy trial.lines valuation position)
    (hposition : position < trial.lines.length)
    (hearlier : HoldBefore trial.policy trial.lines valuation position)
    (hassumptions : AssumptionsHoldAt trial.policy trial.lines valuation position) :
    HoldsAt trial.policy trial.lines valuation position := by
  by_cases hopens : ∃ frame ∈ Frame.ofLines trial.lines, frame.start = position
  · -- The line is itself the assumption of a frame around it, whatever its rule.
    obtain ⟨frame, hmem, rfl⟩ := hopens
    have hordered := (Frame.mem_ofLines_iff.mp hmem).run.run.ordered
    exact hassumptions frame (Frame.mem_around.mpr ⟨hmem, Nat.le_refl _, hordered⟩)
  · have hline := List.getElem?_eq_getElem hposition
    obtain ⟨-, -, hjustified⟩ := accepted_judge_iff.mp (hsucceeds.accepted_judge hline)
    obtain ⟨rule, hrule, hallows, happlied⟩ :=
      exists_rule_of_justify hsucceeds.unknown hjustified
    have hstart : ∀ frame ∈ Frame.ofLines trial.lines, frame.start ≠ position :=
      fun frame hmem heq => hopens ⟨frame, hmem, heq⟩
    by_cases hpremise : rule = .premise
    · exact hgiven ⟨⟨_, hline, Or.inl (hpremise ▸ hrule)⟩, hstart⟩
    · by_cases hassumption : rule = .assumption
      · exact hgiven ⟨⟨_, hline, Or.inr (hassumption ▸ hrule)⟩, hstart⟩
      · obtain ⟨conclusion, hconclusion, hparse⟩ := hsucceeds.exists_formula hline
        refine ⟨_, hline, conclusion, hparse, ?_⟩
        exact hsucceeds.eval_of_apply
          (Ruleset.mem_propositional hsucceeds.truthFunctional hallows) hpremise hassumption
          happlied hconclusion hearlier hassumptions

/-- Every line of an accepted proof is true where its assumptions hold. -/
theorem holdsAt (hsucceeds : trial.Succeeds)
    (hgiven : ∀ position, IsGivenAt trial.lines position →
      HoldsAt trial.policy trial.lines valuation position)
    (hposition : position < trial.lines.length)
    (hassumptions : AssumptionsHoldAt trial.policy trial.lines valuation position) :
    HoldsAt trial.policy trial.lines valuation position := by
  induction position using Nat.strong_induction_on with
  | _ position ih =>
      apply hsucceeds.holdsAt_step (hgiven position) hposition _ hassumptions
      intro earlier hearlier hopen
      exact ih earlier hearlier (Nat.lt_trans hearlier hposition) hopen

end Succeeds

end Trial

theorem StatesSame.eval_eq {lenient : Bool} {text other : String} {formula : Formula}
    (hstates : StatesSame lenient other text) (hparse : parse? lenient text = some formula) :
    ∃ stated, parse? lenient other = some stated ∧
      ∀ valuation, stated.eval valuation = formula.eval valuation := by
  rcases hstates with ⟨stated, formula', hstated, hformula, hagrees⟩ | ⟨_, hnone, _⟩
  · obtain rfl := Option.some.inj (hparse.symm.trans hformula)
    exact ⟨stated, hstated, eval_eq_of_agrees hagrees⟩
  · exact absurd (hparse.symm.trans hnone) (Option.some_ne_none formula)

theorem Trial.Succeeds.eval_of_reaches {trial : Trial} {valuation : String → Bool}
    {premises : List String} {conclusion : String} {formula : Formula}
    (hsucceeds : trial.Succeeds)
    (hpremises : ∀ premise ∈ premises, isBlankText premise = false →
      ∀ formula, parse? trial.policy.lenient premise = some formula →
        formula.eval valuation = true)
    (hgiven : ∀ position, IsGivenAt trial.lines position →
      HoldsAt trial.policy trial.lines valuation position)
    (hreaches : Validation.reaches trial.policy.lenient
      (Validation.established trial.policy.lenient premises trial.judgements) conclusion = true)
    (hparse : parse? trial.policy.lenient conclusion = some formula) :
    formula.eval valuation = true := by
  rcases Validation.mem_established_iff.mp (Validation.mem_of_reaches hreaches) with
    ⟨premise, hpremise, hblank, hstanding, _⟩ | ⟨judgement, hjudgement, _, hstanding, hdepth⟩
  · obtain ⟨stated, hstated, heval⟩ := (Standing.ofText_eq_iff.mp hstanding).eval_eq hparse
    rw [← heval]
    exact hpremises premise hpremise hblank stated hstated
  · obtain ⟨position, line, hline, rfl⟩ := Trial.mem_judgements.mp hjudgement
    rw [Trial.line_judge] at hstanding hdepth
    obtain ⟨stated, hstated, heval⟩ := (Standing.ofText_eq_iff.mp hstanding).eval_eq hparse
    have htop : Frame.around (Frame.ofLines trial.lines) position = [] :=
      Frame.around_eq_nil_of_level_eq_zero hline (by simp [Line.level, hdepth])
    have hassumptions : AssumptionsHoldAt trial.policy trial.lines valuation position := by
      intro frame hframe
      rw [htop] at hframe
      exact absurd hframe List.not_mem_nil
    obtain ⟨source, hsource, parsed, hparsed, htrue⟩ :=
      hsucceeds.holdsAt hgiven (List.getElem?_eq_some_iff.mp hline).1 hassumptions
    obtain rfl := Option.some.inj (hline.symm.trans hsource)
    obtain rfl := Option.some.inj (hstated.symm.trans hparsed)
    rw [← heval]
    exact htrue

namespace Document

/-- Validation in truth-functional logic is sound. Let all lines of a proof be accepted, with
scopes enforced and unknown rules rejected, and take a valuation that makes the premises true and
the premise and assumption lines at which no frame opens. Then every line is true where the
opening lines of the frames around it are, and so is the conclusion, if it is reached. -/
theorem holds_of_validate (document : Document) (policy : Policy) (ruleset : Ruleset)
    (validation : Validation) (valuation : String → Bool)
    (hscope : policy.enforceScope = true) (hunknown : policy.unknownRule = .reject)
    (hresolve : Ruleset.resolve document.ruleset policy.defaultRuleset.name = .ok ruleset)
    (hruleset : ruleset = .tflBasic ∨ ruleset = .tflDerived)
    (hvalidate : document.validate policy = .ok validation) (hok : validation.ok = true)
    (hpremises : ∀ premise ∈ document.premises, isBlankText premise = false →
      ∀ formula, parse? policy.lenient premise = some formula → formula.eval valuation = true)
    (hgiven : ∀ position, IsGivenAt document.lines position →
      HoldsAt policy document.lines valuation position) :
    (∀ position < document.lines.length,
      AssumptionsHoldAt policy document.lines valuation position →
        HoldsAt policy document.lines valuation position) ∧
    (validation.conclusionReached = true →
      ∀ formula, parse? policy.lenient document.conclusion = some formula →
        formula.eval valuation = true) := by
  rw [validate, validateWith, hresolve] at hvalidate
  obtain rfl := Except.ok.inj hvalidate
  rw [Validation.ok, Bool.and_eq_true, List.all_eq_true] at hok
  have htruth : ruleset.isFirstOrder = false := by
    rcases hruleset with rfl | rfl <;> rfl
  have hsucceeds : (Trial.ofLines policy ruleset Check.standard document.lines).Succeeds :=
    ⟨rfl, rfl, rfl, hscope, hunknown, htruth, hok.1⟩
  refine ⟨?_, ?_⟩
  · intro position hposition hassumptions
    exact hsucceeds.holdsAt hgiven hposition hassumptions
  · intro hreached formula hparse
    rw [Validation.conclusionReached_run] at hreached
    exact hsucceeds.eval_of_reaches hpremises hgiven hreached hparse

/-- Two conditionals joined through a subproof. -/
def transitivity : Document where
  premises := ["A -> B", "B -> C"]
  conclusion := "A -> C"
  lines :=
    [ { label := "1", formula := "A -> B", rule := "Premise" }
    , { label := "2", formula := "B -> C", rule := "Premise" }
    , { label := "3", formula := "A", rule := "Assumption", depth := 1 }
    , { label := "4", formula := "B", rule := "→E", citations := ["1", "3"], depth := 1 }
    , { label := "5", formula := "C", rule := "→E", citations := ["2", "4"], depth := 1 }
    , { label := "6", formula := "A -> C", rule := "→I", citations := ["3", "5"] } ]
  ruleset := some "tfl_derived"

/-- Under the valuation that makes no atom true, the subproof has a false assumption and false
lines, and the conclusion is true. -/
theorem transitivity_holds :
    ∃ validation, transitivity.validate {} = .ok validation ∧ validation.ok = true ∧
      validation.conclusionReached = true ∧
      (∀ position < 6, AssumptionsHoldAt {} transitivity.lines (fun _ => false) position →
        HoldsAt {} transitivity.lines (fun _ => false) position) ∧
      (Formula.imp (.atom "A") (.atom "C")).eval (fun _ => false) = true := by
  have hresolve : Ruleset.resolve transitivity.ruleset (Policy.defaultRuleset {}).name =
      .ok .tflDerived := by rfl
  have hvalidate : transitivity.validate {} =
      .ok (Validation.run {} Check.standard .tflDerived transitivity.premises
        transitivity.conclusion transitivity.lines) := by
    rw [validate, validateWith, hresolve]
  have hok : (Validation.run {} Check.standard .tflDerived transitivity.premises
      transitivity.conclusion transitivity.lines).ok = true := by decide +kernel
  have hreached : (Validation.run {} Check.standard .tflDerived transitivity.premises
      transitivity.conclusion transitivity.lines).conclusionReached = true := by decide +kernel
  have hfirst : parse? false "A -> B" = some (.imp (.atom "A") (.atom "B")) := by
    decide +kernel
  have hsecond : parse? false "B -> C" = some (.imp (.atom "B") (.atom "C")) := by
    decide +kernel
  have hconclusion : parse? false "A -> C" = some (.imp (.atom "A") (.atom "C")) := by
    decide +kernel
  have hpremises : ∀ premise ∈ transitivity.premises, isBlankText premise = false →
      ∀ formula, parse? false premise = some formula →
        formula.eval (fun _ => false) = true := by
    intro premise hpremise _ formula hparse
    rcases List.mem_cons.mp hpremise with rfl | hpremise
    · exact Option.some.inj (hfirst.symm.trans hparse) ▸ rfl
    · obtain rfl := List.mem_singleton.mp hpremise
      exact Option.some.inj (hsecond.symm.trans hparse) ▸ rfl
  have hgiven : ∀ position, IsGivenAt transitivity.lines position →
      HoldsAt {} transitivity.lines (fun _ => false) position := by
    rintro position ⟨⟨line, hline, hrule⟩, hstart⟩
    rcases position with _ | _ | _ | _ | _ | _ | position
    · exact ⟨_, rfl, _, hfirst, rfl⟩
    · exact ⟨_, rfl, _, hsecond, rfl⟩
    · exact absurd rfl (hstart ⟨1, 2, "3", "A", some 4, some "5"⟩ (by decide +kernel))
    · obtain rfl := Option.some.inj hline
      exact absurd hrule (by decide +kernel)
    · obtain rfl := Option.some.inj hline
      exact absurd hrule (by decide +kernel)
    · obtain rfl := Option.some.inj hline
      exact absurd hrule (by decide +kernel)
    · cases hline
  obtain ⟨hlines, htrue⟩ := holds_of_validate transitivity {} .tflDerived _ (fun _ => false) rfl rfl
    hresolve (Or.inr rfl) hvalidate hok hpremises hgiven
  exact ⟨_, hvalidate, hok, hreached, hlines, htrue hreached _ hconclusion⟩

end Document

end Deduction
