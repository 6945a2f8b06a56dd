import Deduction.Proofs.Validation.Continuation

/-!
What follows from the premises can be proved from them.

A derivation is written down line by line, each of its steps continuing the script of the steps
before. Main statement: a conclusion that holds wherever the premises do has a proof that is
accepted, and it is reached there.
-/

namespace Deduction

open Formula Deduction.Frame

variable {premises hypotheses : List Formula} {formula conclusion : Formula}

theorem reaches_premise (hmem : formula ∈ premises) (hover : Over IsStrictName formula) :
    Reaches premises hypotheses formula :=
  reaches_of_concludes .premise [] nofun hover (by decide) rfl Check.concludes_premise
    (fun _ => hmem) nofun

/-- Every derivation can be written down as a script. -/
theorem Provable.reaches (hprovable : Provable IsStrictName hypotheses formula)
    (hover : Over IsStrictName formula) : Reaches premises hypotheses formula := by
  induction hprovable with
  | hypothesis hmem => exact reaches_hypothesis hmem hover
  | @conjunctionIntro _ left right _ _ ihLeft ihRight =>
      have hsides := over_conj.mp hover
      exact reaches_of_concludes .conjunctionIntro [left, right]
        (List.forall_mem_cons.mpr ⟨ihLeft hsides.1,
          List.forall_mem_singleton.mpr (ihRight hsides.2)⟩)
        hover (by decide) rfl Check.concludes_conjunctionIntro nofun nofun
  | @conjunctionLeft _ left right hright _ ih =>
      exact reaches_of_concludes .conjunctionElim [.conj left right]
        (List.forall_mem_singleton.mpr (ih (over_conj.mpr ⟨hover, hright⟩)))
        hover (by decide) rfl (Check.concludes_conjunctionElim (Or.inl rfl)) nofun nofun
  | @conjunctionRight _ left right hleft _ ih =>
      exact reaches_of_concludes .conjunctionElim [.conj left right]
        (List.forall_mem_singleton.mpr (ih (over_conj.mpr ⟨hleft, hover⟩)))
        hover (by decide) rfl (Check.concludes_conjunctionElim (Or.inr rfl)) nofun nofun
  | @disjunctionLeft _ left right _ ih =>
      exact reaches_of_concludes .disjunctionIntro [left]
        (List.forall_mem_singleton.mpr (ih (over_disj.mp hover).1))
        hover (by decide) rfl (Check.concludes_disjunctionIntro (Or.inl rfl)) nofun nofun
  | @disjunctionRight _ left right _ ih =>
      exact reaches_of_concludes .disjunctionIntro [right]
        (List.forall_mem_singleton.mpr (ih (over_disj.mp hover).2))
        hover (by decide) rfl (Check.concludes_disjunctionIntro (Or.inr rfl)) nofun nofun
  | disjunctionElim hleft hright _ _ _ ih ihLeft ihRight =>
      exact reaches_of_cases (ih (over_disj.mpr ⟨hleft, hright⟩))
        (ihLeft (over_imp.mpr ⟨hleft, hover⟩)) (ihRight (over_imp.mpr ⟨hright, hover⟩)) hover
  | conditionalIntro _ ih => exact reaches_conditionalIntro (ih (over_imp.mp hover).2) hover
  | @conditionalElim _ left right hleft _ _ ih ihLeft =>
      exact reaches_of_concludes .conditionalElim [.imp left right, left]
        (List.forall_mem_cons.mpr ⟨ih (over_imp.mpr ⟨hleft, hover⟩),
          List.forall_mem_singleton.mpr (ihLeft hleft)⟩)
        hover (by decide) rfl Check.concludes_conditionalElim nofun nofun
  | @biconditionalIntro _ left right _ _ ihRight ihLeft =>
      have hsides := over_iff.mp hover
      exact reaches_of_concludes .biconditionalIntro [.imp left right, .imp right left]
        (List.forall_mem_cons.mpr ⟨ihRight (over_imp.mpr hsides),
          List.forall_mem_singleton.mpr (ihLeft (over_imp.mpr hsides.symm))⟩)
        hover (by decide) rfl Check.concludes_biconditionalIntro nofun nofun
  | @biconditionalRight _ left right hleft _ _ ih ihLeft =>
      exact reaches_of_concludes .biconditionalElim [.iff left right, left]
        (List.forall_mem_cons.mpr ⟨ih (over_iff.mpr ⟨hleft, hover⟩),
          List.forall_mem_singleton.mpr (ihLeft hleft)⟩)
        hover (by decide) rfl (Check.concludes_biconditionalElim (Or.inl ⟨rfl, rfl⟩)) nofun nofun
  | @biconditionalLeft _ left right hright _ _ ih ihRight =>
      exact reaches_of_concludes .biconditionalElim [.iff left right, right]
        (List.forall_mem_cons.mpr ⟨ih (over_iff.mpr ⟨hover, hright⟩),
          List.forall_mem_singleton.mpr (ihRight hright)⟩)
        hover (by decide) rfl (Check.concludes_biconditionalElim (Or.inr ⟨rfl, rfl⟩)) nofun nofun
  | negationIntro hrefuted _ _ ih ihNeg =>
      exact reaches_of_refuting .negationIntro (ih hrefuted) (ihNeg (over_neg.mpr hrefuted))
        (over_neg.mp hover) hover (by decide) rfl rfl
        (fun _ _ hrefuting => Check.passes_negationIntro hrefuting) nofun nofun
  | indirectProof hrefuted _ _ ih ihNeg =>
      exact reaches_of_refuting .indirectProof (ih hrefuted) (ihNeg (over_neg.mpr hrefuted))
        (over_neg.mpr hover) hover (by decide) rfl rfl
        (fun _ _ hrefuting => Check.passes_indirectProof hrefuting) nofun nofun

theorem exists_script (hpremises : ∀ premise ∈ premises, Over IsStrictName premise)
    (hreaches : Reaches premises premises conclusion) :
    ∃ lines position, IsScript premises lines ∧ StatesAt lines position conclusion ∧
      levelAt lines position = 0 := by
  have hall : ∀ premise ∈ premises, Reaches premises [] premise := fun premise hpremise =>
    reaches_premise hpremise (hpremises premise hpremise)
  obtain ⟨lines, cited, hcontinues, hformulas, hcited⟩ :=
    exists_derives_of_reaches hall (isScript_nil premises) nofun
  have hscope : ∀ premise ∈ premises, ∃ position, Stands lines position premise := by
    intro premise hpremise
    rw [← hformulas] at hpremise
    obtain ⟨entry, hentry, rfl⟩ := List.mem_map.mp hpremise
    exact ⟨entry.1, (hcited entry hentry).stands⟩
  obtain ⟨lines', position, hcontinues', hderives⟩ := hreaches lines hcontinues.script hscope
  exact ⟨lines', position, hcontinues'.script, hderives.stands.states,
    hderives.level.trans hcontinues.level⟩

theorem Ruleset.resolve_name (ruleset : Ruleset) (default : String) :
    resolve (some ruleset.name) default = .ok ruleset := by
  have hname : ofName? ruleset.name = some ruleset := by
    cases ruleset <;> decide +kernel
  have hsome : ruleset.name.isEmpty = false := by
    cases ruleset <;> rfl
  rw [resolve]
  simp only [hsome, Bool.false_eq_true, if_false, hname]

namespace IsScript

variable {lines : List Line}

theorem ok_run (hscript : IsScript premises lines) (hover : Over IsStrictName conclusion)
    (policy : Policy) (ruleset : Ruleset) (texts : List String) :
    (Validation.run policy Check.standard ruleset texts conclusion.render lines).ok = true := by
  refine Validation.ok_run_iff.mpr ⟨?_, exists_nonblank_of_strict (parse_render hover)⟩
  rw [Validation.judgements_run]
  intro judgement hjudgement
  obtain ⟨position, line, hline, rfl⟩ := Trial.mem_judgements.mp hjudgement
  exact hscript.accepted policy ruleset position line hline

theorem conclusionReached_run (hscript : IsScript premises lines) {position : Nat}
    (hstates : StatesAt lines position conclusion) (htop : levelAt lines position = 0)
    (policy : Policy) (ruleset : Ruleset) (texts : List String) :
    (Validation.run policy Check.standard ruleset texts conclusion.render
      lines).conclusionReached = true := by
  have hparse := parse_render hstates.spelled
  have hdepths : ∀ line ∈ lines, 0 ≤ line.depth := by
    intro line hline
    rw [hscript.nested line hline]
    exact Int.natCast_nonneg _
  obtain ⟨line, hline, hformula⟩ := hstates.line
  have hdepth : line.depth = 0 := by
    rw [hscript.nested line (List.mem_of_getElem? hline), ← levelAt_of_getElem? hline, htop]
    rfl
  have hsame : StatesSame policy.lenient line.formula conclusion.render := by
    rw [hformula]
    exact Or.inl ⟨conclusion, conclusion, parse?_of_strict hparse _, parse?_of_strict hparse _,
      agrees_self conclusion⟩
  exact (Validation.conclusionReached_run_iff hdepths).mpr ⟨isBlankText_of_strict hparse,
    Or.inr ⟨position, line, hline, hdepth, hscript.accepted policy ruleset position line hline,
      hsame⟩⟩

theorem exists_frame (hscript : IsScript premises lines) {position : Nat} {line : Line}
    (hline : lines[position]? = some line) (hrule : Rule.parse? line.rule = some .assumption) :
    ∃ frame ∈ ofLines lines, frame.start = position := by
  have hopening := hscript.opening position line hline hrule
  exact ⟨_, mem_ofLines_iff.mpr (spans_endAfterRun hline hopening (Nat.le_refl _)), rfl⟩

end IsScript

namespace Document

/-- Validation in truth-functional logic is complete. What holds wherever the premises hold has a
proof that is accepted and reaches it, whatever the policy and the ruleset. Its premise lines state
premises, and a frame opens on each of its assumptions. -/
theorem exists_proof_of_entails (premises : List Formula) (conclusion : Formula)
    (hstrict : ∀ formula ∈ conclusion :: premises, ∃ text, parse false text = .ok formula)
    (hentails : ∀ valuation, (∀ premise ∈ premises, premise.eval valuation = true) →
      conclusion.eval valuation = true) :
    ∃ lines : List Line,
      (∀ line ∈ lines, ∃ formula, parse false line.formula = .ok formula ∧
        line.formula = formula.render) ∧
      (∀ line ∈ lines, Rule.parse? line.rule = some .premise →
        ∃ premise ∈ premises, line.formula = premise.render) ∧
      (∀ (position : Nat) (line : Line), lines[position]? = some line →
        Rule.parse? line.rule = some .assumption →
          ∃ frame ∈ Frame.ofLines lines, frame.start = position) ∧
      ∀ (policy : Policy) (ruleset : Ruleset), ∃ validation,
        validate policy
          { premises := premises.map render
            conclusion := conclusion.render
            lines
            ruleset := some ruleset.name } = .ok validation ∧
        validation.verdict.ok = true ∧ validation.verdict.conclusionReached = true := by
  have hover : ∀ formula ∈ conclusion :: premises, Over IsStrictName formula := by
    intro formula hformula
    obtain ⟨text, hparse⟩ := hstrict formula hformula
    exact isNaming_isStrictName.forall_atoms_of_parse hparse
  have hconclusion := hover conclusion List.mem_cons_self
  have hpremises : ∀ premise ∈ premises, Over IsStrictName premise := fun premise hpremise =>
    hover premise (List.mem_cons_of_mem _ hpremise)
  have hprovable := Provable.of_entails hpremises hconclusion hentails
  obtain ⟨lines, position, hscript, hstates, htop⟩ :=
    exists_script hpremises (hprovable.reaches hconclusion)
  refine ⟨lines, ?_, hscript.given, fun _ _ hline hrule => hscript.exists_frame hline hrule, ?_⟩
  · intro line hline
    obtain ⟨formula, hspelled, hformula⟩ := hscript.spelled line hline
    exact ⟨formula, hformula ▸ parse_render hspelled, hformula⟩
  · intro policy ruleset
    refine ⟨_, validate_eq_run (ruleset.resolve_name _), ?_, ?_⟩
    · rw [Validation.ok_verdict]
      exact hscript.ok_run hconclusion policy ruleset _
    · rw [Validation.conclusionReached_verdict]
      exact hscript.conclusionReached_run hstates htop policy ruleset _

/-- No rule leads from a disjunction and a biconditional to a conjunction, but steps do. -/
theorem exists_proof_of_conjunction :
    ∃ lines validation,
      validate {}
        { premises := ["A v B", "A <-> B"]
          conclusion := "A ^ B"
          lines
          ruleset := some "tfl_basic" } = .ok validation ∧
      validation.verdict.ok = true ∧ validation.verdict.conclusionReached = true := by
  have hstrict : ∀ formula ∈ [Formula.conj (.atom "A") (.atom "B"),
      .disj (.atom "A") (.atom "B"), .iff (.atom "A") (.atom "B")],
      parse false formula.render = .ok formula := by
    decide +kernel
  have hentails : ∀ valuation : String → Bool,
      (∀ premise ∈ [Formula.disj (.atom "A") (.atom "B"), .iff (.atom "A") (.atom "B")],
        premise.eval valuation = true) →
      (Formula.conj (.atom "A") (.atom "B")).eval valuation = true := by
    intro valuation
    cases hleft : valuation "A" <;> cases hright : valuation "B" <;> simp [eval, hleft, hright]
  obtain ⟨lines, -, -, -, hvalidate⟩ := exists_proof_of_entails
    [.disj (.atom "A") (.atom "B"), .iff (.atom "A") (.atom "B")] (.conj (.atom "A") (.atom "B"))
    (fun formula hformula => ⟨_, hstrict formula hformula⟩) hentails
  obtain ⟨validation, hrun, hok, hreached⟩ := hvalidate {} .tflBasic
  exact ⟨lines, validation, hrun, hok, hreached⟩

end Document

end Deduction
