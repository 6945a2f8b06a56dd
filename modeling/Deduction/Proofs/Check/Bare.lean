import Deduction.Proofs.Check.Extension
import Deduction.Proofs.Frame.Bare

namespace Deduction

/-- A citation without its label and text. -/
def Citation.bare (cited : Citation) : Citation :=
  { label := "", position := cited.position, text := "", formula := cited.formula }

def Sentence.bare (sentence : Sentence) : Sentence :=
  { text := [], formula := sentence.formula }

/-- Whether a finding passes the line, and whether it is marked. -/
def Finding.outcome (finding : Finding) : Bool × Bool :=
  (finding.objections.isEmpty, finding.approximate)

theorem Sentence.agrees_bare {first : Sentence} (hfirst : first.formula ≠ none)
    (second : Formula) :
    first.bare.agrees (.ofFormula second) = first.agrees (.ofFormula second) := by
  obtain ⟨a, ha⟩ := Option.ne_none_iff_exists'.mp hfirst
  simp only [agrees, bare, ofFormula, ha]

namespace Context

/-- The line under check and all lines of the proof spell formulas. -/
structure IsParsed (context : Context) : Prop where
  formula : context.formula ≠ none
  cited : ∀ cited ∈ context.citations, cited.formula ≠ none
  formulas : none ∉ context.formulas

/-- The context without labels and texts. -/
def bare (context : Context) : Context :=
  { context with
    line := context.line.bare
    citations := context.citations.map Citation.bare
    frames := context.frames.map Frame.bare }

variable (context : Context)

theorem citations_bare : context.bare.citations = context.citations.map Citation.bare := rfl

theorem dischargeable_bare : context.bare.dischargeable = context.dischargeable.map Frame.bare :=
  Frame.dischargedAt_bare context.frames context.position context.line.depth

theorem canAccess_bare (position : Nat) :
    context.bare.canAccess position = context.canAccess position :=
  Frame.isAccessible_bare context.frames position context.position

theorem citationsIn_bare (frame : Frame) :
    context.bare.citationsIn frame.bare = (context.citationsIn frame).map Citation.bare := by
  rw [citationsIn, citationsIn, citations_bare, List.filter_map]
  congr 1
  apply List.filter_congr
  intro cited _
  exact Frame.isAtLevel_bare context.frames frame cited.position

theorem mapM_formula_bare :
    context.bare.citations.mapM (·.formula) = context.citations.mapM (·.formula) := by
  rw [citations_bare, List.mapM_map]
  rfl

variable {context}

theorem contains_dischargeable_bare {frame : Frame} (hframe : frame ∈ context.frames) :
    context.bare.dischargeable.contains frame.bare = context.dischargeable.contains frame :=
  Frame.contains_dischargedAt_bare context.frames hframe context.position context.line.depth

theorem isParsed_bare : context.bare.IsParsed ↔ context.IsParsed := by
  constructor
  · intro hparsed
    exact ⟨hparsed.formula, fun cited hcited =>
      hparsed.cited cited.bare (List.mem_map_of_mem hcited), hparsed.formulas⟩
  · intro hparsed
    refine ⟨hparsed.formula, ?_, hparsed.formulas⟩
    intro cited hcited
    obtain ⟨citation, hcitation, rfl⟩ := List.mem_map.mp hcited
    exact hparsed.cited citation hcitation

theorem IsParsed.of_one {cited : Citation} (hparsed : context.IsParsed)
    (hcitations : context.citations = [cited]) :
    ∃ conclusion formula, context.formula = some conclusion ∧ cited.formula = some formula := by
  obtain ⟨conclusion, hconclusion⟩ := Option.ne_none_iff_exists'.mp hparsed.formula
  obtain ⟨formula, hformula⟩ :=
    Option.ne_none_iff_exists'.mp (hparsed.cited cited (by simp [hcitations]))
  exact ⟨conclusion, formula, hconclusion, hformula⟩

theorem IsParsed.of_two {first second : Citation} (hparsed : context.IsParsed)
    (hcitations : context.citations = [first, second]) :
    ∃ conclusion a b, context.formula = some conclusion ∧ first.formula = some a ∧
      second.formula = some b := by
  obtain ⟨conclusion, hconclusion⟩ := Option.ne_none_iff_exists'.mp hparsed.formula
  obtain ⟨a, ha⟩ := Option.ne_none_iff_exists'.mp (hparsed.cited first (by simp [hcitations]))
  obtain ⟨b, hb⟩ := Option.ne_none_iff_exists'.mp (hparsed.cited second (by simp [hcitations]))
  exact ⟨conclusion, a, b, hconclusion, ha, hb⟩

end Context

namespace Check

/-- Whether a check passes a line, and whether it marks it, is settled without labels and texts. -/
def IgnoresWords (check : Check) : Prop :=
  ∀ context : Context, context.IsParsed →
    (check context.bare).map Finding.outcome = (check context).map Finding.outcome

theorem IgnoresWords.outcome_eq {check : Check} (hcheck : check.IgnoresWords)
    {context context' : Context} (hbare : context'.bare = context.bare)
    (hparsed : context.IsParsed) :
    (check context').map Finding.outcome = (check context).map Finding.outcome := by
  have hparsed' : context'.IsParsed := by
    rw [← Context.isParsed_bare, hbare, Context.isParsed_bare]
    exact hparsed
  rw [← hcheck context' hparsed', hbare, hcheck context hparsed]

theorem ignoresWords_reiteration : IgnoresWords reiteration := by
  intro context hparsed
  unfold reiteration
  rw [Context.citations_bare]
  rcases hcitations : context.citations with _ | ⟨cited, _ | ⟨other, rest⟩⟩
  · rfl
  · obtain ⟨conclusion, formula, hconclusion, hformula⟩ := hparsed.of_one hcitations
    simp only [List.map_cons, List.map_nil, Context.bare, Citation.bare, hconclusion, hformula]
  · rfl

theorem ignoresWords_conjunctionElim : IgnoresWords conjunctionElim := by
  intro context hparsed
  unfold conjunctionElim
  rw [Context.citations_bare]
  rcases hcitations : context.citations with _ | ⟨cited, _ | ⟨other, rest⟩⟩
  · rfl
  · obtain ⟨conclusion, formula, hconclusion, hformula⟩ := hparsed.of_one hcitations
    simp only [List.map_cons, List.map_nil, Context.bare, Citation.bare, hconclusion, hformula]
    cases formula <;> rfl
  · rfl

theorem ignoresWords_explosion : IgnoresWords explosion := by
  intro context hparsed
  unfold explosion
  rw [Context.citations_bare]
  rcases hcitations : context.citations with _ | ⟨cited, _ | ⟨other, rest⟩⟩
  · rfl
  · obtain ⟨conclusion, formula, hconclusion, hformula⟩ := hparsed.of_one hcitations
    simp only [List.map_cons, List.map_nil, Citation.bare, hformula]
  · rfl

theorem ignoresWords_conjunctionIntro : IgnoresWords conjunctionIntro := by
  intro context hparsed
  unfold conjunctionIntro
  rw [Context.citations_bare]
  rcases hcitations : context.citations with _ | ⟨first, _ | ⟨second, _ | ⟨other, rest⟩⟩⟩
  · rfl
  · rfl
  · obtain ⟨conclusion, a, b, hconclusion, ha, hb⟩ := hparsed.of_two hcitations
    simp only [List.map_cons, List.map_nil, Context.bare, Citation.bare, hconclusion, ha, hb]
    cases conclusion <;> rfl
  · rfl

theorem ignoresWords_conditionalElim : IgnoresWords conditionalElim := by
  intro context hparsed
  unfold conditionalElim
  rw [Context.citations_bare]
  rcases hcitations : context.citations with _ | ⟨first, _ | ⟨second, _ | ⟨other, rest⟩⟩⟩
  · rfl
  · rfl
  · obtain ⟨conclusion, a, b, hconclusion, ha, hb⟩ := hparsed.of_two hcitations
    simp only [List.map_cons, List.map_nil, Context.bare, Citation.bare, hconclusion, ha, hb]
  · rfl

theorem ignoresWords_whenParsed {judge : Context → Formula → List Formula → Option Finding}
    (hjudge : ∀ (context : Context) conclusion cited,
      (judge context.bare conclusion cited).map Finding.outcome =
        (judge context conclusion cited).map Finding.outcome) :
    IgnoresWords fun context => context.whenParsed (judge context) := by
  intro context hparsed
  obtain ⟨conclusion, hconclusion⟩ := Option.ne_none_iff_exists'.mp hparsed.formula
  have hbare : context.bare.formula = some conclusion := hconclusion
  unfold Context.whenParsed
  dsimp only
  rw [Context.mapM_formula_bare, hbare, hconclusion]
  cases context.citations.mapM (·.formula) with
  | none => rfl
  | some cited => exact hjudge context conclusion cited

theorem compare_bare {first second : Citation} (hfirst : first.formula ≠ none)
    (hsecond : second.formula ≠ none) :
    contradiction?.compare first.bare second.bare = contradiction?.compare first second := by
  obtain ⟨a, ha⟩ := Option.ne_none_iff_exists'.mp hfirst
  obtain ⟨b, hb⟩ := Option.ne_none_iff_exists'.mp hsecond
  simp only [contradiction?.compare, Citation.bare, ha, hb]

theorem search_bare {citations : List Citation}
    (hparsed : ∀ cited ∈ citations, cited.formula ≠ none) :
    contradiction?.search (citations.map Citation.bare) = contradiction?.search citations := by
  induction citations with
  | nil => rfl
  | cons first rest ih =>
      have hfirst := hparsed first List.mem_cons_self
      have hrest : ∀ cited ∈ rest, cited.formula ≠ none := fun cited hmem =>
        hparsed cited (List.mem_cons_of_mem first hmem)
      have hfound : (rest.map Citation.bare).findSome? (contradiction?.compare first.bare) =
          rest.findSome? (contradiction?.compare first) := by
        rw [List.findSome?_map]
        exact findSome?_congr fun second hsecond => compare_bare hfirst (hrest second hsecond)
      rw [List.map_cons, contradiction?.search, contradiction?.search, hfound, ih hrest]

theorem contradiction?_bare {citations : List Citation}
    (hparsed : ∀ cited ∈ citations, cited.formula ≠ none) :
    contradiction? (citations.map Citation.bare) = contradiction? citations := by
  rw [contradiction?, contradiction?, search_bare hparsed, List.any_map]
  rfl

theorem outcome_dischargeByContradiction_bare {context : Context} (hparsed : context.IsParsed)
    (candidates : List Frame) (textual : Bool) (missing : Objection) :
    (dischargeByContradiction context.bare (candidates.map Frame.bare) textual missing).outcome =
      (dischargeByContradiction context candidates textual missing).outcome := by
  cases candidates with
  | nil => rfl
  | cons first rest =>
      have hfound : ((first :: rest).map Frame.bare).findSome? (fun frame =>
          (contradiction? (context.bare.citationsIn frame)).map fun byText => (frame, byText)) =
          ((first :: rest).findSome? fun frame => (contradiction? (context.citationsIn frame)).map
            fun byText => (frame, byText)).map fun found => (found.1.bare, found.2) := by
        rw [List.findSome?_map, List.map_findSome?]
        apply findSome?_congr
        intro frame _
        have hcited : ∀ cited ∈ context.citationsIn frame, cited.formula ≠ none :=
          fun cited hmem => hparsed.cited cited (List.mem_filter.mp hmem).1
        rw [Function.comp_apply, Function.comp_apply, Context.citationsIn_bare,
          contradiction?_bare hcited, Option.map_map]
        rfl
      rw [List.map_cons] at hfound ⊢
      unfold dischargeByContradiction
      dsimp only
      rw [hfound]
      cases (first :: rest).findSome? fun frame =>
        (contradiction? (context.citationsIn frame)).map fun byText => (frame, byText) <;> rfl

theorem assumptions?_bare (context : Context) :
    assumptions? context.bare =
      (assumptions? context).map (List.map (Prod.map Frame.bare Sentence.bare)) := by
  rw [assumptions?, assumptions?, Context.dischargeable_bare]
  apply mapM_map_of_step
  intro frame
  dsimp only [Context.bare, Frame.start_bare]
  cases context.formulas[frame.start]? <;> rfl

theorem formula_ne_none_of_mem_assumptions? {context : Context} (hparsed : context.IsParsed)
    {assumed : List (Frame × Sentence)} (hassumed : assumptions? context = some assumed)
    {entry : Frame × Sentence} (hentry : entry ∈ assumed) : entry.2.formula ≠ none := by
  have hat := (mem_assumptions? hassumed hentry).2
  rintro hnone
  rw [hnone] at hat
  exact hparsed.formulas (List.mem_of_getElem? hat)

theorem outcome_discharge_bare {context : Context} (hparsed : context.IsParsed)
    {assumed : List (Frame × Sentence)} {fits fits' textual textual' : Frame × Sentence → Bool}
    (hfits : ∀ entry ∈ assumed, fits' (entry.map Frame.bare Sentence.bare) = fits entry)
    (htextual : ∀ entry ∈ assumed, textual' (entry.map Frame.bare Sentence.bare) = textual entry)
    (missing : Objection) :
    (dischargeByContradiction context.bare
        (((assumed.map (Prod.map Frame.bare Sentence.bare)).filter fits').map (·.1))
        ((assumed.map (Prod.map Frame.bare Sentence.bare)).any textual') missing).outcome =
      (dischargeByContradiction context ((assumed.filter fits).map (·.1)) (assumed.any textual)
        missing).outcome := by
  have hcandidates : ((assumed.map (Prod.map Frame.bare Sentence.bare)).filter fits').map (·.1) =
      ((assumed.filter fits).map (·.1)).map Frame.bare := by
    rw [List.filter_map, List.map_map, List.map_map, ← List.filter_congr hfits]
    rfl
  have hany : (assumed.map (Prod.map Frame.bare Sentence.bare)).any textual' =
      assumed.any textual := by
    rw [List.any_map, Bool.eq_iff_iff, List.any_eq_true, List.any_eq_true]
    apply exists_congr
    intro entry
    apply and_congr_right
    intro hentry
    rw [Function.comp_apply, htextual entry hentry]
  rw [hcandidates, hany]
  exact outcome_dischargeByContradiction_bare hparsed _ _ missing

theorem ignoresWords_negationIntro : IgnoresWords negationIntro := by
  intro context hparsed
  obtain ⟨conclusion, hconclusion⟩ := Option.ne_none_iff_exists'.mp hparsed.formula
  have hbare : context.bare.formula = some conclusion := hconclusion
  cases conclusion with
  | neg operand =>
      have htarget : negationTarget? context = some (.ofFormula operand) := by
        rw [negationTarget?, hconclusion]
      have htarget' : negationTarget? context.bare = some (.ofFormula operand) := by
        rw [negationTarget?, hbare]
      unfold negationIntro
      rw [htarget, htarget', assumptions?_bare]
      cases hassumed : assumptions? context with
      | none => rfl
      | some assumed =>
          refine congrArg some (outcome_discharge_bare hparsed ?_ (fun _ _ => rfl) _)
          intro entry hentry
          exact Sentence.agrees_bare
            (formula_ne_none_of_mem_assumptions? hparsed hassumed hentry) operand
  | _ =>
      unfold negationIntro negationTarget?
      rw [hconclusion, hbare]

theorem assumesDenial_bare {conclusion assumption : Sentence}
    (hconclusion : conclusion.formula ≠ none) (hassumption : assumption.formula ≠ none) :
    assumesDenial conclusion.bare assumption.bare = assumesDenial conclusion assumption := by
  obtain ⟨formula, hformula⟩ := Option.ne_none_iff_exists'.mp hconclusion
  obtain ⟨assumed, hassumed⟩ := Option.ne_none_iff_exists'.mp hassumption
  simp only [assumesDenial, Sentence.bare, hformula, hassumed]
  cases assumed <;> rfl

theorem ignoresWords_indirectProof : IgnoresWords indirectProof := by
  intro context hparsed
  unfold indirectProof
  rw [assumptions?_bare]
  cases hassumed : assumptions? context with
  | none => rfl
  | some assumed =>
      have hdenial : ∀ entry ∈ assumed,
          assumesDenial (Sentence.mk context.text context.formula).bare entry.2.bare =
            assumesDenial (Sentence.mk context.text context.formula) entry.2 := by
        intro entry hentry
        exact assumesDenial_bare hparsed.formula
          (formula_ne_none_of_mem_assumptions? hparsed hassumed hentry)
      exact congrArg some (outcome_discharge_bare hparsed
        (fun entry hentry => congrArg Prod.fst (hdenial entry hentry))
        (fun entry hentry => congrArg Prod.snd (hdenial entry hentry)) .noFrameForNegation)

theorem ignoresWords_conditionalIntro : IgnoresWords conditionalIntro := by
  intro context hparsed
  unfold conditionalIntro
  rw [Context.citations_bare]
  rcases hcitations : context.citations with _ | ⟨assumed, _ | ⟨derived, _ | ⟨other, rest⟩⟩⟩
  · rfl
  · rfl
  · obtain ⟨conclusion, a, b, hconclusion, ha, hb⟩ := hparsed.of_two hcitations
    have hbare : context.bare.formula = some conclusion := hconclusion
    have hframes : context.bare.frames = context.frames.map Frame.bare := rfl
    simp only [List.map_cons, List.map_nil]
    cases conclusion with
    | imp left right =>
        have hsides : conditionalSides? context =
            some (.ofFormula left, .ofFormula right) := by
          rw [conditionalSides?, hconclusion]
        have hsides' : conditionalSides? context.bare =
            some (.ofFormula left, .ofFormula right) := by
          rw [conditionalSides?, hbare]
        rw [hsides, hsides', hframes]
        dsimp only
        rw [show assumed.bare.position = assumed.position from rfl, Frame.startingAt?_bare]
        cases hstarting : Frame.startingAt? context.frames assumed.position with
        | none => rfl
        | some frame =>
            have hframe : frame ∈ context.frames :=
              (List.mem_filter.mp (Frame.deepest?_mem hstarting)).1
            have hleft : (Sentence.mk frame.bare.assumption.toList assumed.bare.formula).agrees
                (.ofFormula left) =
                  (Sentence.mk frame.assumption.toList assumed.formula).agrees (.ofFormula left) :=
              @Sentence.agrees_bare ⟨frame.assumption.toList, assumed.formula⟩
                (hparsed.cited assumed (by simp [hcitations])) left
            have hright : (Sentence.mk derived.bare.text.toList derived.bare.formula).agrees
                (.ofFormula right) =
                  (Sentence.mk derived.text.toList derived.formula).agrees (.ofFormula right) :=
              @Sentence.agrees_bare ⟨derived.text.toList, derived.formula⟩
                (hparsed.cited derived (by simp [hcitations])) right
            dsimp only [Option.map_some]
            rw [Context.contains_dischargeable_bare hframe, Frame.isAtLevel_bare,
              Frame.covers_bare, hleft, hright]
            cases context.dischargeable.contains frame <;> rfl
    | _ =>
        unfold conditionalSides?
        rw [hconclusion, hbare]
  · rfl

theorem caseOf?_bare (context : Context) (cited : Citation) :
    caseOf? context.bare cited.bare = caseOf? context cited := by
  have hframes : context.bare.frames = context.frames.map Frame.bare := rfl
  unfold caseOf?
  dsimp only
  rw [hframes, show cited.bare.position = cited.position from rfl, Frame.startingAt?_bare,
    Context.canAccess_bare]
  cases hstarting : Frame.startingAt? context.frames cited.position with
  | none => rfl
  | some frame =>
      have hframe : frame ∈ context.frames :=
        (List.mem_filter.mp (Frame.deepest?_mem hstarting)).1
      dsimp only [Option.map_some]
      rw [Context.contains_dischargeable_bare hframe, Frame.isAtLevel_bare, Frame.start_bare,
        Frame.last_bare]
      rfl

theorem provesByCases?_bare (context : Context) (conclusion : Formula) (disjunction : Citation)
    (others : List Citation) :
    provesByCases? context.bare conclusion disjunction.bare (others.map Citation.bare) =
      provesByCases? context conclusion disjunction others := by
  have hcases : (others.map Citation.bare).mapM (caseOf? context.bare) =
      others.mapM (caseOf? context) := by
    rw [List.mapM_map]
    exact mapM_congr fun other _ => caseOf?_bare context other
  unfold provesByCases?
  rw [hcases, show disjunction.bare.position = disjunction.position from rfl,
    Context.canAccess_bare]
  rfl

theorem selections_map {α β : Type} (f : α → β) (items : List α) :
    selections (items.map f) = (selections items).map (Prod.map f (List.map f)) := by
  induction items with
  | nil => rfl
  | cons first rest ih =>
      rw [List.map_cons, selections, selections, ih, List.map_cons, List.map_map, List.map_map]
      rfl

theorem findCases?_bare (context : Context) (conclusion : Formula)
    (choices : List (Citation × List Citation)) :
    findCases? context.bare conclusion
        (choices.map (Prod.map Citation.bare (List.map Citation.bare))) =
      (findCases? context conclusion choices).map (Option.map Citation.bare) := by
  induction choices with
  | nil => rfl
  | cons choice rest ih =>
      obtain ⟨disjunction, others⟩ := choice
      rw [List.map_cons, Prod.map_apply, findCases?, findCases?, provesByCases?_bare, ih]
      cases provesByCases? context conclusion disjunction others with
      | none => rfl
      | some proves => cases proves <;> rfl

theorem ignoresWords_disjunctionElim : IgnoresWords disjunctionElim := by
  apply ignoresWords_whenParsed
  intro context conclusion cited
  rw [Context.citations_bare, selections_map, findCases?_bare]
  cases findCases? context conclusion (selections context.citations) with
  | none => rfl
  | some found => cases found <;> rfl

theorem ignoresWords_standard {rule : Rule} (hrule : rule ∈ Ruleset.propositional) :
    IgnoresWords (standard rule) := by
  cases rule with
  | premise => exact fun _ _ => rfl
  | assumption => exact fun _ _ => rfl
  | reiteration => exact ignoresWords_reiteration
  | conjunctionIntro => exact ignoresWords_conjunctionIntro
  | conjunctionElim => exact ignoresWords_conjunctionElim
  | conditionalIntro => exact ignoresWords_conditionalIntro
  | conditionalElim => exact ignoresWords_conditionalElim
  | disjunctionElim => exact ignoresWords_disjunctionElim
  | negationIntro => exact ignoresWords_negationIntro
  | explosion => exact ignoresWords_explosion
  | indirectProof => exact ignoresWords_indirectProof
  | universalIntro => exact absurd hrule (by decide)
  | universalElim => exact absurd hrule (by decide)
  | existentialIntro => exact absurd hrule (by decide)
  | existentialElim => exact absurd hrule (by decide)
  | quantifierConversion => exact absurd hrule (by decide)
  | _ => exact ignoresWords_whenParsed fun _ _ _ => rfl

end Check

end Deduction
