import Deduction.Proofs.Check.Reordering

namespace Deduction

open Formula

theorem Formula.agrees_self (formula : Formula) : formula.agrees formula = true := by
  simp [agrees]

theorem Formula.agrees_comm (first second : Formula) : first.agrees second = second.agrees first := by
  rw [agrees, agrees, BEq.comm]

namespace Check

/-- The check passes a conclusion from citations of these formulas, whatever else stands around
them. -/
def Concludes (check : Check) (cited : List Formula) (conclusion : Formula) : Prop :=
  ∀ context : Context, context.formula = some conclusion →
    context.citations.map (·.formula) = cited.map some → Passes check context

section Concluding

variable {left right formula conclusion : Formula} {context : Context}

theorem exists_one_citation (hcited : context.citations.map (·.formula) = [formula].map some) :
    ∃ cited, context.citations = [cited] ∧ cited.formula = some formula := by
  simpa [List.map_eq_cons_iff] using hcited

theorem exists_two_citations (hcited : context.citations.map (·.formula) = [left, right].map some) :
    ∃ first second, context.citations = [first, second] ∧ first.formula = some left ∧
      second.formula = some right := by
  obtain ⟨first, rest, hcitations, hfirst, hrest⟩ := List.map_eq_cons_iff.mp hcited
  obtain ⟨second, others, rfl, hsecond, hothers⟩ := List.map_eq_cons_iff.mp hrest
  rw [List.map_nil, List.map_eq_nil_iff] at hothers
  exact ⟨first, second, hothers ▸ hcitations, hfirst, hsecond⟩

theorem exists_three_citations {first second third : Formula}
    (hcited : context.citations.map (·.formula) = [first, second, third].map some) :
    ∃ citation citation' citation'', context.citations = [citation, citation', citation''] ∧
      citation.formula = some first ∧ citation'.formula = some second ∧
        citation''.formula = some third := by
  simpa [List.map_eq_cons_iff] using hcited

theorem concludes_premise : premise.Concludes [] conclusion :=
  fun _ _ _ => ⟨_, rfl, rfl⟩

theorem concludes_assumption : assumption.Concludes [] conclusion :=
  fun _ _ _ => ⟨_, rfl, rfl⟩

theorem concludes_reiteration : reiteration.Concludes [formula] formula := by
  intro context hconclusion hcited
  obtain ⟨cited, hcitations, hformula⟩ := exists_one_citation hcited
  refine ⟨.clean, ?_, rfl⟩
  simp [reiteration, hcitations, hconclusion, hformula, Finding.require]

theorem concludes_conjunctionIntro :
    conjunctionIntro.Concludes [left, right] (.conj left right) := by
  intro context hconclusion hcited
  obtain ⟨first, second, hcitations, hfirst, hsecond⟩ := exists_two_citations hcited
  refine ⟨.clean, ?_, rfl⟩
  simp [conjunctionIntro, hcitations, hconclusion, hfirst, hsecond, Finding.require, agrees_self]

theorem concludes_conjunctionElim (hside : conclusion = left ∨ conclusion = right) :
    conjunctionElim.Concludes [.conj left right] conclusion := by
  intro context hconclusion hcited
  obtain ⟨cited, hcitations, hformula⟩ := exists_one_citation hcited
  refine ⟨.clean, ?_, rfl⟩
  have hagrees : (conclusion.agrees left || conclusion.agrees right) = true := by
    rcases hside with rfl | rfl <;> simp [agrees_self]
  simp [conjunctionElim, hcitations, hconclusion, hformula, Finding.require, hagrees]

theorem concludes_conditionalElim :
    conditionalElim.Concludes [.imp left right, left] right := by
  intro context hconclusion hcited
  obtain ⟨first, second, hcitations, hfirst, hsecond⟩ := exists_two_citations hcited
  refine ⟨.clean, ?_, rfl⟩
  simp [conditionalElim, hcitations, hconclusion, hfirst, hsecond, Finding.require, detaches,
    agrees_self]

theorem mapM_citations {cited : List Formula}
    (hcited : context.citations.map (·.formula) = cited.map some) :
    context.citations.mapM (·.formula) = some cited :=
  mapM_eq_some_iff.mpr hcited

theorem concludes_disjunctionIntro (hside : formula = left ∨ formula = right) :
    disjunctionIntro.Concludes [formula] (.disj left right) := by
  intro context hconclusion hcited
  have hagrees : (formula.agrees left || formula.agrees right) = true := by
    rcases hside with rfl | rfl <;> simp [agrees_self]
  refine ⟨.clean, ?_, rfl⟩
  rw [disjunctionIntro, whenParsed_eq hconclusion (mapM_citations hcited)]
  simp only [Finding.require, hagrees, if_true]

theorem concludes_biconditionalIntro :
    biconditionalIntro.Concludes [.imp left right, .imp right left] (.iff left right) := by
  intro context hconclusion hcited
  refine ⟨.clean, ?_, rfl⟩
  rw [biconditionalIntro, whenParsed_eq hconclusion (mapM_citations hcited)]
  simp [Finding.require, areDirections, agrees_self]

theorem concludes_biconditionalElim (hsides : formula = left ∧ conclusion = right ∨
      formula = right ∧ conclusion = left) :
    biconditionalElim.Concludes [.iff left right, formula] conclusion := by
  intro context hconclusion hcited
  refine ⟨.clean, ?_, rfl⟩
  rw [biconditionalElim, whenParsed_eq hconclusion (mapM_citations hcited)]
  rcases hsides with ⟨rfl, rfl⟩ | ⟨rfl, rfl⟩
  · simp [Finding.require, otherSide?, agrees_self]
  · by_cases hsame : formula.agrees conclusion = true
    · simp [Finding.require, otherSide?, hsame, agrees_comm conclusion formula]
    · simp [Finding.require, otherSide?, hsame, agrees_self]

end Concluding

section Discharging

variable {context : Context} {frame : Frame} {left right formula : Formula}

theorem passes_conditionalIntro {assumed derived : Citation}
    (hconclusion : context.formula = some (.imp left right))
    (hcitations : context.citations = [assumed, derived]) (hassumed : assumed.formula = some left)
    (hderived : derived.formula = some right)
    (hstarting : Frame.startingAt? context.frames assumed.position = some frame)
    (hframe : frame ∈ context.dischargeable)
    (hlevel : Frame.isAtLevel context.frames frame derived.position = true) :
    conditionalIntro.Passes context := by
  have hcovers : frame.covers derived.position = true :=
    (Bool.and_eq_true_iff.mp hlevel).1
  refine ⟨{ remark := some (.discharged frame.startLabel) }, ?_, rfl⟩
  simp [conditionalIntro, hcitations, conditionalSides?, hconclusion, hstarting, hassumed,
    hderived, hframe, hcovers, hlevel, Sentence.agrees, Sentence.ofFormula, Sentence.isTextual,
    agrees_self]

theorem isSome_contradiction? {first second : Citation} (hfirst : first.formula = some formula)
    (hsecond : second.formula = some (.neg formula)) :
    (contradiction? [first, second]).isSome = true := by
  have hcompare : contradiction?.compare first second = some false := by
    simp [contradiction?.compare, hfirst, hsecond, contradicts, negates, agrees_self]
  rw [contradiction?]
  split
  · rfl
  · simp [contradiction?.search, hcompare]

/-- A subproof that is closed here, with a formula and its denial cited at its level. -/
structure Refuting (context : Context) (frame : Frame) (assumption : Formula) : Prop where
  complete : context.IsComplete
  closed : frame ∈ context.dischargeable
  assumed : context.formulas[frame.start]? = some (some assumption)
  contradictory : (contradiction? (context.citationsIn frame)).isSome = true

theorem refuting_of_citations {assumption : Formula} (hcomplete : context.IsComplete)
    (hclosed : frame ∈ context.dischargeable)
    (hassumed : context.formulas[frame.start]? = some (some assumption))
    (hcited : context.citations.map (·.formula) = [formula, .neg formula].map some)
    (hlevel : ∀ cited ∈ context.citations,
      Frame.isAtLevel context.frames frame cited.position = true) :
    Refuting context frame assumption := by
  obtain ⟨first, second, hcitations, hfirst, hsecond⟩ := exists_two_citations hcited
  refine ⟨hcomplete, hclosed, hassumed, ?_⟩
  rw [Context.citationsIn, List.filter_eq_self.mpr hlevel, hcitations]
  exact isSome_contradiction? hfirst hsecond

theorem Refuting.exists_assumed {assumption : Formula}
    (hrefuting : Refuting context frame assumption) :
    ∃ assumed, assumptions? context = some assumed ∧
      ∃ entry ∈ assumed, entry.1 = frame ∧ entry.2.formula = some assumption := by
  obtain ⟨assumed, hassumed⟩ :=
    Option.isSome_iff_exists.mp (isSome_assumptions? hrefuting.complete)
  obtain ⟨entry, hentry, hstep⟩ := exists_output_of_mapM hassumed hrefuting.closed
  rw [hrefuting.assumed, Option.some.injEq] at hstep
  exact ⟨assumed, hassumed, entry, hentry, by rw [← hstep], by rw [← hstep]⟩

theorem passes_negationIntro (hrefuting : Refuting context frame formula)
    (hconclusion : context.formula = some (.neg formula)) : negationIntro.Passes context := by
  obtain ⟨assumed, hassumed, entry, hentry, hframe, hformula⟩ := hrefuting.exists_assumed
  have hcheck : negationIntro context = some (dischargeByContradiction context
      ((assumed.filter fun entry => entry.2.agrees (.ofFormula formula)).map (·.1))
      (assumed.any fun entry => entry.2.isTextual (.ofFormula formula)) .noFrameForAssumption) := by
    simp only [negationIntro, negationTarget?, hconclusion, hassumed]
  have hagrees : entry.2.agrees (.ofFormula formula) = true := by
    simp only [Sentence.agrees, hformula, Sentence.ofFormula, agrees_self]
  refine ⟨_, hcheck, objections_dischargeByContradiction ?_ hrefuting.contradictory⟩
  rw [← hframe]
  exact List.mem_map_of_mem (List.mem_filter.mpr ⟨hentry, hagrees⟩)

theorem passes_indirectProof (hrefuting : Refuting context frame (.neg formula))
    (hconclusion : context.formula = some formula) : indirectProof.Passes context := by
  obtain ⟨assumed, hassumed, entry, hentry, hframe, hformula⟩ := hrefuting.exists_assumed
  have hdenial : (assumesDenial { text := context.text, formula := context.formula }
      entry.2).1 = true := by
    simp only [assumesDenial, hformula, hconclusion, agrees_self]
  rw [Passes, indirectProof, hassumed]
  refine ⟨_, rfl, objections_dischargeByContradiction ?_ hrefuting.contradictory⟩
  rw [← hframe]
  exact List.mem_map_of_mem (List.mem_filter.mpr ⟨hentry, hdenial⟩)

/-- A conditional counts as a case where its own line opens no subproof that is closed here. -/
theorem caseOf?_of_conditional {cited : Citation} (hformula : cited.formula = some (.imp left right))
    (haccess : context.canAccess cited.position = true)
    (hframe : ∀ frame, Frame.startingAt? context.frames cited.position = some frame →
      frame ∉ context.dischargeable) :
    caseOf? context cited = some (some (left, right)) := by
  cases hstarting : Frame.startingAt? context.frames cited.position with
  | none => simp [caseOf?, hformula, haccess, hstarting]
  | some frame => simp [caseOf?, hformula, haccess, hstarting, hframe frame hstarting]

theorem passes_disjunctionElim {conclusion : Formula}
    (hconclusion : context.formula = some conclusion)
    (hcited : context.citations.map (·.formula) =
      [.disj left right, .imp left conclusion, .imp right conclusion].map some)
    (haccess : ∀ cited ∈ context.citations, context.canAccess cited.position = true)
    (hframe : ∀ cited ∈ context.citations, ∀ frame,
      Frame.startingAt? context.frames cited.position = some frame →
        frame ∉ context.dischargeable) :
    disjunctionElim.Passes context := by
  have hparsed := mapM_citations hcited
  obtain ⟨disjunction, first, second, hcitations, hdisjunction, hfirst, hsecond⟩ :=
    exists_three_citations hcited
  rw [hcitations] at haccess hframe
  have hcaseFirst := caseOf?_of_conditional hfirst (haccess first (by simp))
    (hframe first (by simp))
  have hcaseSecond := caseOf?_of_conditional hsecond (haccess second (by simp))
    (hframe second (by simp))
  have hproves : provesByCases? context conclusion disjunction [first, second] = some true := by
    simp [provesByCases?, hdisjunction, haccess, hcaseFirst, hcaseSecond, casesProve, agrees_self]
  refine ⟨{ remark := some (.caseSplit disjunction.label) }, ?_, rfl⟩
  rw [disjunctionElim, whenParsed_eq hconclusion hparsed, hcitations]
  simp [selections, findCases?, hproves]

end Discharging

end Check

end Deduction
