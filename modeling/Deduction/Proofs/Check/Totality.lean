import Deduction.Check.Table
import Deduction.Proofs.Frame.Scope
import Deduction.Proofs.Option

namespace Deduction

/-- A number of citations is one that the signature allows. -/
structure Signature.Allows (signature : Signature) (count : Nat) : Prop where
  enough : signature.least ≤ count
  notMore : ∀ greatest, signature.greatest = some greatest → count ≤ greatest

theorem Signature.arityError?_eq_none_iff {signature : Signature} {count : Nat} :
    signature.arityError? count = none ↔ signature.Allows count := by
  obtain ⟨least, greatest, discharges, heuristic⟩ := signature
  have hallows : Signature.Allows ⟨least, greatest, discharges, heuristic⟩ count ↔
      least ≤ count ∧ ∀ bound, greatest = some bound → count ≤ bound :=
    ⟨fun h => ⟨h.enough, h.notMore⟩, fun h => ⟨h.1, h.2⟩⟩
  rw [hallows]
  cases greatest with
  | none => simp [arityError?]
  | some bound =>
      simp only [arityError?, beq_iff_eq, Option.some.injEq, forall_eq']
      split_ifs <;> simp only [true_iff, false_iff] <;> omega

/-- The frames open and end on lines of the proof. -/
structure Context.IsComplete (context : Context) : Prop where
  opens : ∀ frame ∈ context.frames, frame.start < context.formulas.length
  ends : ∀ frame ∈ context.frames, frame.last < context.formulas.length

namespace Check

/-- A check reaches a finding wherever the frames lie within the proof and the signature allows the
number of citations. -/
def Answers (check : Check) (signature : Signature) : Prop :=
  ∀ context : Context, context.IsComplete → signature.Allows context.citations.length →
    (check context).isSome = true

variable {check : Check} {discharges heuristic : Bool}

theorem length_of_allows {context : Context} {count : Nat}
    (hallows : Signature.Allows ⟨count, some count, discharges, heuristic⟩
      context.citations.length) : context.citations.length = count :=
  Nat.le_antisymm (hallows.notMore count rfl) hallows.enough

theorem answers_of_one
    (hcheck : ∀ context cited, context.citations = [cited] → (check context).isSome = true) :
    check.Answers ⟨1, some 1, discharges, heuristic⟩ := by
  intro context _ hallows
  obtain ⟨cited, hcited⟩ := List.length_eq_one_iff.mp (length_of_allows hallows)
  exact hcheck context cited hcited

theorem answers_of_two
    (hcheck : ∀ context first second, context.citations = [first, second] →
      (check context).isSome = true) :
    check.Answers ⟨2, some 2, discharges, heuristic⟩ := by
  intro context _ hallows
  obtain ⟨first, second, hcited⟩ := List.length_eq_two.mp (length_of_allows hallows)
  exact hcheck context first second hcited

theorem whenParsed_eq {context : Context} {judge : Formula → List Formula → Option Finding}
    {conclusion : Formula} {formulas : List Formula} (hconclusion : context.formula = some conclusion)
    (hformulas : context.citations.mapM (·.formula) = some formulas) :
    context.whenParsed judge = judge conclusion formulas := by
  rw [Context.whenParsed, hconclusion, hformulas]

theorem isSome_whenParsed {context : Context} {judge : Formula → List Formula → Option Finding}
    (hjudge : ∀ conclusion cited, cited.length = context.citations.length →
      (judge conclusion cited).isSome = true) : (context.whenParsed judge).isSome = true := by
  unfold Context.whenParsed
  split
  · rename_i conclusion cited _ hcited
    exact hjudge conclusion cited (length_of_mapM hcited)
  · rfl

theorem answers_whenParsed_of_one {judge : Formula → List Formula → Option Finding}
    (hjudge : ∀ conclusion formula, (judge conclusion [formula]).isSome = true) :
    Answers (fun context => context.whenParsed judge) ⟨1, some 1, discharges, heuristic⟩ := by
  intro context _ hallows
  apply isSome_whenParsed
  intro conclusion cited hlength
  rw [length_of_allows hallows] at hlength
  obtain ⟨formula, rfl⟩ := List.length_eq_one_iff.mp hlength
  exact hjudge conclusion formula

theorem answers_whenParsed_of_two {judge : Formula → List Formula → Option Finding}
    (hjudge : ∀ conclusion first second, (judge conclusion [first, second]).isSome = true) :
    Answers (fun context => context.whenParsed judge) ⟨2, some 2, discharges, heuristic⟩ := by
  intro context _ hallows
  apply isSome_whenParsed
  intro conclusion cited hlength
  rw [length_of_allows hallows] at hlength
  obtain ⟨first, second, rfl⟩ := List.length_eq_two.mp hlength
  exact hjudge conclusion first second

theorem answers_reiteration : reiteration.Answers Rule.reiteration.signature := by
  apply answers_of_one
  intro context cited hcited
  unfold reiteration
  rw [hcited]
  dsimp only
  split <;> rfl

theorem answers_conjunctionIntro :
    conjunctionIntro.Answers Rule.conjunctionIntro.signature := by
  apply answers_of_two
  intro context first second hcited
  unfold conjunctionIntro
  rw [hcited]
  dsimp only
  split
  · rfl
  · rfl
  · split
    · rfl
    · split <;> rfl

theorem answers_conjunctionElim : conjunctionElim.Answers Rule.conjunctionElim.signature := by
  apply answers_of_one
  intro context cited hcited
  unfold conjunctionElim
  rw [hcited]
  dsimp only
  split
  · rfl
  · rfl
  · split <;> rfl

theorem answers_conditionalElim : conditionalElim.Answers Rule.conditionalElim.signature := by
  apply answers_of_two
  intro context first second hcited
  unfold conditionalElim
  rw [hcited]
  dsimp only
  split <;> rfl

theorem answers_biconditionalIntro :
    biconditionalIntro.Answers Rule.biconditionalIntro.signature := by
  apply answers_whenParsed_of_two
  intro conclusion first second
  dsimp only
  split <;> rfl

theorem answers_disjunctionIntro : disjunctionIntro.Answers Rule.disjunctionIntro.signature := by
  apply answers_whenParsed_of_one
  intro conclusion formula
  dsimp only
  split <;> rfl

theorem answers_doubleNegationIntro :
    doubleNegationIntro.Answers Rule.doubleNegationIntro.signature := by
  apply answers_whenParsed_of_one
  intro conclusion formula
  dsimp only
  split <;> rfl

theorem answers_doubleNegationElim :
    doubleNegationElim.Answers Rule.doubleNegationElim.signature := by
  apply answers_whenParsed_of_one
  intro conclusion formula
  split
  · rfl
  · rfl
  · rename_i hone
    exact absurd rfl (hone formula)

theorem answers_explosion : explosion.Answers Rule.explosion.signature := by
  apply answers_of_one
  intro context cited hcited
  unfold explosion
  rw [hcited]
  dsimp only
  split <;> rfl

theorem answers_excludedMiddle : excludedMiddle.Answers Rule.excludedMiddle.signature := by
  intro context _ _
  apply isSome_whenParsed
  intro conclusion cited _
  split <;> rfl

theorem answers_withFirst {judge : Context → Citation → Finding} {signature : Signature}
    (hleast : 1 ≤ signature.least) : (withFirst judge).Answers signature := by
  intro context _ hallows
  have hpos : 0 < context.citations.length := Nat.lt_of_lt_of_le hleast hallows.enough
  obtain ⟨cited, rest, hcited⟩ := List.exists_cons_of_length_pos hpos
  rw [withFirst, hcited]
  rfl

theorem isSome_assumptions? {context : Context} (hcomplete : context.IsComplete) :
    (assumptions? context).isSome = true := by
  apply isSome_mapM
  intro frame hframe
  have hstart := hcomplete.opens frame (Frame.mem_dischargedAt.mp hframe).1
  rw [List.getElem?_eq_getElem hstart]
  rfl

theorem answers_negationIntro : negationIntro.Answers Rule.negationIntro.signature := by
  intro context hcomplete _
  obtain ⟨assumed, hassumed⟩ := Option.isSome_iff_exists.mp (isSome_assumptions? hcomplete)
  unfold negationIntro
  rw [hassumed]
  split <;> rfl

theorem answers_indirectProof : indirectProof.Answers Rule.indirectProof.signature := by
  intro context hcomplete _
  obtain ⟨assumed, hassumed⟩ := Option.isSome_iff_exists.mp (isSome_assumptions? hcomplete)
  unfold indirectProof
  rw [hassumed]
  rfl

theorem answers_conditionalIntro :
    conditionalIntro.Answers Rule.conditionalIntro.signature := by
  apply answers_of_two
  intro context assumed derived hcited
  unfold conditionalIntro
  rw [hcited]
  dsimp only
  split
  · rfl
  · split <;> rfl

theorem isSome_caseOf? {context : Context} (hcomplete : context.IsComplete) (cited : Citation) :
    (caseOf? context cited).isSome = true := by
  unfold caseOf?
  dsimp only
  split
  · rfl
  · split
    · rfl
    · split
      · rfl
      · rename_i frame hstarting _ _
        have hframe := (List.mem_filter.mp (Frame.deepest?_mem hstarting)).1
        rw [List.getElem?_eq_getElem (hcomplete.opens frame hframe),
          List.getElem?_eq_getElem (hcomplete.ends frame hframe)]
        rfl

theorem isSome_provesByCases? {context : Context} (hcomplete : context.IsComplete)
    (conclusion : Formula) (disjunction : Citation) {others : List Citation}
    (hothers : others.length = 2) :
    (provesByCases? context conclusion disjunction others).isSome = true := by
  obtain ⟨cases, hcases⟩ := Option.isSome_iff_exists.mp
    (isSome_mapM fun cited (_ : cited ∈ others) => isSome_caseOf? hcomplete cited)
  have hlength := length_of_mapM hcases
  rw [hothers] at hlength
  obtain ⟨first, second, rfl⟩ := List.length_eq_two.mp hlength
  unfold provesByCases?
  split
  · split
    · rfl
    · rw [hcases]
      cases first with
      | none => rfl
      | some _ => cases second <;> rfl
  · rfl

theorem length_of_mem_selections {α : Type} {items others : List α} {chosen : α}
    (hselection : (chosen, others) ∈ selections items) : others.length + 1 = items.length := by
  induction items generalizing chosen others with
  | nil => contradiction
  | cons first rest ih =>
      rw [selections, List.mem_cons, List.mem_map] at hselection
      rcases hselection with heq | ⟨selection, hmem, heq⟩
      · obtain ⟨rfl, rfl⟩ := Prod.mk.inj heq
        rfl
      · obtain ⟨rfl, rfl⟩ := Prod.mk.inj heq
        rw [List.length_cons, List.length_cons, ih hmem]

theorem isSome_findCases? {context : Context} {conclusion : Formula}
    {choices : List (Citation × List Citation)}
    (hchoices : ∀ choice ∈ choices,
      (provesByCases? context conclusion choice.1 choice.2).isSome = true) :
    (findCases? context conclusion choices).isSome = true := by
  induction choices with
  | nil => rfl
  | cons choice rest ih =>
      obtain ⟨disjunction, others⟩ := choice
      have hfirst := hchoices (disjunction, others) List.mem_cons_self
      rw [findCases?]
      split
      · rename_i hnone
        rw [hnone] at hfirst
        contradiction
      · rfl
      · exact ih fun choice hchoice => hchoices choice (List.mem_cons_of_mem _ hchoice)

theorem isSome_findCases?_selections {context : Context} (hcomplete : context.IsComplete)
    (conclusion : Formula) {citations : List Citation} (hlength : citations.length = 3) :
    (findCases? context conclusion (selections citations)).isSome = true := by
  apply isSome_findCases?
  rintro ⟨disjunction, others⟩ hchoice
  have hothers : others.length + 1 = 3 := hlength ▸ length_of_mem_selections hchoice
  exact isSome_provesByCases? hcomplete conclusion disjunction (Nat.succ.inj hothers)

theorem answers_disjunctionElim : disjunctionElim.Answers Rule.disjunctionElim.signature := by
  intro context hcomplete hallows
  apply isSome_whenParsed
  intro conclusion _ _
  have hfound := isSome_findCases?_selections hcomplete conclusion (length_of_allows hallows)
  split
  · rename_i hnone
    rw [hnone] at hfound
    contradiction
  · rfl
  · rfl

/-- Every check of the calculus answers on what its signature allows. -/
theorem answers_standard (rule : Rule) : (standard rule).Answers rule.signature := by
  cases rule with
  | premise => exact fun _ _ _ => rfl
  | assumption => exact fun _ _ _ => rfl
  | reiteration => exact answers_reiteration
  | conjunctionIntro => exact answers_conjunctionIntro
  | conjunctionElim => exact answers_conjunctionElim
  | conditionalIntro => exact answers_conditionalIntro
  | conditionalElim => exact answers_conditionalElim
  | modusTollens => exact answers_whenParsed_of_two fun _ _ _ => rfl
  | disjunctionIntro => exact answers_disjunctionIntro
  | disjunctionElim => exact answers_disjunctionElim
  | doubleNegationIntro => exact answers_doubleNegationIntro
  | doubleNegationElim => exact answers_doubleNegationElim
  | biconditionalIntro => exact answers_biconditionalIntro
  | biconditionalElim => exact answers_whenParsed_of_two fun _ _ _ => rfl
  | negationIntro => exact answers_negationIntro
  | deMorgan => exact answers_whenParsed_of_one fun _ _ => rfl
  | explosion => exact answers_explosion
  | excludedMiddle => exact answers_excludedMiddle
  | disjunctiveSyllogism => exact answers_whenParsed_of_two fun _ _ _ => rfl
  | indirectProof => exact answers_indirectProof
  | universalIntro => exact answers_withFirst (by decide)
  | universalElim => exact answers_withFirst (by decide)
  | existentialIntro => exact answers_withFirst (by decide)
  | existentialElim => exact answers_withFirst (by decide)
  | quantifierConversion => exact answers_withFirst (by decide)

end Check

end Deduction
