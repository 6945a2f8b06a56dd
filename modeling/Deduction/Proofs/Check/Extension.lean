import Deduction.Proofs.Check.Discharge
import Deduction.Proofs.Check.Totality
import Deduction.Proofs.Frame.Extension

namespace Deduction

/-- The context with other frames and formulas around the line. -/
def Context.within (context : Context) (frames : List Frame) (formulas : List (Option Formula)) :
    Context :=
  { context with frames, formulas }

/-- Frames and formulas of a proof that goes on after the one around a line. -/
structure Context.GoesOn (context : Context) (frames : List Frame)
    (formulas : List (Option Formula)) : Prop where
  frames : Frame.GoesOn context.formulas.length context.frames frames
  formulas : ∀ position < context.formulas.length,
    formulas[position]? = context.formulas[position]?
  position : context.position < context.formulas.length
  cited : ∀ cited ∈ context.citations, cited.position < context.formulas.length

namespace Context

variable {context : Context} {frames : List Frame} {formulas : List (Option Formula)}

@[simp] theorem citations_within :
    (context.within frames formulas).citations = context.citations := rfl

@[simp] theorem text_within : (context.within frames formulas).text = context.text := rfl

@[simp] theorem formula_within : (context.within frames formulas).formula = context.formula := rfl

namespace GoesOn

theorem dischargeable_eq (hgoes : context.GoesOn frames formulas) :
    (context.within frames formulas).dischargeable = context.dischargeable :=
  hgoes.frames.dischargedAt_eq hgoes.position

theorem canAccess_eq {cited : Citation} (hgoes : context.GoesOn frames formulas)
    (hcited : cited ∈ context.citations) :
    (context.within frames formulas).canAccess cited.position = context.canAccess cited.position :=
  hgoes.frames.isAccessible_eq (hgoes.cited cited hcited) hgoes.position

theorem eq_of_dischargeable {frame prolonged : Frame} (hgoes : context.GoesOn frames formulas)
    (hprolongs : Frame.Prolongs context.formulas.length frame prolonged)
    (hframe : frame ∈ context.dischargeable) : prolonged = frame := by
  rcases hprolongs.ends with heq | ⟨hlast, _⟩
  · exact heq
  · have hposition := hgoes.position
    exact absurd hframe (Frame.notMem_dischargedAt (by omega))

theorem prolongs_self {frame : Frame} (hgoes : context.GoesOn frames formulas)
    (hframe : frame ∈ context.dischargeable) :
    Frame.Prolongs context.formulas.length frame frame := by
  obtain ⟨prolonged, hprolongs⟩ :=
    hgoes.frames.exists_prolonged (Frame.mem_dischargedAt.mp hframe).1
  obtain rfl := hgoes.eq_of_dischargeable hprolongs hframe
  exact hprolongs

theorem citationsIn_eq {frame : Frame} (hgoes : context.GoesOn frames formulas)
    (hframe : frame ∈ context.dischargeable) :
    (context.within frames formulas).citationsIn frame = context.citationsIn frame := by
  apply List.filter_congr
  intro cited hcited
  exact hgoes.frames.isAtLevel_eq (hgoes.prolongs_self hframe) (hgoes.cited cited hcited)

theorem contains_eq {frame prolonged : Frame} (hgoes : context.GoesOn frames formulas)
    (hprolongs : Frame.Prolongs context.formulas.length frame prolonged) :
    context.dischargeable.contains prolonged = context.dischargeable.contains frame := by
  rcases hprolongs.ends with rfl | ⟨hlast, hlast'⟩
  · rfl
  · have hposition := hgoes.position
    have hframe : frame ∉ context.dischargeable := Frame.notMem_dischargedAt (by omega)
    have hprolonged : prolonged ∉ context.dischargeable := Frame.notMem_dischargedAt (by omega)
    simp [hframe, hprolonged]

end GoesOn

end Context

namespace Check

variable {context : Context} {frames : List Frame} {formulas : List (Option Formula)}

/-- A check finds the same in the proof around the line and in one that goes on. -/
def Foresees (check : Check) : Prop :=
  ∀ context frames formulas, Context.GoesOn context frames formulas →
    check (context.within frames formulas) = check context

theorem foresees_assumption : Foresees assumption := by
  intro context frames formulas hgoes
  change some _ = some _
  rcases hgoes.frames.startingAt? hgoes.position with
    ⟨hnone, hnone'⟩ | ⟨frame, prolonged, hsome, hsome', hprolongs⟩
  · rw [Context.within]
    simp only [hnone, hnone', Option.map_none]
  · rw [Context.within]
    simp only [hsome, hsome', Option.map_some, hprolongs.level_eq]

theorem assumptions?_within (hgoes : context.GoesOn frames formulas) :
    assumptions? (context.within frames formulas) = assumptions? context := by
  unfold assumptions?
  rw [hgoes.dischargeable_eq]
  apply mapM_congr
  intro frame hframe
  have hprolongs := hgoes.prolongs_self hframe
  have hstart := Nat.lt_of_le_of_lt hprolongs.ordered hprolongs.bounded
  rw [show (context.within frames formulas).formulas = formulas from rfl,
    hgoes.formulas frame.start hstart]

theorem findSome?_congr {α β : Type} {f g : α → Option β} {items : List α}
    (hsteps : ∀ item ∈ items, f item = g item) : items.findSome? f = items.findSome? g := by
  induction items with
  | nil => rfl
  | cons first rest ih =>
      rw [List.findSome?_cons, List.findSome?_cons, hsteps first List.mem_cons_self,
        ih fun item hitem => hsteps item (List.mem_cons_of_mem first hitem)]

theorem dischargeByContradiction_within {candidates : List Frame}
    (hgoes : context.GoesOn frames formulas)
    (hcandidates : ∀ frame ∈ candidates, frame ∈ context.dischargeable) (textual : Bool)
    (missing : Objection) :
    dischargeByContradiction (context.within frames formulas) candidates textual missing =
      dischargeByContradiction context candidates textual missing := by
  cases candidates with
  | nil => rfl
  | cons first rest =>
      unfold dischargeByContradiction
      dsimp only
      rw [findSome?_congr fun frame hframe => by
        rw [hgoes.citationsIn_eq (hcandidates frame hframe)]]

theorem foresees_negationIntro : Foresees negationIntro := by
  intro context frames formulas hgoes
  have htarget : negationTarget? (context.within frames formulas) = negationTarget? context := rfl
  unfold negationIntro
  rw [htarget, assumptions?_within hgoes]
  split
  · rfl
  · split
    · rfl
    · rename_i assumed hassumed
      dsimp only
      rw [dischargeByContradiction_within hgoes]
      intro frame hframe
      obtain ⟨entry, hentry, rfl⟩ := List.mem_map.mp hframe
      exact (mem_assumptions? hassumed (List.mem_filter.mp hentry).1).1

theorem foresees_indirectProof : Foresees indirectProof := by
  intro context frames formulas hgoes
  unfold indirectProof
  rw [assumptions?_within hgoes]
  split
  · rfl
  · rename_i assumed hassumed
    dsimp only [Context.text_within, Context.formula_within]
    rw [dischargeByContradiction_within hgoes]
    intro frame hframe
    obtain ⟨entry, hentry, rfl⟩ := List.mem_map.mp hframe
    exact (mem_assumptions? hassumed (List.mem_filter.mp hentry).1).1

theorem foresees_conditionalIntro : Foresees conditionalIntro := by
  intro context frames formulas hgoes
  have hsides : conditionalSides? (context.within frames formulas) = conditionalSides? context :=
    rfl
  have hframes : (context.within frames formulas).frames = frames := rfl
  unfold conditionalIntro
  rw [Context.citations_within, hsides, hgoes.dischargeable_eq, hframes]
  split
  · rename_i assumed derived hcitations
    have hderived := hgoes.cited derived (by simp [hcitations])
    split
    · rfl
    · rcases hgoes.frames.startingAt? (hgoes.cited assumed (by simp [hcitations])) with
        ⟨hnone, hnone'⟩ | ⟨frame, prolonged, hsome, hsome', hprolongs⟩
      · rw [hnone, hnone']
      · simp only [hsome, hsome', hprolongs.assumption_eq, hprolongs.startLabel_eq,
          hgoes.contains_eq hprolongs, hprolongs.covers_eq hderived,
          hgoes.frames.isAtLevel_eq hprolongs hderived]
  · rfl

theorem caseOf?_within {cited : Citation} (hgoes : context.GoesOn frames formulas)
    (hcited : cited ∈ context.citations) :
    caseOf? (context.within frames formulas) cited = caseOf? context cited := by
  have hframes : (context.within frames formulas).frames = frames := rfl
  have hformulas : (context.within frames formulas).formulas = formulas := rfl
  unfold caseOf?
  rw [hgoes.canAccess_eq hcited, hgoes.dischargeable_eq, hframes, hformulas]
  rcases hgoes.frames.startingAt? (hgoes.cited cited hcited) with
    ⟨hnone, hnone'⟩ | ⟨frame, prolonged, hsome, hsome', hprolongs⟩
  · rw [hnone, hnone']
  · simp only [hsome, hsome', hgoes.contains_eq hprolongs]
    split
    · rfl
    · rename_i hdischargeable
      have hframe : frame ∈ context.dischargeable := by simpa using hdischargeable
      obtain rfl := hgoes.eq_of_dischargeable hprolongs hframe
      have hstart := Nat.lt_of_le_of_lt hprolongs.ordered hprolongs.bounded
      rw [hgoes.frames.isAtLevel_eq hprolongs hprolongs.bounded, hgoes.formulas _ hstart,
        hgoes.formulas _ hprolongs.bounded]

theorem provesByCases?_within {conclusion : Formula} {disjunction : Citation}
    {others : List Citation} (hgoes : context.GoesOn frames formulas)
    (hdisjunction : disjunction ∈ context.citations)
    (hothers : ∀ other ∈ others, other ∈ context.citations) :
    provesByCases? (context.within frames formulas) conclusion disjunction others =
      provesByCases? context conclusion disjunction others := by
  unfold provesByCases?
  rw [hgoes.canAccess_eq hdisjunction,
    mapM_congr fun other hother => caseOf?_within hgoes (hothers other hother)]

theorem findCases?_within {conclusion : Formula} {choices : List (Citation × List Citation)}
    (hgoes : context.GoesOn frames formulas)
    (hchoices : ∀ choice ∈ choices, choice.1 ∈ context.citations ∧
      ∀ other ∈ choice.2, other ∈ context.citations) :
    findCases? (context.within frames formulas) conclusion choices =
      findCases? context conclusion choices := by
  induction choices with
  | nil => rfl
  | cons choice rest ih =>
      obtain ⟨hdisjunction, hothers⟩ := hchoices choice List.mem_cons_self
      rw [findCases?, findCases?, provesByCases?_within hgoes hdisjunction hothers,
        ih fun choice hchoice => hchoices choice (List.mem_cons_of_mem _ hchoice)]

theorem foresees_disjunctionElim : Foresees disjunctionElim := by
  intro context frames formulas hgoes
  have hfound : ∀ conclusion,
      findCases? (context.within frames formulas) conclusion (selections context.citations) =
        findCases? context conclusion (selections context.citations) := by
    intro conclusion
    apply findCases?_within hgoes
    rintro ⟨disjunction, others⟩ hchoice
    exact mem_of_mem_selections hchoice
  unfold disjunctionElim
  simp only [Context.citations_within, hfound]
  rfl

theorem foresees_withFirst {judge : Context → Citation → Finding}
    (hjudge : ∀ context frames formulas cited, Context.GoesOn context frames formulas →
      cited ∈ context.citations → judge (context.within frames formulas) cited =
        judge context cited) : Foresees (withFirst judge) := by
  intro context frames formulas hgoes
  unfold withFirst
  rw [Context.citations_within]
  split
  · rename_i cited rest hcitations
    rw [hjudge context frames formulas cited hgoes (by simp [hcitations])]
  · rfl

theorem foresees_standard (rule : Rule) : Foresees (standard rule) := by
  cases rule with
  | assumption => exact foresees_assumption
  | negationIntro => exact foresees_negationIntro
  | indirectProof => exact foresees_indirectProof
  | conditionalIntro => exact foresees_conditionalIntro
  | disjunctionElim => exact foresees_disjunctionElim
  | universalIntro =>
      exact foresees_withFirst fun _ _ _ _ _ _ => by rw [Context.text_within]
  | universalElim =>
      exact foresees_withFirst fun _ _ _ _ _ _ => by rw [Context.text_within]
  | existentialIntro =>
      exact foresees_withFirst fun _ _ _ _ _ _ => by rw [Context.text_within]
  | existentialElim =>
      apply foresees_withFirst
      intro context frames formulas cited hgoes hcited
      rw [hgoes.canAccess_eq hcited]
  | quantifierConversion =>
      exact foresees_withFirst fun _ _ _ _ _ _ => by rw [Context.text_within]
  | _ => exact fun _ _ _ _ => rfl

end Check

end Deduction
