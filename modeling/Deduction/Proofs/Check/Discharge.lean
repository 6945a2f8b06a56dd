import Deduction.Check.Discharge
import Deduction.Proofs.Check.Propositional
import Deduction.Proofs.Frame.Scope
import Deduction.Proofs.Option

namespace Deduction

open Formula

variable {valuation : String → Bool}

/-- The formula of the line at a position. -/
def Context.formulaAt (context : Context) (position : Nat) : Option Formula :=
  context.formulas[position]?.join

/-- What the proof around a line grants it. Every line spells a formula, the cited ones what their
citations tell; a cited line in scope is true; and if the assumption of a subproof that the line
may close is true, then so are the lines at the level of the subproof. -/
structure Context.Supports (valuation : String → Bool) (context : Context) : Prop where
  parsed : none ∉ context.formulas
  cited : ∀ cited ∈ context.citations, context.formulas[cited.position]? = some cited.formula
  accessible : ∀ cited ∈ context.citations, context.canAccess cited.position = true →
    Holds valuation cited.formula
  subproof : ∀ frame ∈ context.dischargeable, Holds valuation (context.formulaAt frame.start) →
    ∀ position : Nat, Frame.isAtLevel context.frames frame position = true →
      Holds valuation (context.formulaAt position)

namespace Context.Supports

variable {context : Context}

theorem formulaAt_eq_some {position : Nat} {formula : Option Formula}
    (hsupports : context.Supports valuation)
    (hformula : context.formulas[position]? = some formula) :
    ∃ parsed, formula = some parsed ∧ context.formulaAt position = some parsed := by
  cases formula with
  | none => exact absurd (List.mem_of_getElem? hformula) hsupports.parsed
  | some parsed => exact ⟨parsed, rfl, by simp [formulaAt, hformula]⟩

theorem formula_of_cited {cited : Citation} (hsupports : context.Supports valuation)
    (hcited : cited ∈ context.citations) :
    ∃ formula, cited.formula = some formula ∧ context.formulaAt cited.position = some formula :=
  hsupports.formulaAt_eq_some (hsupports.cited cited hcited)

theorem eval_of_conditional {cited : Citation} {left right : Formula}
    (hsupports : context.Supports valuation) (hcited : cited ∈ context.citations)
    (hformula : cited.formula = some (.imp left right))
    (haccess : context.canAccess cited.position = true)
    (hleft : left.eval valuation = true) : right.eval valuation = true := by
  obtain ⟨formula, hholds, htrue⟩ := hsupports.accessible cited hcited haccess
  obtain rfl := Option.some.inj (hformula.symm.trans hholds)
  rw [eval, hleft] at htrue
  exact htrue

/-- A closed subproof carries truth from its first line to the lines at its level. -/
theorem eval_of_isAtLevel {frame : Frame} {position : Nat} {assumption result : Formula}
    (hsupports : context.Supports valuation) (hframe : frame ∈ context.dischargeable)
    (hlevel : Frame.isAtLevel context.frames frame position = true)
    (hfirst : context.formulaAt frame.start = some assumption)
    (hresult : context.formulaAt position = some result)
    (hassumption : assumption.eval valuation = true) : result.eval valuation = true := by
  obtain ⟨formula, hholds, htrue⟩ :=
    hsupports.subproof frame hframe ⟨assumption, hfirst, hassumption⟩ position hlevel
  obtain rfl := Option.some.inj (hresult.symm.trans hholds)
  exact htrue

end Context.Supports

namespace Check

variable {context : Context}

/-- A check passes only conclusions that are true where the proof around the line supports it. -/
def ClosesSoundly (check : Check) : Prop :=
  ∀ (valuation : String → Bool) (context : Context) (finding : Finding) (conclusion : Formula),
    context.Supports valuation → check context = some finding → finding.objections = [] →
      context.formula = some conclusion → conclusion.eval valuation = true

theorem eval_eq_of_sentence_agrees {first second : Sentence} {a b : Formula}
    (hfirst : first.formula = some a) (hsecond : second.formula = some b)
    (hagrees : first.agrees second = true) : a.eval valuation = b.eval valuation := by
  rw [Sentence.agrees, hfirst, hsecond] at hagrees
  exact eval_eq_of_agrees hagrees valuation

theorem compare_eq_none_of_holds {first second : Citation}
    (hfirst : Holds valuation first.formula) (hsecond : Holds valuation second.formula) :
    contradiction?.compare first second = none := by
  obtain ⟨a, ha, hatrue⟩ := hfirst
  obtain ⟨b, hb, hbtrue⟩ := hsecond
  simp only [contradiction?.compare, ha, hb]
  rw [if_neg]
  intro hcontradicts
  have heval : a.eval valuation = !b.eval valuation := eval_of_contradicts hcontradicts
  rw [hatrue, hbtrue] at heval
  contradiction

theorem search_eq_none_of_holds {citations : List Citation}
    (hcited : ∀ cited ∈ citations, Holds valuation cited.formula) :
    contradiction?.search citations = none := by
  induction citations with
  | nil => rfl
  | cons first rest ih =>
      have hnone : rest.findSome? (contradiction?.compare first) = none := by
        rw [List.findSome?_eq_none_iff]
        intro second hsecond
        exact compare_eq_none_of_holds (hcited first List.mem_cons_self)
          (hcited second (List.mem_cons_of_mem first hsecond))
      rw [contradiction?.search, hnone]
      exact ih fun cited hmem => hcited cited (List.mem_cons_of_mem first hmem)

theorem contradiction?_eq_none_of_holds {citations : List Citation}
    (hcited : ∀ cited ∈ citations, Holds valuation cited.formula) :
    contradiction? citations = none := by
  rw [contradiction?, if_neg]
  · exact search_eq_none_of_holds hcited
  · rw [List.any_eq_true]
    rintro ⟨cited, hmem, hany⟩
    obtain ⟨formula, hformula, htrue⟩ := hcited cited hmem
    rw [hformula] at hany
    have heval : formula.eval valuation = false := eval_of_isContradiction hany
    rw [htrue] at heval
    contradiction

theorem not_holds_of_contradiction? {frame : Frame} (hsupports : context.Supports valuation)
    (hframe : frame ∈ context.dischargeable)
    (hcontradiction : (contradiction? (context.citationsIn frame)).isSome = true) :
    ¬ Holds valuation (context.formulaAt frame.start) := by
  intro hassumption
  have hcited : ∀ cited ∈ context.citationsIn frame, Holds valuation cited.formula := by
    intro cited hmem
    obtain ⟨hcitation, hlevel⟩ := List.mem_filter.mp hmem
    have hholds := hsupports.subproof frame hframe hassumption cited.position hlevel
    obtain ⟨formula, hformula, hat⟩ := hsupports.formula_of_cited hcitation
    rw [hformula, ← hat]
    exact hholds
  rw [contradiction?_eq_none_of_holds hcited] at hcontradiction
  contradiction

theorem exists_of_dischargeByContradiction {candidates : List Frame} {textual : Bool}
    {missing : Objection}
    (hclean : (dischargeByContradiction context candidates textual missing).objections = []) :
    ∃ frame ∈ candidates, (contradiction? (context.citationsIn frame)).isSome = true := by
  unfold dischargeByContradiction at hclean
  split at hclean
  · contradiction
  · dsimp only at hclean
    split at hclean
    · rename_i frame byText hfound
      obtain ⟨candidate, hmem, hcandidate⟩ := List.exists_of_findSome?_eq_some hfound
      obtain ⟨_, hcontradiction, _⟩ := Option.map_eq_some_iff.mp hcandidate
      exact ⟨candidate, hmem, by rw [hcontradiction]; rfl⟩
    · contradiction

theorem objections_dischargeByContradiction {candidates : List Frame} {textual : Bool}
    {missing : Objection} {frame : Frame} (hframe : frame ∈ candidates)
    (hfound : (contradiction? (context.citationsIn frame)).isSome = true) :
    (dischargeByContradiction context candidates textual missing).objections = [] := by
  unfold dischargeByContradiction
  split
  · contradiction
  · dsimp only
    split
    · rfl
    · rename_i hnone
      rw [List.findSome?_eq_none_iff] at hnone
      have hmissing := hnone frame hframe
      rw [Option.map_eq_none_iff] at hmissing
      rw [hmissing] at hfound
      contradiction

theorem mem_assumptions? {assumed : List (Frame × Sentence)} {entry : Frame × Sentence}
    (hassumed : assumptions? context = some assumed) (hentry : entry ∈ assumed) :
    entry.1 ∈ context.dischargeable ∧
      context.formulas[entry.1.start]? = some entry.2.formula := by
  obtain ⟨frame, hframe, hfound⟩ := exists_input_of_mapM hassumed hentry
  split at hfound
  · rename_i formula hformula
    obtain rfl := Option.some.inj hfound
    exact ⟨hframe, hformula⟩
  · contradiction

theorem formula_of_mem_assumptions? {assumed : List (Frame × Sentence)} {entry : Frame × Sentence}
    (hsupports : context.Supports valuation) (hassumed : assumptions? context = some assumed)
    (hentry : entry ∈ assumed) :
    entry.1 ∈ context.dischargeable ∧
      ∃ formula, entry.2.formula = some formula ∧
        context.formulaAt entry.1.start = some formula := by
  obtain ⟨hframe, hformula⟩ := mem_assumptions? hassumed hentry
  exact ⟨hframe, hsupports.formulaAt_eq_some hformula⟩

theorem closesSoundly_negationIntro : ClosesSoundly negationIntro := by
  intro valuation context finding conclusion hsupports hfinding hclean hconclusion
  unfold negationIntro at hfinding
  cases conclusion with
  | neg operand =>
      simp only [negationTarget?, hconclusion] at hfinding
      split at hfinding
      · contradiction
      · rename_i assumed hassumed
        obtain rfl := Option.some.inj hfinding
        obtain ⟨frame, hframe, hcontradiction⟩ := exists_of_dischargeByContradiction hclean
        obtain ⟨entry, hentry, rfl⟩ := List.mem_map.mp hframe
        obtain ⟨hmem, hagrees⟩ := List.mem_filter.mp hentry
        obtain ⟨hdischargeable, assumption, hassumption, hat⟩ :=
          formula_of_mem_assumptions? hsupports hassumed hmem
        -- A true operand makes the assumption true and with it all lines cited at its level.
        rw [eval, Bool.not_eq_true', ← Bool.not_eq_true]
        intro hoperand
        apply not_holds_of_contradiction? hsupports hdischargeable hcontradiction
        refine ⟨assumption, hat, ?_⟩
        rw [eval_eq_of_sentence_agrees hassumption rfl hagrees]
        exact hoperand
  | _ =>
      simp only [negationTarget?, hconclusion] at hfinding
      exact (Finding.not_pass_object hfinding hclean).elim

theorem eval_of_assumesDenial {conclusion assumption : Sentence} {a c : Formula}
    (hassumption : assumption.formula = some a) (hconclusion : conclusion.formula = some c)
    (hdenial : (assumesDenial conclusion assumption).1 = true) :
    a.eval valuation = !c.eval valuation := by
  simp only [assumesDenial, hassumption, hconclusion] at hdenial
  cases a with
  | neg operand => rw [eval, eval_eq_of_agrees hdenial]
  | _ => contradiction

theorem closesSoundly_indirectProof : ClosesSoundly indirectProof := by
  intro valuation context finding conclusion hsupports hfinding hclean hconclusion
  unfold indirectProof at hfinding
  split at hfinding
  · contradiction
  · rename_i assumed hassumed
    obtain rfl := Option.some.inj hfinding
    obtain ⟨frame, hframe, hcontradiction⟩ := exists_of_dischargeByContradiction hclean
    obtain ⟨entry, hentry, rfl⟩ := List.mem_map.mp hframe
    obtain ⟨hmem, hdenial⟩ := List.mem_filter.mp hentry
    obtain ⟨hdischargeable, assumption, hassumption, hat⟩ :=
      formula_of_mem_assumptions? hsupports hassumed hmem
    by_contra hfalse
    apply not_holds_of_contradiction? hsupports hdischargeable hcontradiction
    refine ⟨assumption, hat, ?_⟩
    rw [eval_of_assumesDenial hassumption hconclusion hdenial, Bool.not_eq_true']
    exact Bool.not_eq_true _ ▸ hfalse

theorem closesSoundly_conditionalIntro : ClosesSoundly conditionalIntro := by
  intro valuation context finding conclusion hsupports hfinding hclean hconclusion
  unfold conditionalIntro at hfinding
  split at hfinding
  · rename_i assumed derived hcitations
    cases conclusion with
    | imp left right =>
        simp only [conditionalSides?, hconclusion] at hfinding
        split at hfinding
        · exact (Finding.not_pass_object hfinding hclean).elim
        · rename_i frame hstarting
          obtain rfl := Option.some.inj hfinding
          simp only [List.append_eq_nil_iff, ite_eq_left_iff, List.cons_ne_nil, imp_false,
            Decidable.not_not] at hclean
          obtain ⟨⟨⟨hclosing, hinside⟩, hleft⟩, hright⟩ := hclean
          have hframe : frame ∈ context.dischargeable := List.contains_iff_mem.mp hclosing
          have hlevel : Frame.isAtLevel context.frames frame derived.position = true := by
            split at hinside
            · contradiction
            · simpa using hinside
          have hassumed : assumed ∈ context.citations := by simp [hcitations]
          have hderived : derived ∈ context.citations := by simp [hcitations]
          obtain ⟨a, ha, hat⟩ := hsupports.formula_of_cited hassumed
          obtain ⟨c, hc, hresult⟩ := hsupports.formula_of_cited hderived
          -- Several frames may open at the cited line; each of them has it for its assumption.
          rw [← Frame.start_of_startingAt? hstarting] at hat
          rw [eval, ← eval_eq_of_sentence_agrees ha rfl hleft,
            ← eval_eq_of_sentence_agrees hc rfl hright, Bool.or_eq_true, Bool.not_eq_true']
          cases hassumption : a.eval valuation with
          | false => exact Or.inl rfl
          | true =>
              exact Or.inr (hsupports.eval_of_isAtLevel hframe hlevel hat hresult hassumption)
    | _ =>
        simp only [conditionalSides?, hconclusion] at hfinding
        exact (Finding.not_pass_object hfinding hclean).elim
  · contradiction

theorem eval_of_caseOf? {cited : Citation} {assumption result : Formula}
    (hsupports : context.Supports valuation) (hcited : cited ∈ context.citations)
    (hcase : caseOf? context cited = some (some (assumption, result)))
    (hassumption : assumption.eval valuation = true) : result.eval valuation = true := by
  unfold caseOf? at hcase
  -- The conditional counts both where no frame opens at the citation and where the one that does
  -- cannot be closed here.
  extract_lets conditional at hcase
  have hconditional : conditional = some (assumption, result) → result.eval valuation = true := by
    intro hsides
    unfold conditional at hsides
    split at hsides
    · rename_i left right hformula
      split at hsides
      · rename_i haccess
        obtain ⟨rfl, rfl⟩ := Prod.mk.inj (Option.some.inj hsides)
        exact hsupports.eval_of_conditional hcited hformula haccess hassumption
      · contradiction
    · contradiction
  split at hcase
  · exact hconditional (Option.some.inj hcase)
  · rename_i frame hstarting
    split at hcase
    · exact hconditional (Option.some.inj hcase)
    · rename_i hdischargeable
      split at hcase
      · cases hcase
      · rename_i hlevel
        split at hcase
        · rename_i first last hfirst hlast
          obtain ⟨a, rfl, hat⟩ := hsupports.formulaAt_eq_some hfirst
          obtain ⟨c, rfl, hend⟩ := hsupports.formulaAt_eq_some hlast
          obtain ⟨rfl, rfl⟩ := Prod.mk.inj (Option.some.inj (Option.some.inj hcase))
          have hframe : frame ∈ context.dischargeable := by simpa using hdischargeable
          exact hsupports.eval_of_isAtLevel hframe (by simpa using hlevel) hat hend hassumption
        · contradiction

theorem mem_of_mem_selections {α : Type} {items others : List α} {chosen : α}
    (hselection : (chosen, others) ∈ selections items) :
    chosen ∈ items ∧ ∀ other ∈ others, other ∈ items := by
  induction items generalizing chosen others with
  | nil => contradiction
  | cons first rest ih =>
      rw [selections, List.mem_cons, List.mem_map] at hselection
      rcases hselection with heq | ⟨selection, hmem, heq⟩
      · obtain ⟨rfl, rfl⟩ := Prod.mk.inj heq
        exact ⟨List.mem_cons_self, fun other hother => List.mem_cons_of_mem chosen hother⟩
      · obtain ⟨rfl, rfl⟩ := Prod.mk.inj heq
        obtain ⟨hchosen, hothers⟩ := ih hmem
        refine ⟨List.mem_cons_of_mem first hchosen, ?_⟩
        intro other hother
        rcases List.mem_cons.mp hother with rfl | hother
        · exact List.mem_cons_self
        · exact List.mem_cons_of_mem first (hothers other hother)

theorem exists_of_findCases? {conclusion : Formula} {choices : List (Citation × List Citation)}
    {disjunction : Citation}
    (hfound : findCases? context conclusion choices = some (some disjunction)) :
    ∃ others, (disjunction, others) ∈ choices ∧
      provesByCases? context conclusion disjunction others = some true := by
  induction choices with
  | nil => cases hfound
  | cons choice rest ih =>
      obtain ⟨candidate, others⟩ := choice
      rw [findCases?] at hfound
      split at hfound
      · contradiction
      · rename_i hproves
        obtain rfl := Option.some.inj (Option.some.inj hfound)
        exact ⟨others, List.mem_cons_self, hproves⟩
      · obtain ⟨others', hmem, hproves⟩ := ih hfound
        exact ⟨others', List.mem_cons_of_mem _ hmem, hproves⟩

theorem eval_of_casesProve {conclusion formula : Formula} {disjunction : Citation}
    {first second : Formula × Formula} (hformula : disjunction.formula = some formula)
    (htrue : formula.eval valuation = true)
    (hfirst : first.1.eval valuation = true → first.2.eval valuation = true)
    (hsecond : second.1.eval valuation = true → second.2.eval valuation = true)
    (hproves : casesProve conclusion disjunction first second = true) :
    conclusion.eval valuation = true := by
  rw [casesProve, hformula] at hproves
  cases formula with
  | disj left right =>
      simp only [Bool.and_eq_true, Bool.or_eq_true] at hproves
      obtain ⟨⟨hsides, hresult⟩, hresult'⟩ := hproves
      rw [eval_eq_of_agrees hresult] at hfirst
      rw [eval_eq_of_agrees hresult'] at hsecond
      rw [eval, Bool.or_eq_true] at htrue
      rcases hsides with ⟨hleft, hright⟩ | ⟨hright, hleft⟩
      · rw [eval_eq_of_agrees hleft] at hfirst
        rw [eval_eq_of_agrees hright] at hsecond
        exact htrue.elim hfirst hsecond
      · rw [eval_eq_of_agrees hright] at hfirst
        rw [eval_eq_of_agrees hleft] at hsecond
        exact htrue.elim hsecond hfirst
  | _ => contradiction

theorem eval_of_provesByCases? {conclusion : Formula} {disjunction : Citation}
    {others : List Citation} (hsupports : context.Supports valuation)
    (hdisjunction : disjunction ∈ context.citations)
    (hothers : ∀ other ∈ others, other ∈ context.citations)
    (hproves : provesByCases? context conclusion disjunction others = some true) :
    conclusion.eval valuation = true := by
  unfold provesByCases? at hproves
  split at hproves
  · split at hproves
    · contradiction
    · rename_i haccess
      obtain ⟨formula, hformula, htrue⟩ :=
        hsupports.accessible disjunction hdisjunction (by simpa using haccess)
      split at hproves
      · contradiction
      · rename_i first second hcases
        obtain ⟨cited, hcited, hcase⟩ := exists_input_of_mapM hcases List.mem_cons_self
        obtain ⟨cited', hcited', hcase'⟩ :=
          exists_input_of_mapM hcases (List.mem_cons_of_mem _ List.mem_cons_self)
        exact eval_of_casesProve hformula htrue
          (eval_of_caseOf? hsupports (hothers cited hcited) hcase)
          (eval_of_caseOf? hsupports (hothers cited' hcited') hcase')
          (Option.some.inj hproves)
      · split at hproves <;> contradiction
  · contradiction

theorem closesSoundly_disjunctionElim : ClosesSoundly disjunctionElim := by
  intro valuation context finding conclusion hsupports hfinding hclean hconclusion
  unfold disjunctionElim Context.whenParsed at hfinding
  rw [hconclusion] at hfinding
  split at hfinding
  · rename_i parsed cited hparsed hcited
    obtain rfl := Option.some.inj hparsed
    beta_reduce at hfinding
    split at hfinding
    · contradiction
    · rename_i disjunction hfound
      obtain ⟨others, hmem, hproves⟩ := exists_of_findCases? hfound
      obtain ⟨hdisjunction, hothers⟩ := mem_of_mem_selections hmem
      exact eval_of_provesByCases? hsupports hdisjunction hothers hproves
    · exact (Finding.not_pass_object hfinding hclean).elim
  · exact (Finding.not_pass_object hfinding hclean).elim

end Check

end Deduction
