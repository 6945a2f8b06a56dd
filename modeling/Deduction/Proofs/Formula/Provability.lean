import Deduction.Proofs.Formula.Key
import Mathlib.Data.List.Dedup
import Mathlib.Logic.Function.Basic

/-!
Natural deduction on trees, and its completeness.

Each connective has a rule to introduce and a rule to eliminate it, and a formula follows from the
refutation of its denial. What a rule takes away, so that it can no longer be seen in the
conclusion, is made of names from a fixed stock. Every formula is decided by the literals that
agree with a valuation, and literals go away in pairs; so whatever follows in truth is provable.
-/

namespace Deduction

namespace Formula

variable {names : String → Prop} {name : String} {left right operand : Formula}

/-- The formula is made of names from a stock. -/
def Over (names : String → Prop) (formula : Formula) : Prop :=
  ∀ name ∈ formula.atoms, names name

@[simp] theorem over_atom : Over names (.atom name) ↔ names name := by
  simp [Over, atoms]

@[simp] theorem over_neg : Over names (.neg operand) ↔ Over names operand := Iff.rfl

@[simp] theorem over_conj : Over names (.conj left right) ↔ Over names left ∧ Over names right := by
  simp [Over, atoms, or_imp, forall_and]

@[simp] theorem over_disj : Over names (.disj left right) ↔ Over names left ∧ Over names right := by
  simp [Over, atoms, or_imp, forall_and]

@[simp] theorem over_imp : Over names (.imp left right) ↔ Over names left ∧ Over names right := by
  simp [Over, atoms, or_imp, forall_and]

@[simp] theorem over_iff : Over names (.iff left right) ↔ Over names left ∧ Over names right := by
  simp [Over, atoms, or_imp, forall_and]

end Formula

open Formula

/-- A formula is provable from hypotheses. Formulas that a rule takes away are made of names from
the stock. -/
inductive Provable (names : String → Prop) : List Formula → Formula → Prop
  | hypothesis {hypotheses : List Formula} {formula : Formula} :
      formula ∈ hypotheses → Provable names hypotheses formula
  | conjunctionIntro {hypotheses : List Formula} {left right : Formula} :
      Provable names hypotheses left → Provable names hypotheses right →
        Provable names hypotheses (.conj left right)
  | conjunctionLeft {hypotheses : List Formula} {left right : Formula} :
      Over names right → Provable names hypotheses (.conj left right) →
        Provable names hypotheses left
  | conjunctionRight {hypotheses : List Formula} {left right : Formula} :
      Over names left → Provable names hypotheses (.conj left right) →
        Provable names hypotheses right
  | disjunctionLeft {hypotheses : List Formula} {left right : Formula} :
      Provable names hypotheses left → Provable names hypotheses (.disj left right)
  | disjunctionRight {hypotheses : List Formula} {left right : Formula} :
      Provable names hypotheses right → Provable names hypotheses (.disj left right)
  | disjunctionElim {hypotheses : List Formula} {left right conclusion : Formula} :
      Over names left → Over names right → Provable names hypotheses (.disj left right) →
        Provable names hypotheses (.imp left conclusion) →
          Provable names hypotheses (.imp right conclusion) → Provable names hypotheses conclusion
  | conditionalIntro {hypotheses : List Formula} {left right : Formula} :
      Provable names (left :: hypotheses) right → Provable names hypotheses (.imp left right)
  | conditionalElim {hypotheses : List Formula} {left right : Formula} :
      Over names left → Provable names hypotheses (.imp left right) →
        Provable names hypotheses left → Provable names hypotheses right
  | biconditionalIntro {hypotheses : List Formula} {left right : Formula} :
      Provable names hypotheses (.imp left right) → Provable names hypotheses (.imp right left) →
        Provable names hypotheses (.iff left right)
  | biconditionalRight {hypotheses : List Formula} {left right : Formula} :
      Over names left → Provable names hypotheses (.iff left right) →
        Provable names hypotheses left → Provable names hypotheses right
  | biconditionalLeft {hypotheses : List Formula} {left right : Formula} :
      Over names right → Provable names hypotheses (.iff left right) →
        Provable names hypotheses right → Provable names hypotheses left
  | negationIntro {hypotheses : List Formula} {assumption refuted : Formula} :
      Over names refuted → Provable names (assumption :: hypotheses) refuted →
        Provable names (assumption :: hypotheses) (.neg refuted) →
          Provable names hypotheses (.neg assumption)
  | indirectProof {hypotheses : List Formula} {conclusion refuted : Formula} :
      Over names refuted → Provable names (.neg conclusion :: hypotheses) refuted →
        Provable names (.neg conclusion :: hypotheses) (.neg refuted) →
          Provable names hypotheses conclusion

namespace Provable

variable {names : String → Prop} {hypotheses others : List Formula}
  {formula assumption conclusion : Formula}

theorem weaken (hprovable : Provable names hypotheses formula) (hsubset : hypotheses ⊆ others) :
    Provable names others formula := by
  induction hprovable generalizing others with
  | hypothesis hmem => exact .hypothesis (hsubset hmem)
  | conjunctionIntro _ _ ihLeft ihRight => exact .conjunctionIntro (ihLeft hsubset) (ihRight hsubset)
  | conjunctionLeft hover _ ih => exact .conjunctionLeft hover (ih hsubset)
  | conjunctionRight hover _ ih => exact .conjunctionRight hover (ih hsubset)
  | disjunctionLeft _ ih => exact .disjunctionLeft (ih hsubset)
  | disjunctionRight _ ih => exact .disjunctionRight (ih hsubset)
  | disjunctionElim hleft hright _ _ _ ih ihLeft ihRight =>
      exact .disjunctionElim hleft hright (ih hsubset) (ihLeft hsubset) (ihRight hsubset)
  | conditionalIntro _ ih => exact .conditionalIntro (ih (List.cons_subset_cons _ hsubset))
  | conditionalElim hover _ _ ih ihLeft => exact .conditionalElim hover (ih hsubset) (ihLeft hsubset)
  | biconditionalIntro _ _ ihLeft ihRight =>
      exact .biconditionalIntro (ihLeft hsubset) (ihRight hsubset)
  | biconditionalRight hover _ _ ih ihLeft =>
      exact .biconditionalRight hover (ih hsubset) (ihLeft hsubset)
  | biconditionalLeft hover _ _ ih ihRight =>
      exact .biconditionalLeft hover (ih hsubset) (ihRight hsubset)
  | negationIntro hover _ _ ih ihNeg =>
      exact .negationIntro hover (ih (List.cons_subset_cons _ hsubset))
        (ihNeg (List.cons_subset_cons _ hsubset))
  | indirectProof hover _ _ ih ihNeg =>
      exact .indirectProof hover (ih (List.cons_subset_cons _ hsubset))
        (ihNeg (List.cons_subset_cons _ hsubset))

theorem under (hprovable : Provable names hypotheses formula) (assumption : Formula) :
    Provable names (assumption :: hypotheses) formula :=
  hprovable.weaken (List.subset_cons_self _ _)

theorem assumed : Provable names (assumption :: hypotheses) assumption :=
  .hypothesis List.mem_cons_self

theorem explosion (hover : Over names formula) (hformula : Provable names hypotheses formula)
    (hdenial : Provable names hypotheses (.neg formula)) (conclusion : Formula) :
    Provable names hypotheses conclusion :=
  .indirectProof hover (hformula.under _) (hdenial.under _)

theorem byCases (hover : Over names assumption) (hconclusion : Over names conclusion)
    (htrue : Provable names (assumption :: hypotheses) conclusion)
    (hfalse : Provable names (.neg assumption :: hypotheses) conclusion) :
    Provable names hypotheses conclusion := by
  have hdenial : Provable names (.neg conclusion :: hypotheses) (.neg assumption) := by
    refine .negationIntro hconclusion (htrue.weaken ?_) (assumed.under _)
    exact List.cons_subset_cons _ (List.subset_cons_self _ _)
  refine .indirectProof hconclusion ?_ assumed
  exact .conditionalElim (over_neg.mpr hover) ((conditionalIntro hfalse).under _) hdenial

end Provable

/-- The hypotheses decide a formula as a valuation does. -/
structure Decides (names : String → Prop) (valuation : String → Bool) (hypotheses : List Formula)
    (formula : Formula) : Prop where
  proves : formula.eval valuation = true → Provable names hypotheses formula
  refutes : formula.eval valuation = false → Provable names hypotheses (.neg formula)

namespace Decides

variable {names : String → Prop} {valuation : String → Bool} {hypotheses : List Formula}
  {left right operand : Formula}

theorem neg (hover : Over names operand) (hoperand : Decides names valuation hypotheses operand) :
    Decides names valuation hypotheses (.neg operand) where
  proves htrue := hoperand.refutes (by simpa using htrue)
  refutes hfalse := by
    have hproves := hoperand.proves (by simpa using hfalse)
    exact .negationIntro hover (hproves.under _) .assumed

theorem conj (hoverLeft : Over names left) (hoverRight : Over names right)
    (hleft : Decides names valuation hypotheses left)
    (hright : Decides names valuation hypotheses right) :
    Decides names valuation hypotheses (.conj left right) where
  proves htrue := by
    rw [eval_conj, Bool.and_eq_true] at htrue
    exact .conjunctionIntro (hleft.proves htrue.1) (hright.proves htrue.2)
  refutes hfalse := by
    rw [eval_conj, Bool.and_eq_false_iff] at hfalse
    rcases hfalse with hfalse | hfalse
    · exact .negationIntro hoverLeft (.conjunctionLeft hoverRight .assumed)
        ((hleft.refutes hfalse).under _)
    · exact .negationIntro hoverRight (.conjunctionRight hoverLeft .assumed)
        ((hright.refutes hfalse).under _)

theorem disj (hoverLeft : Over names left) (hoverRight : Over names right)
    (hleft : Decides names valuation hypotheses left)
    (hright : Decides names valuation hypotheses right) :
    Decides names valuation hypotheses (.disj left right) where
  proves htrue := by
    rw [eval_disj, Bool.or_eq_true] at htrue
    rcases htrue with htrue | htrue
    · exact .disjunctionLeft (hleft.proves htrue)
    · exact .disjunctionRight (hright.proves htrue)
  refutes hfalse := by
    rw [eval_disj, Bool.or_eq_false_iff] at hfalse
    have hnotLeft := hleft.refutes hfalse.1
    -- Either side leads to the right one, which is refuted.
    have hfirst : Provable names (.disj left right :: hypotheses) (.imp left right) :=
      .conditionalIntro (.explosion hoverLeft .assumed ((hnotLeft.under _).under _) right)
    have hsecond : Provable names (.disj left right :: hypotheses) (.imp right right) :=
      .conditionalIntro .assumed
    exact .negationIntro hoverRight
      (.disjunctionElim hoverLeft hoverRight .assumed hfirst hsecond)
      ((hright.refutes hfalse.2).under _)

theorem provable_imp (hover : Over names left) (hleft : Decides names valuation hypotheses left)
    (hright : Decides names valuation hypotheses right)
    (htrue : left.eval valuation = false ∨ right.eval valuation = true) :
    Provable names hypotheses (.imp left right) := by
  rcases htrue with hfalse | htrue
  · exact .conditionalIntro (.explosion hover .assumed ((hleft.refutes hfalse).under _) right)
  · exact .conditionalIntro ((hright.proves htrue).under _)

theorem imp (hoverLeft : Over names left) (hoverRight : Over names right)
    (hleft : Decides names valuation hypotheses left)
    (hright : Decides names valuation hypotheses right) :
    Decides names valuation hypotheses (.imp left right) where
  proves htrue := by
    apply provable_imp hoverLeft hleft hright
    simpa using htrue
  refutes hfalse := by
    rw [eval_imp, Bool.or_eq_false_iff, Bool.not_eq_false'] at hfalse
    exact .negationIntro hoverRight
      (.conditionalElim hoverLeft .assumed ((hleft.proves hfalse.1).under _))
      ((hright.refutes hfalse.2).under _)

theorem iff (hoverLeft : Over names left) (hoverRight : Over names right)
    (hleft : Decides names valuation hypotheses left)
    (hright : Decides names valuation hypotheses right) :
    Decides names valuation hypotheses (.iff left right) where
  proves htrue := by
    rw [eval_iff, beq_iff_eq] at htrue
    refine .biconditionalIntro (provable_imp hoverLeft hleft hright ?_)
      (provable_imp hoverRight hright hleft ?_)
    · rw [htrue]
      exact Bool.eq_false_or_eq_true _ |>.symm
    · rw [htrue]
      exact Bool.eq_false_or_eq_true _ |>.symm
  refutes hfalse := by
    rw [eval_iff] at hfalse
    cases htruth : left.eval valuation with
    | true =>
        have hright' : right.eval valuation = false := by simpa [htruth] using hfalse
        exact .negationIntro hoverRight
          (.biconditionalRight hoverLeft .assumed ((hleft.proves htruth).under _))
          ((hright.refutes hright').under _)
    | false =>
        have hright' : right.eval valuation = true := by simpa [htruth] using hfalse
        exact .negationIntro hoverLeft
          (.biconditionalLeft hoverRight .assumed ((hright.proves hright').under _))
          ((hleft.refutes htruth).under _)

end Decides

/-- The literals over names that agree with a valuation. -/
def literals (valuation : String → Bool) (atoms : List String) : List Formula :=
  atoms.map fun name => if valuation name then .atom name else .neg (.atom name)

namespace Provable

variable {names : String → Prop} {valuation : String → Bool} {hypotheses : List Formula}

theorem decides_of_literals {atoms : List String} {formula : Formula} (hover : Over names formula)
    (hatoms : formula.atoms ⊆ atoms) (hliterals : literals valuation atoms ⊆ hypotheses) :
    Decides names valuation hypotheses formula := by
  induction formula with
  | atom name =>
      have hmem : name ∈ atoms := hatoms List.mem_cons_self
      have hliteral := hliterals (List.mem_map_of_mem hmem)
      refine ⟨fun htrue => ?_, fun hfalse => ?_⟩
      · rw [eval_atom] at htrue
        exact .hypothesis (by simpa [htrue] using hliteral)
      · rw [eval_atom] at hfalse
        exact .hypothesis (by simpa [hfalse] using hliteral)
  | neg operand ih => exact .neg hover (ih hover hatoms)
  | conj left right ihLeft ihRight =>
      obtain ⟨hleft, hright⟩ := over_conj.mp hover
      obtain ⟨hatomsLeft, hatomsRight⟩ := List.append_subset.mp hatoms
      exact .conj hleft hright (ihLeft hleft hatomsLeft) (ihRight hright hatomsRight)
  | disj left right ihLeft ihRight =>
      obtain ⟨hleft, hright⟩ := over_disj.mp hover
      obtain ⟨hatomsLeft, hatomsRight⟩ := List.append_subset.mp hatoms
      exact .disj hleft hright (ihLeft hleft hatomsLeft) (ihRight hright hatomsRight)
  | imp left right ihLeft ihRight =>
      obtain ⟨hleft, hright⟩ := over_imp.mp hover
      obtain ⟨hatomsLeft, hatomsRight⟩ := List.append_subset.mp hatoms
      exact .imp hleft hright (ihLeft hleft hatomsLeft) (ihRight hright hatomsRight)
  | iff left right ihLeft ihRight =>
      obtain ⟨hleft, hright⟩ := over_iff.mp hover
      obtain ⟨hatomsLeft, hatomsRight⟩ := List.append_subset.mp hatoms
      exact .iff hleft hright (ihLeft hleft hatomsLeft) (ihRight hright hatomsRight)

theorem literals_update {atoms : List String} {name : String} (hname : name ∉ atoms) (value : Bool) :
    literals (Function.update valuation name value) atoms = literals valuation atoms := by
  apply List.map_congr_left
  intro other hother
  have hne : other ≠ name := by
    rintro rfl
    exact hname hother
  rw [Function.update_of_ne hne]

/-- What follows whatever the literals follows without them. -/
theorem of_literals {atoms : List String} {conclusion : Formula} (hnodup : atoms.Nodup)
    (hnames : ∀ name ∈ atoms, names name) (hover : Over names conclusion)
    (hprovable : ∀ valuation, Provable names (literals valuation atoms ++ hypotheses) conclusion) :
    Provable names hypotheses conclusion := by
  induction atoms with
  | nil => exact hprovable fun _ => true
  | cons name atoms ih =>
      obtain ⟨hname, hnodup⟩ := List.nodup_cons.mp hnodup
      refine ih hnodup (fun other hother => hnames other (List.mem_cons_of_mem _ hother)) ?_
      intro valuation
      refine byCases (over_atom.mpr (hnames name List.mem_cons_self)) hover ?_ ?_
      · have htrue := hprovable (Function.update valuation name true)
        rw [literals, List.map_cons, Function.update_self, if_pos rfl] at htrue
        rw [← literals_update hname true]
        exact htrue
      · have hfalse := hprovable (Function.update valuation name false)
        rw [literals, List.map_cons, Function.update_self, if_neg Bool.false_ne_true] at hfalse
        rw [← literals_update hname false]
        exact hfalse

/-- What is true wherever the hypotheses are is provable from them. -/
theorem of_entails {conclusion : Formula} (hhypotheses : ∀ formula ∈ hypotheses, Over names formula)
    (hover : Over names conclusion)
    (hentails : ∀ valuation, (∀ formula ∈ hypotheses, formula.eval valuation = true) →
      conclusion.eval valuation = true) :
    Provable names hypotheses conclusion := by
  let atoms := ((conclusion :: hypotheses).flatMap Formula.atoms).dedup
  have hatoms : ∀ formula ∈ conclusion :: hypotheses, formula.atoms ⊆ atoms := by
    intro formula hmem name hname
    exact List.mem_dedup.mpr (List.mem_flatMap.mpr ⟨formula, hmem, hname⟩)
  have hnames : ∀ name ∈ atoms, names name := by
    intro name hname
    obtain ⟨formula, hmem, hoccurs⟩ := List.mem_flatMap.mp (List.mem_dedup.mp hname)
    rcases List.mem_cons.mp hmem with rfl | hmem
    · exact hover name hoccurs
    · exact hhypotheses formula hmem name hoccurs
  refine of_literals (List.nodup_dedup _) hnames hover ?_
  intro valuation
  have hdecides : ∀ formula ∈ conclusion :: hypotheses, Over names formula →
      Decides names valuation (literals valuation atoms ++ hypotheses) formula :=
    fun formula hmem hover =>
      decides_of_literals hover (hatoms formula hmem) (List.subset_append_left _ _)
  by_cases htrue : ∀ formula ∈ hypotheses, formula.eval valuation = true
  · exact (hdecides conclusion List.mem_cons_self hover).proves (hentails valuation htrue)
  · -- A hypothesis that is false is refuted by the literals.
    simp only [not_forall, Bool.not_eq_true] at htrue
    obtain ⟨formula, hmem, hfalse⟩ := htrue
    have hformula := hhypotheses formula hmem
    exact explosion hformula (.hypothesis (List.mem_append_right _ hmem))
      ((hdecides formula (List.mem_cons_of_mem _ hmem) hformula).refutes hfalse) conclusion

end Provable

end Deduction
