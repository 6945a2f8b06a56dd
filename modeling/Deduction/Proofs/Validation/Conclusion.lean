import Deduction.Proofs.Formula.Naming
import Deduction.Proofs.Formula.Rearrangement
import Deduction.Proofs.Validation.Acceptance

/-!
When a conclusion counts as reached.

What a text states is kept as the key of a canonical form, or as its core where it spells no
formula. A key belongs to one canonical form, so two texts state the same when they spell formulas
that agree, or no formulas and have the same core. As no depth is negative, the least depth at which
something is established is the top exactly when it is established there at all.
-/

namespace Deduction

open Formula

/-- Two texts spell formulas that agree, or neither spells one and their cores are the same. -/
def StatesSame (lenient : Bool) (text other : String) : Prop :=
  (∃ formula formula', parse? lenient text = some formula ∧
    parse? lenient other = some formula' ∧ formula.agrees formula' = true) ∨
  (parse? lenient text = none ∧ parse? lenient other = none ∧
    core text.toList = core other.toList)

theorem Standing.ofText_eq_iff {lenient : Bool} {text other : String} :
    Standing.ofText lenient text = Standing.ofText lenient other ↔
      StatesSame lenient text other := by
  unfold Standing.ofText StatesSame
  cases htext : parse? lenient text with
  | none => cases hother : parse? lenient other <;> simp
  | some formula =>
      cases hother : parse? lenient other with
      | none => simp
      | some formula' =>
          simp [canonicalKey_eq_iff (isNamed_of_parse? htext) (isNamed_of_parse? hother)]

namespace Validation

theorem conclusionReached_run (policy : Policy) (checks : Rule → Check) (ruleset : Ruleset)
    (premises : List String) (conclusion : String) (lines : List Line) :
    (run policy checks ruleset premises conclusion lines).conclusionReached =
      reaches policy.lenient
        (established policy.lenient premises (Trial.ofLines policy ruleset checks lines).judgements)
        conclusion := by
  rw [run]

theorem judgements_run (policy : Policy) (checks : Rule → Check) (ruleset : Ruleset)
    (premises : List String) (conclusion : String) (lines : List Line) :
    (run policy checks ruleset premises conclusion lines).judgements =
      (Trial.ofLines policy ruleset checks lines).judgements := by
  rw [run]

theorem concluded_run (policy : Policy) (checks : Rule → Check) (ruleset : Ruleset)
    (premises : List String) (conclusion : String) (lines : List Line) :
    (run policy checks ruleset premises conclusion lines).concluded =
      !(Text.trim conclusion.toList).isEmpty := by
  rw [run]

theorem ok_verdict (validation : Validation) : validation.verdict.ok = validation.ok := rfl

theorem conclusionReached_verdict (validation : Validation) :
    validation.verdict.conclusionReached = validation.conclusionReached := rfl

theorem mem_established_iff {lenient : Bool} {premises : List String}
    {judgements : List Judgement} {standing : Standing} {depth : Int} :
    (standing, depth) ∈ established lenient premises judgements ↔
      (∃ premise ∈ premises, isBlankText premise = false ∧
        Standing.ofText lenient premise = standing ∧ depth = 0) ∨
      ∃ judgement ∈ judgements, judgement.accepted = true ∧
        Standing.ofText lenient judgement.line.formula = standing ∧
          judgement.line.depth = depth := by
  rw [established, List.mem_append, List.mem_map, List.mem_map]
  apply or_congr
  · constructor
    · rintro ⟨premise, hmem, heq⟩
      obtain ⟨hpremise, hblank⟩ := List.mem_filter.mp hmem
      obtain ⟨hstanding, hdepth⟩ := Prod.mk.inj heq
      exact ⟨premise, hpremise, by simpa using hblank, hstanding, hdepth.symm⟩
    · rintro ⟨premise, hpremise, hblank, rfl, rfl⟩
      exact ⟨premise, List.mem_filter.mpr ⟨hpremise, by simpa using hblank⟩, rfl⟩
  · constructor
    · rintro ⟨judgement, hmem, heq⟩
      obtain ⟨hjudgement, haccepted⟩ := List.mem_filter.mp hmem
      exact ⟨judgement, hjudgement, haccepted, Prod.mk.inj heq⟩
    · rintro ⟨judgement, hjudgement, haccepted, rfl, rfl⟩
      exact ⟨judgement, List.mem_filter.mpr ⟨hjudgement, haccepted⟩, rfl⟩

theorem mem_of_shallowest? {entries : List (Standing × Int)} {standing : Standing} {depth : Int}
    (hshallowest : shallowest? entries standing = some depth) : (standing, depth) ∈ entries := by
  obtain ⟨entry, hentry, rfl⟩ := List.mem_map.mp (List.min?_mem hshallowest)
  obtain ⟨hmem, hstanding⟩ := List.mem_filter.mp hentry
  rw [← beq_iff_eq.mp hstanding]
  exact hmem

theorem shallowest?_eq_zero_iff {entries : List (Standing × Int)} {standing : Standing}
    (hdepths : ∀ entry ∈ entries, 0 ≤ entry.2) :
    shallowest? entries standing = some 0 ↔ (standing, 0) ∈ entries := by
  constructor
  · exact mem_of_shallowest?
  · intro hmem
    rw [shallowest?, List.min?_eq_some_iff]
    refine ⟨List.mem_map_of_mem (List.mem_filter.mpr ⟨hmem, beq_self_eq_true standing⟩), ?_⟩
    intro depth hdepth
    obtain ⟨entry, hentry, rfl⟩ := List.mem_map.mp hdepth
    exact hdepths entry (List.mem_filter.mp hentry).1

theorem mem_of_reaches {lenient : Bool} {entries : List (Standing × Int)} {conclusion : String}
    (hreaches : reaches lenient entries conclusion = true) :
    (Standing.ofText lenient conclusion, 0) ∈ entries := by
  rw [reaches, Bool.and_eq_true, beq_iff_eq] at hreaches
  exact mem_of_shallowest? hreaches.2

theorem reaches_iff {lenient : Bool} {entries : List (Standing × Int)} {conclusion : String}
    (hdepths : ∀ entry ∈ entries, 0 ≤ entry.2) :
    reaches lenient entries conclusion = true ↔
      isBlankText conclusion = false ∧ (Standing.ofText lenient conclusion, 0) ∈ entries := by
  rw [reaches, Bool.and_eq_true, Bool.not_eq_true', beq_iff_eq, shallowest?_eq_zero_iff hdepths]

variable {policy : Policy} {checks : Rule → Check} {ruleset : Ruleset} {premises : List String}
  {conclusion : String} {lines : List Line}

theorem nonneg_of_mem_established {lenient : Bool} (hdepths : ∀ line ∈ lines, 0 ≤ line.depth) :
    ∀ entry ∈ established lenient premises (Trial.ofLines policy ruleset checks lines).judgements,
      0 ≤ entry.2 := by
  rintro ⟨standing, depth⟩ hentry
  rcases mem_established_iff.mp hentry with ⟨_, _, _, _, rfl⟩ | ⟨judgement, hmem, _, _, rfl⟩
  · exact Int.le_refl 0
  · obtain ⟨position, line, hline, rfl⟩ := Trial.mem_judgements.mp hmem
    rw [Trial.line_judge]
    exact hdepths line (List.mem_of_getElem? hline)

/-- Where no depth is negative, a conclusion is reached by what a premise or an accepted line at the
top states. -/
theorem conclusionReached_run_iff (hdepths : ∀ line ∈ lines, 0 ≤ line.depth) :
    (run policy checks ruleset premises conclusion lines).conclusionReached = true ↔
      isBlankText conclusion = false ∧
        ((∃ premise ∈ premises, isBlankText premise = false ∧
          StatesSame policy.lenient premise conclusion) ∨
        ∃ position line, lines[position]? = some line ∧ line.depth = 0 ∧
          ((Trial.ofLines policy ruleset checks lines).judge position line).accepted = true ∧
          StatesSame policy.lenient line.formula conclusion) := by
  rw [conclusionReached_run, reaches_iff (nonneg_of_mem_established hdepths), mem_established_iff]
  apply and_congr_right
  intro _
  apply or_congr
  · simp only [Standing.ofText_eq_iff, and_true]
  · constructor
    · rintro ⟨judgement, hmem, haccepted, hstanding, hdepth⟩
      obtain ⟨position, line, hline, rfl⟩ := Trial.mem_judgements.mp hmem
      rw [Trial.line_judge] at hstanding hdepth
      exact ⟨position, line, hline, hdepth, haccepted, Standing.ofText_eq_iff.mp hstanding⟩
    · rintro ⟨position, line, hline, hdepth, haccepted, hstates⟩
      refine ⟨_, Trial.mem_judgements.mpr ⟨position, line, hline, rfl⟩, haccepted, ?_, ?_⟩
      · rw [Trial.line_judge]
        exact Standing.ofText_eq_iff.mpr hstates
      · rw [Trial.line_judge]
        exact hdepth

end Validation

namespace Document

/-- Where no depth is negative, a conclusion counts as reached exactly when it is stated and a
premise or an accepted line at the top states the same. -/
theorem conclusionReached_iff_stated (document : Document) (policy : Policy)
    (validation : Validation) (hdepths : ∀ line ∈ document.lines, 0 ≤ line.depth)
    (hvalidate : document.validate policy = .ok validation) :
    validation.verdict.conclusionReached = true ↔
      isBlankText document.conclusion = false ∧
        ∃ text,
          ((text ∈ document.premises ∧ isBlankText text = false) ∨
            ∃ (position : Nat) (line : Line) (verdict : LineVerdict),
              document.lines[position]? = some line ∧
              validation.verdict.lines[position]? = some verdict ∧ verdict.ok = true ∧
              line.depth = 0 ∧ line.formula = text) ∧
          StatesSame policy.lenient text document.conclusion := by
  obtain ⟨ruleset, -, rfl⟩ := exists_run_of_validate hvalidate
  rw [Validation.conclusionReached_verdict, Validation.conclusionReached_run_iff hdepths]
  apply and_congr_right
  intro _
  constructor
  · rintro (⟨premise, hpremise, hblank, hstates⟩ | ⟨position, line, hline, hdepth, hok, hstates⟩)
    · exact ⟨premise, Or.inl ⟨hpremise, hblank⟩, hstates⟩
    · exact ⟨line.formula, Or.inr ⟨position, line, _, hline,
        Validation.verdict_lines_run hline, hok, hdepth, rfl⟩, hstates⟩
  · rintro ⟨text, ⟨hpremise, hblank⟩ |
      ⟨position, line, verdict, hline, hverdict, hok, hdepth, rfl⟩, hstates⟩
    · exact Or.inl ⟨text, hpremise, hblank, hstates⟩
    · rw [Validation.verdict_lines_run hline, Option.some.injEq] at hverdict
      subst hverdict
      exact Or.inr ⟨position, line, hline, hdepth, hok, hstates⟩

/-- A proof whose conclusion spells no formula. The first line states it inside a subproof, the
last one after it. -/
def restated : Document where
  premises := ["∀x(P(x)) ^ A"]
  conclusion := "(∀ x (P(x)))"
  lines :=
    [ { label := "1", formula := "forallx(P(x))", rule := "Assumption", depth := 1 }
    , { label := "2", formula := "∀x(P(x)) ^ A", rule := "Premise" }
    , { label := "3", formula := "((forall x(P(x))))", rule := "∧E", citations := ["2"] } ]
  ruleset := some "fol_basic"

theorem restated_is_stated :
    ∃ validation, restated.validate {} = .ok validation ∧
      ∃ text, ((text ∈ restated.premises ∧ isBlankText text = false) ∨
        ∃ (position : Nat) (line : Line) (verdict : LineVerdict),
          restated.lines[position]? = some line ∧
          validation.verdict.lines[position]? = some verdict ∧ verdict.ok = true ∧
          line.depth = 0 ∧ line.formula = text) ∧
        StatesSame false text "(∀ x (P(x)))" := by
  have hresolve : Ruleset.resolve restated.ruleset (Policy.defaultRuleset {}).name =
      .ok .folBasic := by rfl
  have hreached : (Validation.run {} Check.standard .folBasic restated.premises
      restated.conclusion restated.lines).verdict.conclusionReached = true := by decide +kernel
  refine ⟨_, validate_eq_run hresolve, ?_⟩
  exact ((conclusionReached_iff_stated restated {} _ (by decide) (validate_eq_run hresolve)).mp
    hreached).2

end Document

end Deduction
