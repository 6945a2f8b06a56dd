import Deduction.Proofs.Validation.Script

namespace Deduction

open Formula Deduction.Frame

/-- What the line at a position states is in scope at the end of a proof. -/
structure Stands (lines : List Line) (position : Nat) (formula : Formula) : Prop where
  states : StatesAt lines position formula
  stays : ∀ between, position ≤ between → between < lines.length →
    levelAt lines position ≤ levelAt lines between

theorem Stands.level_le {lines : List Line} {position : Nat} {formula : Formula}
    (hstands : Stands lines position formula) : levelAt lines position ≤ endLevel lines := by
  have hposition := hstands.states.lt_length
  rw [endLevel]
  cases hlength : lines.length with
  | zero => omega
  | succ last => exact hstands.stays last (by omega) (by omega)

theorem Stands.isAccessible {lines : List Line} {position : Nat} {formula : Formula}
    (hstands : Stands lines position formula) {line : Line}
    (hlevel : levelAt lines position ≤ line.level) :
    isAccessible (ofLines (lines ++ [line])) position lines.length = true := by
  have hposition := hstands.states.lt_length
  rw [isAccessible_ofLines_iff (Nat.le_of_lt hposition), levelAt_append hposition]
  intro between hfrom hto
  rcases Nat.eq_or_lt_of_le hto with rfl | hbefore
  · rw [levelAt_snoc]
    exact hlevel
  · rw [levelAt_append hbefore]
    exact hstands.stays between hfrom hbefore

/-- A script that goes on from lines without leaving the subproofs they are in, and comes back to
the level where they end. -/
structure Continues (premises : List Formula) (lines lines' : List Line) : Prop where
  script : IsScript premises lines'
  begins : lines <+: lines'
  above : ∀ position, lines.length ≤ position → position < lines'.length →
    endLevel lines ≤ levelAt lines' position
  level : endLevel lines' = endLevel lines

/-- A formula is stated after lines, at the level where they end. -/
structure Derives (lines lines' : List Line) (position : Nat) (formula : Formula) : Prop where
  after : lines.length ≤ position
  level : levelAt lines' position = endLevel lines
  stands : Stands lines' position formula

theorem levelAt_of_begins {lines lines' : List Line} (hbegins : lines <+: lines') {position : Nat}
    (hposition : position < lines.length) : levelAt lines' position = levelAt lines position := by
  obtain ⟨more, rfl⟩ := hbegins
  exact levelAt_append hposition more

section Continuing

variable {premises : List Formula} {lines lines' lines'' : List Line} {position : Nat}
  {formula : Formula}

theorem Continues.refl (hscript : IsScript premises lines) : Continues premises lines lines :=
  ⟨hscript, List.prefix_rfl, fun _ hfrom hto => by omega, rfl⟩

theorem Continues.trans (hfirst : Continues premises lines lines')
    (hsecond : Continues premises lines' lines'') : Continues premises lines lines'' := by
  refine ⟨hsecond.script, hfirst.begins.trans hsecond.begins, ?_, hsecond.level.trans hfirst.level⟩
  intro position hfrom hto
  by_cases hposition : position < lines'.length
  · rw [levelAt_of_begins hsecond.begins hposition]
    exact hfirst.above position hfrom hposition
  · rw [← hfirst.level]
    exact hsecond.above position (Nat.not_lt.mp hposition) hto

theorem Stands.continues (hstands : Stands lines position formula)
    (hcontinues : Continues premises lines lines') : Stands lines' position formula := by
  have hposition := hstands.states.lt_length
  constructor
  · obtain ⟨more, rfl⟩ := hcontinues.begins
    exact hstands.states.append more
  · intro between hfrom hto
    rw [levelAt_of_begins hcontinues.begins hposition]
    by_cases hbetween : between < lines.length
    · rw [levelAt_of_begins hcontinues.begins hbetween]
      exact hstands.stays between hfrom hbetween
    · exact Nat.le_trans hstands.level_le
        (hcontinues.above between (Nat.not_lt.mp hbetween) hto)

theorem Derives.continues (hderives : Derives lines lines' position formula)
    (hcontinues : Continues premises lines' lines'') : Derives lines lines'' position formula := by
  refine ⟨hderives.after, ?_, hderives.stands.continues hcontinues⟩
  rw [levelAt_of_begins hcontinues.begins hderives.stands.states.lt_length]
  exact hderives.level

theorem Derives.of_continues (hcontinues : Continues premises lines lines')
    (hderives : Derives lines' lines'' position formula) :
    Derives lines lines'' position formula :=
  ⟨Nat.le_trans hcontinues.begins.length_le hderives.after, hderives.level.trans hcontinues.level,
    hderives.stands⟩

end Continuing

section Steps

variable {premises : List Formula} {lines : List Line} {formula : Formula} {rule : Rule}
  {cited : List (Nat × Formula)}

theorem statesAt_next (hover : Over IsStrictName formula) (rule : Rule)
    (cited : List (Nat × Formula)) (level : Nat) :
    StatesAt (lines ++ [.next lines formula rule cited level]) lines.length formula :=
  ⟨⟨_, List.getElem?_concat_length, rfl⟩, hover⟩

theorem stands_next (hover : Over IsStrictName formula) (rule : Rule)
    (cited : List (Nat × Formula)) (level : Nat) :
    Stands (lines ++ [.next lines formula rule cited level]) lines.length formula := by
  refine ⟨statesAt_next hover rule cited level, ?_⟩
  intro between hfrom hto
  rw [List.length_append, List.length_singleton] at hto
  obtain rfl : between = lines.length := by omega
  exact Nat.le_refl _

/-- Going on from lines, a formula can be derived. -/
def Yields (premises : List Formula) (lines : List Line) (formula : Formula) : Prop :=
  ∃ lines' position, Continues premises lines lines' ∧ Derives lines lines' position formula

theorem Continues.yields {lines' : List Line} (hcontinues : Continues premises lines lines')
    (hyields : Yields premises lines' formula) : Yields premises lines formula := by
  obtain ⟨lines'', position, hcontinues', hderives⟩ := hyields
  exact ⟨lines'', position, hcontinues.trans hcontinues', hderives.of_continues hcontinues⟩

/-- A line that follows at the level where lines end continues them, if the lines in between did
not leave their subproofs. -/
theorem IsScript.yields {inner : List Line} (hscript : IsScript premises inner)
    (hbegins : lines <+: inner)
    (habove : ∀ position, lines.length ≤ position → position < inner.length →
      endLevel lines ≤ levelAt inner position)
    (hfollows : Follows inner formula rule cited (endLevel lines))
    (hgiven : rule = .premise → formula ∈ premises) (hderived : rule ≠ .assumption) :
    Yields premises lines formula := by
  have hlevel := levelAt_snoc inner (.next inner formula rule cited (endLevel lines))
  rw [Line.level_next] at hlevel
  refine ⟨_, inner.length, ⟨hscript.snoc hfollows hgiven fun hrule => absurd hrule hderived,
    hbegins.trans (List.prefix_append _ _), ?_, endLevel_snoc _ _⟩, hbegins.length_le, hlevel,
    stands_next hfollows.spelled rule cited _⟩
  intro position hfrom hto
  rw [List.length_append, List.length_singleton] at hto
  rcases Nat.eq_or_lt_of_le (Nat.le_of_lt_succ hto) with rfl | hbefore
  · exact Nat.le_of_eq hlevel.symm
  · rw [levelAt_append hbefore]
    exact habove position hfrom hbefore

theorem follows_of_concludes (hover : Over IsStrictName formula)
    (hrule : rule ∈ Ruleset.propositional)
    (harity : rule.signature.arityError? cited.length = none)
    (hcited : ∀ entry ∈ cited, Stands lines entry.1 entry.2)
    (hconcludes : (Check.standard rule).Concludes (cited.map (·.2)) formula) :
    Follows lines formula rule cited (endLevel lines) := by
  refine ⟨hover, hrule, harity, fun entry hentry => (hcited entry hentry).states, ?_, ?_⟩
  · intro _ entry hentry
    exact (hcited entry hentry).isAccessible (hcited entry hentry).level_le
  · intro policy ruleset
    refine hconcludes _ (formula_context_next policy ruleset Check.standard hover _) ?_
    rw [Trial.citations_context, map_formula_citationsOf]

end Steps

/-- Every hypothesis is stated by a line in scope. -/
def InScope (hypotheses : List Formula) (lines : List Line) : Prop :=
  ∀ hypothesis ∈ hypotheses, ∃ position, Stands lines position hypothesis

/-- From every script with the hypotheses in scope, the formula can be derived. -/
def Reaches (premises hypotheses : List Formula) (formula : Formula) : Prop :=
  ∀ lines, IsScript premises lines → InScope hypotheses lines → Yields premises lines formula

section Reaching

variable {premises hypotheses : List Formula} {lines : List Line} {formula conclusion : Formula}

theorem InScope.continues {lines' : List Line} (hscope : InScope hypotheses lines)
    (hcontinues : Continues premises lines lines') : InScope hypotheses lines' := by
  intro hypothesis hhypothesis
  obtain ⟨position, hstands⟩ := hscope hypothesis hhypothesis
  exact ⟨position, hstands.continues hcontinues⟩

theorem exists_derives_of_reaches {formulas : List Formula}
    (hall : ∀ formula ∈ formulas, Reaches premises hypotheses formula)
    (hscript : IsScript premises lines) (hscope : InScope hypotheses lines) :
    ∃ (lines' : List Line) (cited : List (Nat × Formula)),
      Continues premises lines lines' ∧ cited.map (·.2) = formulas ∧
      ∀ entry ∈ cited, Derives lines lines' entry.1 entry.2 := by
  induction formulas generalizing lines with
  | nil => exact ⟨lines, [], .refl hscript, rfl, by simp⟩
  | cons formula rest ih =>
      -- The rest is derived after the first formula, which stays in scope.
      obtain ⟨lines', position, hcontinues, hderives⟩ :=
        hall formula List.mem_cons_self lines hscript hscope
      obtain ⟨lines'', cited, hcontinues', hformulas, hcited⟩ :=
        ih (fun other hother => hall other (List.mem_cons_of_mem _ hother)) hcontinues.script
          (hscope.continues hcontinues)
      refine ⟨lines'', (position, formula) :: cited, hcontinues.trans hcontinues',
        by rw [List.map_cons, hformulas], ?_⟩
      intro entry hentry
      rcases List.mem_cons.mp hentry with rfl | hentry
      · exact hderives.continues hcontinues'
      · exact (hcited entry hentry).of_continues hcontinues

/-- A line that follows wherever some formulas are in scope can be derived where they can. -/
theorem reaches_of_follows {rule : Rule} {formulas : List Formula}
    (hall : ∀ formula ∈ formulas, Reaches premises hypotheses formula)
    (hfollows : ∀ lines cited, cited.map (·.2) = formulas →
      (∀ entry ∈ cited, Stands lines entry.1 entry.2) →
        Follows lines conclusion rule cited (endLevel lines))
    (hgiven : rule = .premise → conclusion ∈ premises) (hderived : rule ≠ .assumption) :
    Reaches premises hypotheses conclusion := by
  intro lines hscript hscope
  obtain ⟨lines', cited, hcontinues, hformulas, hcited⟩ :=
    exists_derives_of_reaches hall hscript hscope
  have hnext := hfollows lines' cited hformulas fun entry hentry => (hcited entry hentry).stands
  exact hcontinues.yields (hcontinues.script.yields List.prefix_rfl (fun _ _ _ => by omega) hnext
    hgiven hderived)

theorem reaches_of_concludes (rule : Rule) (formulas : List Formula)
    (hall : ∀ formula ∈ formulas, Reaches premises hypotheses formula)
    (hover : Over IsStrictName conclusion) (hrule : rule ∈ Ruleset.propositional)
    (harity : rule.signature.arityError? formulas.length = none)
    (hconcludes : (Check.standard rule).Concludes formulas conclusion)
    (hgiven : rule = .premise → conclusion ∈ premises) (hderived : rule ≠ .assumption) :
    Reaches premises hypotheses conclusion := by
  refine reaches_of_follows hall ?_ hgiven hderived
  rintro lines cited rfl hcited
  exact follows_of_concludes hover hrule (by rw [← harity, List.length_map]) hcited hconcludes

theorem reaches_hypothesis (hmem : formula ∈ hypotheses) (hover : Over IsStrictName formula) :
    Reaches premises hypotheses formula := by
  intro lines hscript hscope
  obtain ⟨position, hstands⟩ := hscope formula hmem
  have hfollows : Follows lines formula .reiteration [(position, formula)] (endLevel lines) :=
    follows_of_concludes hover (by decide) rfl (List.forall_mem_singleton.mpr hstands)
      Check.concludes_reiteration
  exact hscript.yields List.prefix_rfl (fun _ _ _ => by omega) hfollows nofun nofun

theorem follows_disjunctionElim {left right : Formula} {cited : List (Nat × Formula)}
    (hover : Over IsStrictName conclusion)
    (hformulas : cited.map (·.2) =
      [.disj left right, .imp left conclusion, .imp right conclusion])
    (hcited : ∀ entry ∈ cited, Stands lines entry.1 entry.2) :
    Follows lines conclusion .disjunctionElim cited (endLevel lines) := by
  have hlength : cited.length = 3 := by
    rw [← List.length_map (·.2), hformulas]
    rfl
  refine ⟨hover, by decide, by rw [hlength]; rfl,
    fun entry hentry => (hcited entry hentry).states, nofun, ?_⟩
  intro policy ruleset
  apply Check.passes_disjunctionElim
    (formula_context_next policy ruleset Check.standard hover _)
  · rw [Trial.citations_context, map_formula_citationsOf, hformulas]
  · intro citation hcitation
    obtain ⟨entry, hentry, rfl⟩ := exists_entry_of_citation hcitation
    rw [Trial.canAccess_context]
    exact (hcited entry hentry).isAccessible (hcited entry hentry).level_le
  · -- A subproof that the next line could close lies deeper than what it cites.
    intro citation hcitation frame hstarting
    obtain ⟨entry, hentry, rfl⟩ := exists_entry_of_citation hcitation
    rw [Trial.dischargeable_context]
    apply notMem_dischargedAt_of_startingAt? hstarting
    exact (levelAt_append (hcited entry hentry).states.lt_length _).trans_le
      (hcited entry hentry).level_le

theorem reaches_of_cases {left right : Formula}
    (hdisjunction : Reaches premises hypotheses (.disj left right))
    (hleft : Reaches premises hypotheses (.imp left conclusion))
    (hright : Reaches premises hypotheses (.imp right conclusion))
    (hover : Over IsStrictName conclusion) : Reaches premises hypotheses conclusion := by
  have hall : ∀ formula ∈ [.disj left right, .imp left conclusion, .imp right conclusion],
      Reaches premises hypotheses formula :=
    List.forall_mem_cons.mpr ⟨hdisjunction,
      List.forall_mem_cons.mpr ⟨hleft, List.forall_mem_singleton.mpr hright⟩⟩
  exact reaches_of_follows hall (fun _ _ => follows_disjunctionElim hover) nofun nofun

end Reaching

/-- A proof in which a subproof is opened by an assumption. -/
def opened (lines : List Line) (assumption : Formula) : List Line :=
  lines ++ [.next lines assumption .assumption [] (endLevel lines + 1)]

section Discharging

variable {premises hypotheses : List Formula} {lines inner : List Line}
  {assumption formula conclusion : Formula} {rule : Rule} {cited : List (Nat × Formula)}

theorem endLevel_opened (lines : List Line) (assumption : Formula) :
    endLevel (opened lines assumption) = endLevel lines + 1 :=
  endLevel_snoc _ _

theorem length_opened (lines : List Line) (assumption : Formula) :
    (opened lines assumption).length = lines.length + 1 := by
  rw [opened, List.length_append, List.length_singleton]

theorem levelAt_opened (lines : List Line) (assumption : Formula) :
    levelAt (opened lines assumption) lines.length = endLevel lines + 1 :=
  levelAt_snoc _ _

theorem IsScript.opened (hscript : IsScript premises lines)
    (hover : Over IsStrictName assumption) : IsScript premises (opened lines assumption) := by
  refine hscript.snoc ⟨hover, by decide, rfl, nofun, nofun, ?_⟩ nofun
    fun _ => Nat.lt_succ_self _
  intro policy ruleset
  exact Check.concludes_assumption _ (formula_context_next policy ruleset Check.standard hover _)
    (by rw [Trial.citations_context]; rfl)

theorem Stands.opened {position : Nat} (hstands : Stands lines position formula)
    (assumption : Formula) : Stands (opened lines assumption) position formula := by
  have hposition := hstands.states.lt_length
  refine ⟨hstands.states.append _, ?_⟩
  intro between hfrom hto
  rw [length_opened] at hto
  rw [Deduction.opened, levelAt_append hposition]
  rcases Nat.eq_or_lt_of_le (Nat.le_of_lt_succ hto) with rfl | hbefore
  · rw [levelAt_snoc]
    exact Nat.le_succ_of_le hstands.level_le
  · rw [levelAt_append hbefore]
    exact hstands.stays between hfrom hbefore

theorem Continues.lt_levelAt (hinner : Continues premises (opened lines assumption) inner)
    {position : Nat} (hfrom : lines.length ≤ position) (hto : position < inner.length) :
    endLevel lines + 1 ≤ levelAt inner position := by
  rcases Nat.eq_or_lt_of_le hfrom with rfl | hafter
  · rw [levelAt_of_begins hinner.begins (by rw [length_opened]; omega), levelAt_opened]
  · rw [← endLevel_opened lines assumption]
    exact hinner.above position (by rw [length_opened]; omega) hto

theorem Continues.isSubproof (hinner : Continues premises (opened lines assumption) inner)
    {line : Line} (hlevel : line.level = endLevel lines) :
    IsSubproof (inner ++ [line]) (endLevel lines) lines.length (inner.length - 1) := by
  have hlength := hinner.begins.length_le
  rw [length_opened] at hlength
  constructor
  case before =>
    obtain ⟨more, rfl⟩ := hinner.begins
    rw [levelBefore_append (by omega), levelBefore_append (by rw [length_opened]; omega), opened,
      levelBefore_append (Nat.le_refl _), endLevel]
  case opens =>
    rw [levelAt_append (by omega),
      levelAt_of_begins hinner.begins (by rw [length_opened]; omega), levelAt_opened]
  case run =>
    refine ⟨by omega, by rw [List.length_append, List.length_singleton]; omega, ?_⟩
    intro position hfrom hto
    rw [levelAt_append (by omega)]
    exact hinner.lt_levelAt hfrom (by omega)
  case closes =>
    rw [Nat.sub_add_cancel (by omega), levelAt_snoc, hlevel]

theorem Continues.exists_frame (hinner : Continues premises (opened lines assumption) inner)
    {line : Line} (hlevel : line.level = endLevel lines) :
    ∃ frame, startingAt? (ofLines (inner ++ [line])) lines.length = some frame ∧
      frame.start = lines.length ∧
      frame ∈ dischargedAt (ofLines (inner ++ [line])) inner.length (endLevel lines) ∧
      ∀ position formula, Derives (opened lines assumption) inner position formula →
        isAtLevel (ofLines (inner ++ [line])) frame position = true := by
  have hsubproof := hinner.isSubproof hlevel
  obtain ⟨frame, hspans, hframe, hstart, hlast⟩ := hsubproof.exists_frame
  refine ⟨frame, hsubproof.startingAt?_eq hspans hframe hstart, hstart, ?_, ?_⟩
  · have hdischarged := hsubproof.mem_dischargedAt hspans hframe hstart hlast
    have hbegins := hinner.begins.length_le
    rw [length_opened] at hbegins
    rwa [Nat.sub_add_cancel (by omega)] at hdischarged
  · intro position formula hderives
    have hafter := hderives.after
    have hposition := hderives.stands.states.lt_length
    rw [length_opened] at hafter
    apply isAtLevel_of_levelAt ⟨by omega, by omega⟩
    rw [levelAt_append hposition, hderives.level, endLevel_opened, hframe]

/-- A line that closes a subproof continues the lines where it was opened. -/
theorem Continues.yields_of_closing (hinner : Continues premises (opened lines assumption) inner)
    (hfollows : Follows inner conclusion rule cited (endLevel lines))
    (hgiven : rule ≠ .premise) (hderived : rule ≠ .assumption) :
    Yields premises lines conclusion :=
  hinner.script.yields ((List.prefix_append _ _).trans hinner.begins)
    (fun _ hfrom hto => Nat.le_of_succ_le (hinner.lt_levelAt hfrom hto)) hfollows
    (fun hrule => absurd hrule hgiven) hderived

theorem stands_assumption (hover : Over IsStrictName assumption) :
    Stands (opened lines assumption) lines.length assumption :=
  stands_next hover _ _ _

theorem InScope.opened (hscope : InScope hypotheses lines)
    (hover : Over IsStrictName assumption) :
    InScope (assumption :: hypotheses) (opened lines assumption) := by
  intro hypothesis hhypothesis
  rcases List.mem_cons.mp hhypothesis with rfl | hhypothesis
  · exact ⟨lines.length, stands_assumption hover⟩
  · obtain ⟨position, hstands⟩ := hscope hypothesis hhypothesis
    exact ⟨position, hstands.opened assumption⟩

theorem Continues.follows_conditionalIntro {left right : Formula} {position : Nat}
    (hinner : Continues premises (opened lines left) inner)
    (hderives : Derives (opened lines left) inner position right)
    (hover : Over IsStrictName (.imp left right)) :
    Follows inner (.imp left right) .conditionalIntro [(lines.length, left), (position, right)]
      (endLevel lines) := by
  have hassumed := (stands_assumption (over_imp.mp hover).1).continues hinner
  refine ⟨hover, by decide, rfl, ?_, nofun, ?_⟩
  · exact List.forall_mem_cons.mpr ⟨hassumed.states,
      List.forall_mem_singleton.mpr hderives.stands.states⟩
  · intro policy ruleset
    obtain ⟨frame, hstarting, -, hclosed, hinside⟩ := hinner.exists_frame
      (Line.level_next inner (.imp left right) .conditionalIntro
        [(lines.length, left), (position, right)] (endLevel lines))
    refine @Check.passes_conditionalIntro _ frame _ _ (.stating lines.length left)
      (.stating position right) (formula_context_next policy ruleset Check.standard hover _)
      (Trial.citations_context _ _ _ _) rfl rfl hstarting ?_ ?_
    · rw [Trial.dischargeable_context]
      exact hclosed
    · exact hinside position right hderives

theorem reaches_conditionalIntro {left right : Formula}
    (hreaches : Reaches premises (left :: hypotheses) right)
    (hover : Over IsStrictName (.imp left right)) :
    Reaches premises hypotheses (.imp left right) := by
  intro lines hscript hscope
  have hleft := (over_imp.mp hover).1
  obtain ⟨inner, position, hinner, hderives⟩ := hreaches (opened lines left)
    (hscript.opened hleft) (hscope.opened hleft)
  exact hinner.yields_of_closing (hinner.follows_conditionalIntro hderives hover) nofun nofun

theorem Continues.follows_of_refuting {refuted : Formula}
    (hinner : Continues premises (opened lines assumption) inner)
    (hassumption : Over IsStrictName assumption)
    (hformulas : cited.map (·.2) = [refuted, .neg refuted])
    (hcited : ∀ entry ∈ cited, Derives (opened lines assumption) inner entry.1 entry.2)
    (hover : Over IsStrictName conclusion) (hrule : rule ∈ Ruleset.propositional)
    (harity : rule.signature.arityError? 2 = none) (hdischarges : rule.signature.discharges = true)
    (hpasses : ∀ context frame, Check.Refuting context frame assumption →
      context.formula = some conclusion → (Check.standard rule).Passes context) :
    Follows inner conclusion rule cited (endLevel lines) := by
  have hlength : cited.length = 2 := by
    rw [← List.length_map (·.2), hformulas]
    rfl
  have hassumed := (stands_assumption hassumption).continues hinner
  refine ⟨hover, hrule, by rw [hlength, harity],
    fun entry hentry => (hcited entry hentry).stands.states,
    fun hscoped => absurd (hscoped.symm.trans hdischarges) Bool.false_ne_true, ?_⟩
  intro policy ruleset
  obtain ⟨frame, -, hstart, hclosed, hinside⟩ := hinner.exists_frame
    (Line.level_next inner conclusion rule cited (endLevel lines))
  refine hpasses _ frame ?_ (formula_context_next policy ruleset Check.standard hover _)
  apply Check.refuting_of_citations (Trial.isComplete_context _ _ _ _ _ _ _)
  · rw [Trial.dischargeable_context]
    exact hclosed
  · rw [hstart]
    exact (hassumed.states.append _).formulas_getElem? policy ruleset Check.standard
  · rw [Trial.citations_context, map_formula_citationsOf, hformulas]
  · intro citation hcitation
    obtain ⟨entry, hentry, rfl⟩ := exists_entry_of_citation hcitation
    exact hinside entry.1 entry.2 (hcited entry hentry)

theorem reaches_of_refuting (rule : Rule) {refuted : Formula}
    (hpositive : Reaches premises (assumption :: hypotheses) refuted)
    (hnegative : Reaches premises (assumption :: hypotheses) (.neg refuted))
    (hassumption : Over IsStrictName assumption) (hover : Over IsStrictName conclusion)
    (hrule : rule ∈ Ruleset.propositional) (harity : rule.signature.arityError? 2 = none)
    (hdischarges : rule.signature.discharges = true)
    (hpasses : ∀ context frame, Check.Refuting context frame assumption →
      context.formula = some conclusion → (Check.standard rule).Passes context)
    (hgiven : rule ≠ .premise) (hderived : rule ≠ .assumption) :
    Reaches premises hypotheses conclusion := by
  intro lines hscript hscope
  obtain ⟨inner, cited, hinner, hformulas, hcited⟩ := exists_derives_of_reaches
    (List.forall_mem_cons.mpr ⟨hpositive, List.forall_mem_singleton.mpr hnegative⟩)
    (hscript.opened hassumption) (hscope.opened hassumption)
  have hfollows := hinner.follows_of_refuting hassumption hformulas hcited hover hrule harity
    hdischarges hpasses
  exact hinner.yields_of_closing hfollows hgiven hderived

end Discharging

end Deduction
