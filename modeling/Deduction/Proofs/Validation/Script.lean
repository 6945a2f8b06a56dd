import Deduction.Proofs.Check.Passing
import Deduction.Proofs.Formula.Provability
import Deduction.Proofs.Formula.RoundTrip
import Deduction.Proofs.Frame.Subproof
import Deduction.Proofs.Rule.Naming
import Deduction.Proofs.Validation.Extension
import Deduction.Proofs.Validation.Respelling

namespace Deduction

open Formula Deduction.Frame

/-- The label of the line at a position is its number. -/
def labelAt (position : Nat) : String :=
  toString (position + 1)

theorem labelAt_inj {first second : Nat} : labelAt first = labelAt second ↔ first = second := by
  constructor
  · intro hlabel
    have hdigits : Nat.toDigits 10 (first + 1) = Nat.toDigits 10 (second + 1) := by
      rw [← Nat.toList_repr, ← Nat.toList_repr]
      exact congrArg String.toList hlabel
    have hvalue := congrArg (Nat.ofDigitChars 10 · 0) hdigits
    simpa only [Nat.ofDigitChars_ten_toDigits, Nat.add_right_cancel_iff] using hvalue
  · rintro rfl
    rfl

@[simp] theorem isEmpty_labelAt (position : Nat) : (labelAt position).isEmpty = false := by
  simp [labelAt]

/-- The citation of a line at a position that states a formula. -/
def Citation.stating (position : Nat) (formula : Formula) : Citation :=
  { label := labelAt position, position, text := formula.render, formula := some formula }

theorem Ruleset.allows_of_propositional {rule : Rule} (hrule : rule ∈ propositional)
    (ruleset : Ruleset) : ruleset.allows rule = true := by
  rw [allows, List.contains_iff_mem, rules]
  split
  · exact List.mem_append_left _ hrule
  · exact hrule

theorem Formula.parse_render {formula : Formula} (hover : Over IsStrictName formula) :
    parse false formula.render = .ok formula :=
  (isWritten_render formula).parse_eq hover

/-- The line at a position carries its number as label. -/
def IsNumbered (lines : List Line) : Prop :=
  ∀ position line, lines[position]? = some line → line.label = labelAt position

/-- The line at a position states a formula, in its printed form. -/
structure StatesAt (lines : List Line) (position : Nat) (formula : Formula) : Prop where
  line : ∃ line, lines[position]? = some line ∧ line.formula = formula.render
  spelled : Over IsStrictName formula

theorem getElem?_snoc {lines : List Line} {line found : Line} {position : Nat}
    (hfound : (lines ++ [line])[position]? = some found) :
    lines[position]? = some found ∨ position = lines.length ∧ found = line := by
  rcases Nat.lt_trichotomy position lines.length with hlt | heq | hgt
  · rw [List.getElem?_append_left hlt] at hfound
    exact Or.inl hfound
  · subst heq
    simp only [List.getElem?_concat_length, Option.some.injEq] at hfound
    exact Or.inr ⟨rfl, hfound.symm⟩
  · rw [List.getElem?_eq_none (by simp; omega)] at hfound
    contradiction

theorem StatesAt.lt_length {lines : List Line} {position : Nat} {formula : Formula}
    (hstates : StatesAt lines position formula) : position < lines.length := by
  obtain ⟨line, hline, -⟩ := hstates.line
  exact (List.getElem?_eq_some_iff.mp hline).1

theorem StatesAt.append {lines : List Line} {position : Nat} {formula : Formula}
    (hstates : StatesAt lines position formula) (more : List Line) :
    StatesAt (lines ++ more) position formula := by
  obtain ⟨line, hline, hformula⟩ := hstates.line
  exact ⟨⟨line, by rw [List.getElem?_append_left hstates.lt_length, hline], hformula⟩,
    hstates.spelled⟩

theorem StatesAt.formulas_getElem? {lines : List Line} {position : Nat} {formula : Formula}
    (hstates : StatesAt lines position formula) (policy : Policy) (ruleset : Ruleset)
    (checks : Rule → Check) :
    (Trial.ofLines policy ruleset checks lines).formulas[position]? = some (some formula) := by
  obtain ⟨line, hline, hformula⟩ := hstates.line
  rw [Trial.ofLines]
  dsimp only
  rw [List.getElem?_map, hline, Option.map_some, hformula,
    parse?_of_strict (parse_render hstates.spelled)]

namespace Trial

variable {policy : Policy} {ruleset : Ruleset} {checks : Rule → Check} {lines : List Line}
  {position cited level : Nat} {formula : Formula} {rule : Rule}

theorem labelled?_ofLines (policy : Policy) (ruleset : Ruleset) (checks : Rule → Check)
    (lines : List Line) (position cited : Nat) :
    (ofLines policy ruleset checks lines).labelled? position (labelAt cited) =
      (lines.take position).findIdx? fun line => line.label == labelAt cited := by
  rw [labelled?, if_neg (by simp), ofLines]

theorem labelled?_labelAt (hnumbered : IsNumbered lines) (hcited : cited < position)
    (hposition : position ≤ lines.length) :
    (ofLines policy ruleset checks lines).labelled? position (labelAt cited) = some cited := by
  rw [labelled?_ofLines, List.findIdx?_eq_some_iff_getElem]
  have hlabel : ∀ index (hindex : index < lines.length), lines[index].label = labelAt index :=
    fun index hindex => hnumbered index _ (List.getElem?_eq_getElem hindex)
  refine ⟨?_, ?_, ?_⟩
  · rw [List.length_take]
    exact Nat.lt_min.mpr ⟨hcited, Nat.lt_of_lt_of_le hcited hposition⟩
  · rw [List.getElem_take, hlabel]
    exact beq_self_eq_true _
  · intro earlier hearlier
    rw [List.getElem_take, hlabel, beq_iff_eq, labelAt_inj]
    omega

theorem labelled?_labelAt_self (hnumbered : IsNumbered lines) :
    (ofLines policy ruleset checks lines).labelled? position (labelAt position) = none := by
  rw [labelled?_ofLines, List.findIdx?_eq_none_iff]
  intro line hline
  obtain ⟨index, hindex⟩ := List.mem_iff_getElem?.mp hline
  have hbound := (List.getElem?_eq_some_iff.mp hindex).1
  rw [List.length_take, Nat.lt_min] at hbound
  rw [List.getElem?_take_of_lt hbound.1] at hindex
  rw [hnumbered index line hindex, beq_eq_false_iff_ne, Ne, labelAt_inj]
  omega

theorem cite_stating {line : Line} {discharges : Bool}
    (hnumbered : IsNumbered (lines ++ [line])) (hstates : StatesAt lines cited formula)
    (hscope : discharges = false → isAccessible (Frame.ofLines (lines ++ [line])) cited
      lines.length = true) :
    (ofLines policy ruleset checks (lines ++ [line])).cite lines.length line discharges
      (labelAt cited) = .ok (.stating cited formula) := by
  obtain ⟨source, hsource, hformula⟩ := hstates.line
  have hcited := hstates.lt_length
  have hlabel : line.label = labelAt lines.length :=
    hnumbered lines.length line List.getElem?_concat_length
  have hself : (!line.label.isEmpty && labelAt cited == line.label) = false := by
    rw [hlabel, Bool.and_eq_false_iff]
    exact Or.inr (beq_eq_false_iff_ne.mpr fun hsame => absurd (labelAt_inj.mp hsame) (by omega))
  have hlabelled := @labelled?_labelAt policy ruleset checks _ _ _ hnumbered hcited
    (Nat.le_of_lt (by simp))
  have hclosed : (policy.enforceScope && !discharges &&
      !isAccessible (Frame.ofLines (lines ++ [line])) cited lines.length) = false := by
    cases discharges with
    | true => simp
    | false => simp [hscope rfl]
  have hparsed := (hstates.append [line]).formulas_getElem? policy ruleset checks
  have htext : ((ofLines policy ruleset checks (lines ++ [line])).lines[cited]?.map
      (·.formula)).getD "" = formula.render := by
    rw [ofLines]
    dsimp only
    rw [List.getElem?_append_left hcited, hsource, Option.map_some, Option.getD_some, hformula]
  rw [cite, hself, hlabelled, if_neg Bool.false_ne_true]
  dsimp only
  rw [hparsed, htext, if_neg (by rw [ofLines, hclosed]; exact Bool.false_ne_true),
    Option.join_some]
  rfl

theorem citations_context (trial : Trial) (position : Nat) (line : Line)
    (citations : List Citation) :
    (trial.context position line citations).citations = citations := by
  rw [context]

theorem canAccess_context (trial : Trial) (position cited : Nat) (line : Line)
    (citations : List Citation) :
    (trial.context position line citations).canAccess cited =
      Frame.isAccessible trial.frames cited position := by
  rw [context, Context.canAccess]

theorem dischargeable_context (trial : Trial) (position : Nat) (line : Line)
    (citations : List Citation) :
    (trial.context position line citations).dischargeable =
      dischargedAt trial.frames position line.depth := by
  rw [context, Context.dischargeable]

end Trial

/-- The line that goes on with a proof. It states a formula by a rule and cites lines by their
positions. -/
def Line.next (lines : List Line) (formula : Formula) (rule : Rule) (cited : List (Nat × Formula))
    (level : Nat) : Line :=
  { label := labelAt lines.length
    formula := formula.render
    rule := rule.name
    citations := cited.map fun entry => labelAt entry.1
    depth := level }

theorem Line.level_next (lines : List Line) (formula : Formula) (rule : Rule)
    (cited : List (Nat × Formula)) (level : Nat) :
    (Line.next lines formula rule cited level).level = level := rfl

theorem Line.citations_next (lines : List Line) (formula : Formula) (rule : Rule)
    (cited : List (Nat × Formula)) (level : Nat) :
    (Line.next lines formula rule cited level).citations =
      cited.map fun entry => labelAt entry.1 := rfl

/-- What the lines cited state, as citations. -/
def citationsOf (cited : List (Nat × Formula)) : List Citation :=
  cited.map fun entry => .stating entry.1 entry.2

theorem map_formula_citationsOf (cited : List (Nat × Formula)) :
    (citationsOf cited).map (·.formula) = (cited.map (·.2)).map some := by
  rw [citationsOf, List.map_map, List.map_map]
  rfl

theorem exists_entry_of_citation {trial : Trial} {position : Nat} {line : Line}
    {cited : List (Nat × Formula)} {citation : Citation}
    (hcitation : citation ∈ (trial.context position line (citationsOf cited)).citations) :
    ∃ entry ∈ cited, .stating entry.1 entry.2 = citation := by
  rw [Trial.citations_context] at hcitation
  exact List.mem_map.mp hcitation

theorem formula_context_next {lines : List Line} {formula : Formula} {rule : Rule}
    {cited : List (Nat × Formula)} {level : Nat} (policy : Policy) (ruleset : Ruleset)
    (checks : Rule → Check) (hover : Over IsStrictName formula) (citations : List Citation) :
    ((Trial.ofLines policy ruleset checks
      (lines ++ [.next lines formula rule cited level])).context lines.length
      (.next lines formula rule cited level) citations).formula = some formula := by
  rw [Trial.formula_context]
  exact Trial.formulaOf?_of_strict _ (parse_render hover)

/-- The next line states a formula by a rule that has no objection to it. -/
structure Follows (lines : List Line) (formula : Formula) (rule : Rule)
    (cited : List (Nat × Formula)) (level : Nat) : Prop where
  spelled : Over IsStrictName formula
  propositional : rule ∈ Ruleset.propositional
  arity : rule.signature.arityError? cited.length = none
  states : ∀ entry ∈ cited, StatesAt lines entry.1 entry.2
  scope : rule.signature.discharges = false → ∀ entry ∈ cited,
    isAccessible (Frame.ofLines (lines ++ [.next lines formula rule cited level])) entry.1
      lines.length = true
  passes : ∀ policy ruleset,
    (Check.standard rule).Passes
      ((Trial.ofLines policy ruleset Check.standard
        (lines ++ [.next lines formula rule cited level])).context lines.length
        (.next lines formula rule cited level) (citationsOf cited))

theorem IsNumbered.snoc {lines : List Line} {line : Line} (hnumbered : IsNumbered lines)
    (hlabel : line.label = labelAt lines.length) : IsNumbered (lines ++ [line]) := by
  intro position found hfound
  rcases getElem?_snoc hfound with hfound | ⟨rfl, rfl⟩
  · exact hnumbered position found hfound
  · exact hlabel

namespace Follows

variable {lines : List Line} {formula : Formula} {rule : Rule} {cited : List (Nat × Formula)}
  {level : Nat}

theorem citationOutcomes_eq (hfollows : Follows lines formula rule cited level)
    (hnumbered : IsNumbered lines) (policy : Policy) (ruleset : Ruleset) :
    (Trial.ofLines policy ruleset Check.standard
      (lines ++ [.next lines formula rule cited level])).citationOutcomes lines.length
      (.next lines formula rule cited level) rule = (citationsOf cited).map .ok := by
  rw [Trial.citationOutcomes, Line.citations_next, citationsOf, List.map_map, List.map_map]
  apply List.map_congr_left
  intro entry hentry
  exact Trial.cite_stating (hnumbered.snoc rfl) (hfollows.states entry hentry)
    fun hdischarges => hfollows.scope hdischarges entry hentry

theorem accepted_judge (hfollows : Follows lines formula rule cited level)
    (hnumbered : IsNumbered lines) (policy : Policy) (ruleset : Ruleset) :
    ((Trial.ofLines policy ruleset Check.standard
      (lines ++ [.next lines formula rule cited level])).judge lines.length
      (.next lines formula rule cited level)).accepted = true := by
  have hparse : parse false (Line.next lines formula rule cited level).formula = .ok formula :=
    parse_render hfollows.spelled
  have houtcomes := hfollows.citationOutcomes_eq hnumbered policy ruleset
  obtain ⟨finding, hfinding, hclean⟩ := hfollows.passes policy ruleset
  refine Trial.accepted_judge_iff.mpr ⟨?_, Trial.formulaIssues_of_strict _ hparse, ?_⟩
  · have hlabel : (Line.next lines formula rule cited level).label = labelAt lines.length := rfl
    rw [Trial.labelIssues, hlabel, Trial.labelled?_labelAt_self (hnumbered.snoc hlabel)]
    simp
  · have hname : Rule.parse? (Line.next lines formula rule cited level).rule = some rule :=
      Rule.parse?_name rule
    have harity : rule.signature.arityError?
        (Line.next lines formula rule cited level).citations.length = none := by
      rw [Line.citations_next, List.length_map, hfollows.arity]
    have hcitations : Trial.citationIssues ((citationsOf cited).map .ok) = [] := by
      simp [Trial.citationIssues]
    have hresolved : Trial.resolved ((citationsOf cited).map .ok) = citationsOf cited := by
      rw [Trial.resolved, List.filterMap_map]
      exact List.filterMap_some
    rw [← houtcomes] at hcitations
    rw [← hresolved, ← houtcomes] at hfinding
    rw [Trial.justify, hname]
    dsimp only
    rw [if_pos (Ruleset.allows_of_propositional hfollows.propositional _),
      Trial.apply_eq_of_finding hcitations harity hfinding, hclean, List.map_nil]

end Follows

/-- A proof from premises, all of whose lines are accepted. Lines without a derivation state one of
the premises or open a subproof. -/
structure IsScript (premises : List Formula) (lines : List Line) : Prop where
  numbered : IsNumbered lines
  accepted : ∀ policy ruleset position line, lines[position]? = some line →
    ((Trial.ofLines policy ruleset Check.standard lines).judge position line).accepted = true
  spelled : ∀ line ∈ lines, ∃ formula, Over IsStrictName formula ∧ line.formula = formula.render
  nested : ∀ line ∈ lines, line.depth = line.level
  given : ∀ line ∈ lines, Rule.parse? line.rule = some .premise →
    ∃ premise ∈ premises, line.formula = premise.render
  opening : ∀ position line, lines[position]? = some line →
    Rule.parse? line.rule = some .assumption → levelBefore 0 lines position < line.level

theorem isScript_nil (premises : List Formula) : IsScript premises [] := by
  constructor <;> simp [IsNumbered]

theorem IsScript.snoc {premises : List Formula} {lines : List Line} {formula : Formula}
    {rule : Rule} {cited : List (Nat × Formula)} {level : Nat} (hscript : IsScript premises lines)
    (hfollows : Follows lines formula rule cited level)
    (hgiven : rule = .premise → formula ∈ premises)
    (hopening : rule = .assumption → endLevel lines < level) :
    IsScript premises (lines ++ [.next lines formula rule cited level]) := by
  have hname : Rule.parse? (Line.next lines formula rule cited level).rule = some rule :=
    Rule.parse?_name rule
  constructor
  case numbered => exact hscript.numbered.snoc rfl
  case accepted =>
    intro policy ruleset position line hline
    rcases getElem?_snoc hline with hline | ⟨rfl, rfl⟩
    · have hgoes := Trial.goesOn_ofLines policy ruleset Check.standard lines
        [.next lines formula rule cited level]
      have hposition := (List.getElem?_eq_some_iff.mp hline).1
      rw [(hgoes.judge_goesOn Check.foresees_standard hposition line).accepted_eq]
      exact hscript.accepted policy ruleset position line hline
    · exact hfollows.accepted_judge hscript.numbered policy ruleset
  case spelled =>
    intro line hline
    rcases List.mem_append.mp hline with hline | hline
    · exact hscript.spelled line hline
    · obtain rfl := List.mem_singleton.mp hline
      exact ⟨formula, hfollows.spelled, rfl⟩
  case nested =>
    intro line hline
    rcases List.mem_append.mp hline with hline | hline
    · exact hscript.nested line hline
    · obtain rfl := List.mem_singleton.mp hline
      rfl
  case given =>
    intro line hline hpremise
    rcases List.mem_append.mp hline with hline | hline
    · exact hscript.given line hline hpremise
    · obtain rfl := List.mem_singleton.mp hline
      rw [hname, Option.some.injEq] at hpremise
      exact ⟨formula, hgiven hpremise, rfl⟩
  case opening =>
    intro position line hline hassumption
    rcases getElem?_snoc hline with hline | ⟨rfl, rfl⟩
    · have hposition := (List.getElem?_eq_some_iff.mp hline).1
      rw [levelBefore_append (Nat.le_of_lt hposition)]
      exact hscript.opening position line hline hassumption
    · rw [hname, Option.some.injEq] at hassumption
      rw [levelBefore_append (Nat.le_refl _)]
      exact hopening hassumption

end Deduction
