import Deduction.Proofs.Check.Totality
import Deduction.Proofs.Validation.Acceptance
import Mathlib.Data.List.TakeWhile

namespace Deduction

theorem Text.trim_eq_nil_iff {text : List Char} :
    Text.trim text = [] ↔ ∀ c ∈ text, Text.isBlank c = true := by
  rw [Text.trim, List.reverse_eq_nil_iff, List.dropWhile_eq_nil_iff]
  constructor
  · intro hrest c hc
    have hparts : c ∈ text.takeWhile Text.isBlank ++ text.dropWhile Text.isBlank := by
      rwa [List.takeWhile_append_dropWhile]
    rcases List.mem_append.mp hparts with hc | hc
    · exact List.mem_takeWhile_imp hc
    · exact hrest c (List.mem_reverse.mpr hc)
  · intro hblank c hc
    exact hblank c ((List.dropWhile_sublist _).mem (List.mem_reverse.mp hc))

/-- A text does not open the way the report of an internal error does. -/
def IsOrdinary (text : String) : Prop :=
  3 ≤ text.toList.length ∧ text.toList.take 3 ≠ ['I', 'n', 't']

theorem isOrdinary_ofList {text : List Char} (hlength : 3 ≤ text.length)
    (htake : text.take 3 ≠ ['I', 'n', 't']) : IsOrdinary (String.ofList text) := by
  rw [IsOrdinary, String.toList_ofList]
  exact ⟨hlength, htake⟩

theorem IsOrdinary.append {text : String} (htext : IsOrdinary text) (rest : String) :
    IsOrdinary (text ++ rest) := by
  rw [IsOrdinary, String.toList_append, List.length_append, List.take_append_of_le_length htext.1]
  exact ⟨Nat.le_add_right_of_le htext.1, htext.2⟩

theorem IsOrdinary.ne_append {text : String} (htext : IsOrdinary text) {opening : List Char}
    (hlength : 3 ≤ opening.length) (htake : opening.take 3 = ['I', 'n', 't']) (rest : String) :
    text ≠ String.ofList opening ++ rest := by
  rintro rfl
  apply htext.2
  rw [String.toList_append, String.toList_ofList, List.take_append_of_le_length hlength, htake]

theorem Rule.isOrdinary_name (rule : Rule) : IsOrdinary rule.name := by
  cases rule <;> exact isOrdinary_ofList (by decide) (by decide)

theorem ArityError.isOrdinary_message (rule : Rule) (error : ArityError) :
    IsOrdinary (error.message rule.name) := by
  have hname := rule.isOrdinary_name
  cases error with
  | takesNone => exact hname.append _
  | exactly count => exact (((hname.append _).append _).append _).append _
  | atLeast count => exact (((hname.append _).append _).append _).append _
  | atMost count => exact ((hname.append _).append _).append _

theorem Objection.isOrdinary_message (found : Objection) : IsOrdinary found.message := by
  cases found with
  | unparsed labels => exact ((isOrdinary_ofList (by decide) (by decide)).append _).append _
  | frameNotClosedHere label =>
      exact ((isOrdinary_ofList (by decide) (by decide)).append _).append _
  | citedClosed label => exact ((isOrdinary_ofList (by decide) (by decide)).append _).append _
  | notConversion => exact (isOrdinary_ofList (by decide) (by decide)).append _
  | _ => exact isOrdinary_ofList (by decide) (by decide)

theorem Issue.exists_checkFailed_of_message {issue : Issue} {rest : String}
    (hmessage : issue.message = "Internal error while checking" ++ rest) :
    ∃ rule, issue = .checkFailed rule := by
  suffices hordinary : IsOrdinary issue.message ∨ ∃ rule, issue = .checkFailed rule by
    rcases hordinary with hordinary | hfailed
    · exact absurd hmessage (hordinary.ne_append (by decide) (by decide) rest)
    · exact hfailed
  clear hmessage
  cases issue with
  | checkFailed rule => exact Or.inr ⟨rule, rfl⟩
  | arity rule error => exact Or.inl (error.isOrdinary_message rule)
  | objection found => exact Or.inl found.isOrdinary_message
  | labelRequired => exact Or.inl (isOrdinary_ofList (by decide) (by decide))
  | formulaRequired => exact Or.inl (isOrdinary_ofList (by decide) (by decide))
  | duplicateLabel label => exact Or.inl ((isOrdinary_ofList (by decide) (by decide)).append _)
  | malformed error => exact Or.inl ((isOrdinary_ofList (by decide) (by decide)).append _)
  | ruleNotAvailable rule ruleset =>
      exact Or.inl (((((isOrdinary_ofList (by decide) (by decide)).append _).append _).append
        _).append _)
  | _ => exact Or.inl (((isOrdinary_ofList (by decide) (by decide)).append _).append _)

namespace Trial

variable {trial : Trial} {position : Nat} {line : Line}

theorem isComplete_context (policy : Policy) (ruleset : Ruleset) (checks : Rule → Check)
    (lines : List Line) (position : Nat) (line : Line) (citations : List Citation) :
    ((ofLines policy ruleset checks lines).context position line citations).IsComplete := by
  have hlength : (lines.map fun line => Formula.parse? policy.lenient line.formula).length =
      lines.length := List.length_map _
  constructor
  · intro frame hframe
    have hrun := (Frame.mem_ofLines_iff.mp hframe).run.run
    exact hlength ▸ Nat.lt_of_le_of_lt hrun.ordered hrun.bounded
  · intro frame hframe
    exact hlength ▸ (Frame.mem_ofLines_iff.mp hframe).run.run.bounded

theorem length_resolved {outcomes : List (Except Issue Citation)}
    (hissues : citationIssues outcomes = []) : (resolved outcomes).length = outcomes.length := by
  induction outcomes with
  | nil => rfl
  | cons outcome rest ih =>
      cases outcome with
      | ok cited => exact congrArg Nat.succ (ih hissues)
      | error issue => cases hissues

theorem cite_eq_error {discharges : Bool} {label : String} {issue : Issue}
    (hcite : trial.cite position line discharges label = .error issue) :
    issue = .citesItself label ∨ issue = .citesClosed label ∨ issue = .citesForward label ∨
      issue = .citesNothing label := by
  unfold cite at hcite
  split at hcite
  · exact Or.inl (Except.error.inj hcite).symm
  · split at hcite
    · split at hcite
      · exact Or.inr (Or.inl (Except.error.inj hcite).symm)
      · contradiction
    · split at hcite
      · exact Or.inr (Or.inr (Or.inl (Except.error.inj hcite).symm))
      · exact Or.inr (Or.inr (Or.inr (Except.error.inj hcite).symm))

theorem checkFailed_notMem_citationIssues {rule failed : Rule} :
    Issue.checkFailed failed ∉ citationIssues (trial.citationOutcomes position line rule) := by
  intro hmem
  obtain ⟨outcome, houtcome, hissue⟩ := List.mem_filterMap.mp hmem
  obtain ⟨label, _, hcite⟩ := List.mem_map.mp houtcome
  cases outcome with
  | ok cited => cases hissue
  | error issue =>
      obtain rfl := Option.some.inj hissue
      rcases cite_eq_error hcite with heq | heq | heq | heq <;> cases heq

/-- A check that is run answers: the citations that were resolved are as many as were made. -/
theorem isSome_standard_context (policy : Policy) (ruleset : Ruleset) (lines : List Line)
    {position : Nat} {line : Line} {rule : Rule} {outcomes : List (Except Issue Citation)}
    (hlength : outcomes.length = line.citations.length) (hcitations : citationIssues outcomes = [])
    (harity : rule.signature.arityError? line.citations.length = none) :
    (Check.standard rule ((ofLines policy ruleset Check.standard lines).context position line
      (resolved outcomes))).isSome = true := by
  apply Check.answers_standard rule
  · exact isComplete_context policy ruleset Check.standard lines position line (resolved outcomes)
  · have hallows := Signature.arityError?_eq_none_iff.mp harity
    rwa [← hlength, ← length_resolved hcitations] at hallows

theorem checkFailed_notMem_apply (policy : Policy) (ruleset : Ruleset) (lines : List Line)
    (position : Nat) (line : Line) (rule failed : Rule) :
    Issue.checkFailed failed ∉
      ((ofLines policy ruleset Check.standard lines).apply position line rule).issues := by
  intro hmem
  unfold apply at hmem
  dsimp only at hmem
  split at hmem
  · rcases List.mem_append.mp hmem with hmem | hmem
    · exact checkFailed_notMem_citationIssues hmem
    · obtain ⟨error, _, heq⟩ := Option.map_eq_some_iff.mp (Option.mem_toList.mp hmem)
      cases heq
  · rename_i hnone
    simp only [Bool.not_eq_true', Bool.not_eq_false, List.isEmpty_iff, List.append_eq_nil_iff,
      Option.toList_eq_nil_iff, Option.map_eq_none_iff] at hnone
    obtain ⟨hcitations, harity⟩ := hnone
    split at hmem
    · obtain ⟨objection, _, heq⟩ := List.mem_map.mp hmem
      cases heq
    · rename_i hfailed
      have hanswers := @isSome_standard_context policy ruleset lines position line rule _
        (List.length_map _) hcitations harity
      change Check.standard rule _ = none at hfailed
      rw [hfailed] at hanswers
      contradiction

theorem checkFailed_notMem_justify (policy : Policy) (ruleset : Ruleset) (lines : List Line)
    (position : Nat) (line : Line) (failed : Rule) :
    Issue.checkFailed failed ∉
      ((ofLines policy ruleset Check.standard lines).justify position line).issues := by
  unfold justify
  split
  · dsimp only
    split <;> simp
  · split
    · exact checkFailed_notMem_apply policy ruleset lines position line _ failed
    · simp

theorem checkFailed_notMem_judge (policy : Policy) (ruleset : Ruleset) (lines : List Line)
    (position : Nat) (line : Line) (failed : Rule) :
    Issue.checkFailed failed ∉
      ((ofLines policy ruleset Check.standard lines).judge position line).issues := by
  intro hmem
  rcases List.mem_append.mp hmem with hmem | hmem
  · rcases List.mem_append.mp hmem with hmem | hmem
    · unfold labelIssues at hmem
      split at hmem
      · simp at hmem
      · split at hmem <;> simp at hmem
    · unfold formulaIssues at hmem
      split at hmem
      · simp at hmem
      · split at hmem
        · simp at hmem
        · split at hmem <;> simp at hmem
  · exact checkFailed_notMem_justify policy ruleset lines position line failed hmem

theorem label_judgements : trial.judgements.map (·.line.label) = trial.lines.map Line.label := by
  apply List.ext_getElem?
  intro position
  cases hline : trial.lines[position]? <;> simp [judgements, hline]

end Trial

theorem Validation.ok_run_iff {policy : Policy} {checks : Rule → Check} {ruleset : Ruleset}
    {premises : List String} {conclusion : String} {lines : List Line} :
    (run policy checks ruleset premises conclusion lines).ok = true ↔
      (∀ judgement ∈ (run policy checks ruleset premises conclusion lines).judgements,
        judgement.accepted = true) ∧ ∃ c ∈ conclusion.toList, Text.isBlank c = false := by
  have hconcluded : (run policy checks ruleset premises conclusion lines).concluded = true ↔
      ∃ c ∈ conclusion.toList, Text.isBlank c = false := by
    rw [run, Bool.not_eq_true', List.isEmpty_eq_false_iff, Ne, Text.trim_eq_nil_iff]
    simp
  rw [ok, Bool.and_eq_true, List.all_eq_true, hconcluded]

namespace Document

/-- Whatever the lines hold, each of them gets its verdict, and no verdict comes from a check that
broke down. -/
theorem exists_verdict_for_each_line (document : Document) (policy : Policy) (ruleset : Ruleset)
    (hruleset : Ruleset.resolve document.ruleset policy.defaultRuleset.name = .ok ruleset) :
    ∃ validation, document.validate policy = .ok validation ∧
      validation.verdict.lines.map LineVerdict.label = document.lines.map Line.label ∧
      (∀ line ∈ validation.verdict.lines, line.ok = true ↔ line.messages = []) ∧
      (validation.verdict.ok = true ↔
        (∀ line ∈ validation.verdict.lines, line.ok = true) ∧
          ∃ c ∈ document.conclusion.toList, Text.isBlank c = false) ∧
      (∀ judgement ∈ validation.judgements, ∀ rule, Issue.checkFailed rule ∉ judgement.issues) ∧
      (∀ line ∈ validation.verdict.lines, ∀ message ∈ line.messages, ∀ rest,
        message ≠ "Internal error while checking" ++ rest) := by
  refine ⟨_, validate_eq_run hruleset, ?_, ?_, ?_, ?_, ?_⟩
  · rw [Validation.verdict, List.map_map]
    exact Trial.label_judgements
  · intro line hline
    obtain ⟨judgement, _, rfl⟩ := List.mem_map.mp hline
    simp [Judgement.verdict, Judgement.accepted]
  · rw [Validation.verdict, Validation.ok_run_iff, List.forall_mem_map]
    rfl
  · intro judgement hjudgement rule
    obtain ⟨position, line, _, rfl⟩ := Trial.mem_judgements.mp hjudgement
    exact Trial.checkFailed_notMem_judge policy ruleset document.lines position line rule
  · intro line hline message hmessage rest heq
    obtain ⟨judgement, hjudgement, rfl⟩ := List.mem_map.mp hline
    obtain ⟨issue, hissue, rfl⟩ := List.mem_map.mp hmessage
    obtain ⟨rule, rfl⟩ := Issue.exists_checkFailed_of_message heq
    obtain ⟨position, line, _, rfl⟩ := Trial.mem_judgements.mp hjudgement
    exact Trial.checkFailed_notMem_judge policy ruleset document.lines position line rule hissue

/-- A proof in which most goes wrong: a formula that cannot be read, a label given twice, depths
that jump, a subproof cited before it ends and rules with citations of the wrong number. -/
def muddle : Document where
  premises := []
  conclusion := " Q "
  lines :=
    [ { label := "1", formula := "A ->", rule := "Assumption", depth := 3 }
    , { label := "1", formula := "", rule := "¬I", citations := ["1", "9"], depth := -2 }
    , { label := "", formula := "!A", rule := "¬I", citations := ["1"], depth := 2 }
    , { label := "4", formula := "A v B", rule := "∨E", citations := ["1", "1", "1"], depth := 2 } ]
  ruleset := some "fol_basic"

theorem muddle_is_answered :
    ∃ validation, muddle.validate {} = .ok validation ∧
      validation.verdict.lines.map LineVerdict.label = ["1", "1", "", "4"] ∧
      ∀ judgement ∈ validation.judgements, ∀ rule, Issue.checkFailed rule ∉ judgement.issues := by
  obtain ⟨validation, hvalidate, hlabels, _, _, hissues, _⟩ :=
    exists_verdict_for_each_line muddle {} .folBasic (by rfl)
  exact ⟨validation, hvalidate, hlabels, hissues⟩

end Document

end Deduction
