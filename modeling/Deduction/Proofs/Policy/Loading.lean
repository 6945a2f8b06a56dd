import Deduction.Policy.Loading
import Deduction.Proofs.Policy.Decoding
import Deduction.Yaml.Reader

namespace Deduction.Policy

/-- The path of the file that holds the policy of a process. -/
def pathOf (configured : Option String) : Path :=
  Path.ofText (configured.getD standardPath)

/-- The text of a file holds a fault: the reader refuses it or meets a misfit, or the value that is
read holds the fault. -/
inductive TextHolds (yaml : Yaml.Reader) (path : Path) (text : String) : PolicyFault → Prop
  | malformed {message : String} (hread : yaml text = .error (.refused message)) :
      TextHolds yaml path text (.invalid (.fileMalformed path.text))
  | misfit {misfit : Misfit} (hread : yaml text = .error (.misfit misfit)) :
      TextHolds yaml path text (.misfit misfit)
  | value {value : Value} {fault : PolicyFault} (hread : yaml text = .ok value)
      (hholds : Holds value fault) : TextHolds yaml path text fault

section Files

variable {files : Files} {path : Path} {text : String}

theorem has_of_readText (hread : files.readText path = .ok text) : files.has path = .ok true := by
  unfold Files.readText at hread
  split at hread
  · rename_i hfile
    simp [Files.has, hfile]
  all_goals cases hread

theorem load_cases (yaml : Yaml.Reader) (hread : files.readText path = .ok text) :
    (∃ fault, load yaml files path = .error (.policy fault) ∧ TextHolds yaml path text fault) ∨
      ∃ value policy, load yaml files path = .ok policy ∧ yaml text = .ok value ∧
        Suits value policy := by
  simp only [load, has_of_readText hread, hread]
  cases hyaml : yaml text with
  | error failure =>
      cases failure with
      | refused message => exact Or.inl ⟨_, rfl, .malformed hyaml⟩
      | misfit misfit => exact Or.inl ⟨_, rfl, .misfit hyaml⟩
  | ok value =>
      cases hvalue : ofValue value with
      | error fault =>
          exact Or.inl ⟨fault, by simp only [hvalue], .value hyaml (holds_of_ofValue hvalue)⟩
      | ok policy =>
          exact Or.inr ⟨value, policy, by simp only [hvalue], rfl, suits_of_ofValue hvalue⟩

end Files

/-- A value is an error of policies, describes a policy or holds a misfit, and each of them for a
reason that the value shows. Whatever the reader of YAML, a process whose file can be read goes on,
with the policy of the file or with the default one and a warning, unless the reader meets a misfit
in the text or the value that it gives holds one. -/
theorem ofProcess_isOk_or_misfit (yaml : Yaml.Reader) {files : Files} {configured : Option String}
    {text : String} (hread : files.readText (pathOf configured) = .ok text) :
    (∀ value,
      (∃ error, ofValue value = .error (.invalid error) ∧ Holds value (.invalid error)) ∨
      (∃ policy, ofValue value = .ok policy ∧ Suits value policy) ∨
      ∃ misfit, ofValue value = .error (.misfit misfit) ∧ Holds value (.misfit misfit)) ∧
    ((∃ error,
        ofProcess yaml files configured = .ok ({}, [.ignored (pathOf configured).text error]) ∧
        TextHolds yaml (pathOf configured) text (.invalid error)) ∨
      (∃ value policy, ofProcess yaml files configured = .ok (policy, []) ∧
        yaml text = .ok value ∧ Suits value policy) ∨
      ∃ misfit, ofProcess yaml files configured = .error (.policy (.misfit misfit)) ∧
        TextHolds yaml (pathOf configured) text (.misfit misfit)) := by
  constructor
  · intro value
    cases hvalue : ofValue value with
    | ok policy => exact Or.inr (Or.inl ⟨policy, rfl, suits_of_ofValue hvalue⟩)
    | error fault =>
        have hholds := holds_of_ofValue hvalue
        cases fault with
        | invalid error => exact Or.inl ⟨error, rfl, hholds⟩
        | misfit misfit => exact Or.inr (Or.inr ⟨misfit, rfl, hholds⟩)
  · unfold pathOf at hread ⊢
    have hhas := has_of_readText hread
    rcases load_cases yaml hread with ⟨fault, hload, hholds⟩ | ⟨value, policy, hload, hyaml, hsuits⟩
    · cases fault with
      | invalid error =>
          refine Or.inl ⟨error, ?_, hholds⟩
          simp only [ofProcess, hhas, hload]
      | misfit misfit =>
          refine Or.inr (Or.inr ⟨misfit, ?_, hholds⟩)
          simp only [ofProcess, hhas, hload]
    · refine Or.inr (Or.inl ⟨value, policy, ?_, hyaml, hsuits⟩)
      simp only [ofProcess, hhas, hload]

/-- A file that asks for two workers describes a policy with two workers. -/
theorem two_workers_suit :
    ∃ value, Yaml.read "worker: \x7bmax_workers: 2\x7d\n" = .ok value ∧
      Suits value { maxWorkers := 2 } := by
  have hprocess :
      (ofProcess Yaml.read (fun _ => .file "worker: \x7bmax_workers: 2\x7d\n") none).toOption =
        some ({ maxWorkers := 2 }, []) := by
    decide +kernel
  have hread :
      Files.readText (fun _ => .file "worker: \x7bmax_workers: 2\x7d\n") (pathOf none) =
        .ok "worker: \x7bmax_workers: 2\x7d\n" :=
    congrArg Except.ok (by decide +kernel)
  obtain ⟨error, hresult, -⟩ | ⟨value, policy, hresult, hvalue, hsuits⟩ | ⟨misfit, hresult, -⟩ :=
    (ofProcess_isOk_or_misfit Yaml.read hread).2
  · rw [hresult] at hprocess
    cases hprocess
  · rw [hresult] at hprocess
    cases hprocess
    exact ⟨value, hvalue, hsuits⟩
  · rw [hresult] at hprocess
    cases hprocess

/-- A number for the name of a ruleset leads past the errors of policies, and a time that is no
number passes for one to wait. -/
theorem numbered_ruleset_is_misfit :
    ofValue (.object [("default_ruleset", .int 7)]) =
        .error (.misfit (.lacksMember .int "strip")) ∧
      ofValue (.object [("worker", .object [("timeout_s", .text "nan")])]) =
        .ok { timeout := .nan } ∧
      ({ timeout := .nan } : Policy).timeout.isPositive = false := by
  exact ⟨rfl, rfl, rfl⟩

end Deduction.Policy
