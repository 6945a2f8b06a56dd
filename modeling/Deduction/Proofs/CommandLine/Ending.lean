import Deduction.CommandLine.Run
import Deduction.Files.Directory
import Deduction.Proofs.Document.Decoding
import Deduction.Proofs.Except
import Deduction.Proofs.Json.Reading
import Deduction.Proofs.Validation.Acceptance

/-!
How a validation from a file ends.

A run on a file with JSON ends with a status: zero or one by the verdict, two with a message where
there is no verdict. The exception is a document that could be read up to a line that is no object
or has an infinite depth: there the run reports to its caller and ends with no status.
-/

namespace Deduction

theorem Ruleset.resolve_eq_error_iff {name : Option String} {default : Ruleset}
    {error : UnknownRuleset} :
    resolve name default.name = .error error ↔
      ∃ text, name = some text ∧ text ≠ "" ∧ ofName? text = none ∧ ⟨some text⟩ = error := by
  have hdefault : ofName? default.name = some default := by cases default <;> decide
  cases name with
  | none => simp [resolve, hdefault]
  | some text =>
      by_cases hempty : text = ""
      · simp [resolve, hempty, hdefault]
      · cases hfound : ofName? text <;> simp [resolve, hempty, hfound]

namespace CommandLine

/-- A document with the ruleset that is asked for. -/
def withRuleset (ruleset : Option String) : Value → Value
  | .object members =>
      match ruleset with
      | some name => .object (Value.setMember "ruleset" (.text name) members)
      | none => .object members
  | value => value

/-- The output of a run that ends without a verdict. -/
def refusal (message : String) : Output :=
  { status := 2, err := "Error: " ++ message ++ "\n" }

/-- How a run on a file with JSON ends, by its content and by the ruleset that is asked for. -/
inductive Ends (policy : Policy) (file : String) (ruleset : Option String) (asJson : Bool)
    (content : String) : Except Misfit Output → Prop
  | valid {value : Value} {document : Document} {validation : Validation}
      (hvalue : Json.value? content = some value)
      (hdocument : Document.ofValue (withRuleset ruleset value) = .ok document)
      (hvalidation : document.validate policy = .ok validation)
      (hok : validation.verdict.ok = true) :
      Ends policy file ruleset asJson content
        (.ok { status := 0, out := (showVerdict file asJson validation.verdict).out })
  | invalid {value : Value} {document : Document} {validation : Validation}
      (hvalue : Json.value? content = some value)
      (hdocument : Document.ofValue (withRuleset ruleset value) = .ok document)
      (hvalidation : document.validate policy = .ok validation)
      (hok : validation.verdict.ok = false) :
      Ends policy file ruleset asJson content
        (.ok { status := 1, out := (showVerdict file asJson validation.verdict).out })
  | unread {error : Json.ReadError} (herror : Json.read content = .error error) :
      Ends policy file ruleset asJson content (.ok (refusal error.message))
  | notMapping {value : Value} (hvalue : Json.value? content = some value)
      (hkind : value.kind ≠ .object) :
      Ends policy file ruleset asJson content
        (.ok (refusal ((Path.ofText file).text ++ ": proof document must be a mapping")))
  | misfit {value : Value} {misfit : Misfit} (hvalue : Json.value? content = some value)
      (hfails : Document.Fails (withRuleset ruleset value) misfit)
      (hplain : misfit.isPlain = true) :
      Ends policy file ruleset asJson content (.ok (refusal misfit.message))
  | unknownRuleset {value : Value} {document : Document} {name : String}
      (hvalue : Json.value? content = some value)
      (hdocument : Document.ofValue (withRuleset ruleset value) = .ok document)
      (hname : document.ruleset = some name) (hgiven : name ≠ "")
      (hunknown : Ruleset.ofName? name = none) :
      Ends policy file ruleset asJson content
        (.ok (refusal (UnknownRuleset.mk (some name)).message))
  | stray {value : Value} {misfit : Misfit} (hvalue : Json.value? content = some value)
      (hstrays : Document.Strays (withRuleset ruleset value) misfit) :
      Ends policy file ruleset asJson content (.error misfit)

section Documents

variable {value : Value} {ruleset : Option String}

theorem kind_withRuleset : (withRuleset ruleset value).kind = value.kind := by
  cases value with
  | object members => cases ruleset <;> rfl
  | scalar scalar => rfl
  | list items => rfl

theorem isWritable_withRuleset (hwritable : value.isWritable = true) :
    (withRuleset ruleset value).isWritable = true := by
  cases value with
  | object members =>
      cases ruleset with
      | none => exact hwritable
      | some name => exact Value.isWritable_setMember hwritable rfl rfl
  | scalar scalar => exact hwritable
  | list items => exact hwritable

end Documents

section Files

variable {surroundings : Surroundings} {file : String} {ruleset config : Option String}
  {policy : Policy} {content : String} (hpolicy : surroundings.policy config = .ok policy)
  (hsuffix : (Path.ofText file).hasSuffix ".json" = true)
  (hfile : surroundings.files.readText (Path.ofText file) = .ok content)

include hsuffix hfile in
theorem value_of_suffix :
    surroundings.value (Path.ofText file) = relabel .json (Json.read content) := by
  rw [Surroundings.value, hfile]
  simp [relabel, hsuffix, bind, Except.bind]

include hpolicy hsuffix hfile

theorem verdict_of_unread (ruleset : Option String) {error : Json.ReadError}
    (herror : Json.read content = .error error) :
    surroundings.verdict file ruleset config = .error (.json error) := by
  rw [Surroundings.verdict, hpolicy, Surroundings.members, value_of_suffix hsuffix hfile, herror]
  rfl

theorem verdict_of_notMapping (ruleset : Option String) {value : Value}
    (hvalue : Json.value? content = some value) (hkind : value.kind ≠ .object) :
    surroundings.verdict file ruleset config = .error (.notMapping (Path.ofText file).text) := by
  rw [Surroundings.verdict, hpolicy, Surroundings.members, value_of_suffix hsuffix hfile,
    Json.read_of_value? hvalue]
  cases value with
  | object members => exact absurd rfl hkind
  | scalar scalar => rfl
  | list items => rfl

theorem verdict_of_object {value : Value} (hvalue : Json.value? content = some value)
    (hkind : value.kind = .object) :
    surroundings.verdict file ruleset config = (do
      let document ← relabel .misfit (Document.ofValue (withRuleset ruleset value))
      let validation ← relabel .ruleset (document.validate policy)
      return validation.verdict) := by
  obtain ⟨members, rfl⟩ := Value.kind_eq_object_iff.mp hkind
  rw [Surroundings.verdict, hpolicy, Surroundings.members, value_of_suffix hsuffix hfile,
    Json.read_of_value? hvalue]
  cases ruleset <;> rfl

theorem verdict_of_misfit {value : Value} {misfit : Misfit} (hvalue : Json.value? content = some value)
    (hfails : Document.Fails (withRuleset ruleset value) misfit) :
    surroundings.verdict file ruleset config = .error (.misfit misfit) := by
  have hkind := hfails.kind_eq
  have hwritable : (withRuleset ruleset value).isWritable = true :=
    isWritable_withRuleset (Json.isWritable_of_read (Json.read_of_value? hvalue))
  rw [verdict_of_object hpolicy hsuffix hfile hvalue (kind_withRuleset.symm.trans hkind),
    (Document.ofValue_eq_error_iff hkind hwritable).mpr hfails]
  rfl

section Described

variable {value : Value} {document : Document} (hvalue : Json.value? content = some value)
  (hdocument : Document.ofValue (withRuleset ruleset value) = .ok document)

include hvalue hdocument

theorem verdict_of_document :
    surroundings.verdict file ruleset config =
      relabel .ruleset (document.validate policy) >>= fun validation =>
        pure validation.verdict := by
  have hkind := kind_withRuleset.symm.trans (Document.kind_of_ofValue hdocument)
  rw [verdict_of_object hpolicy hsuffix hfile hvalue hkind, hdocument]
  -- Not by `rfl`, which would compare the two first steps and unfold the validation for that.
  simp only [relabel, bind, Except.bind]

theorem verdict_of_unknownRuleset {name : String} (hname : document.ruleset = some name)
    (hgiven : name ≠ "") (hunknown : Ruleset.ofName? name = none) :
    surroundings.verdict file ruleset config = .error (.ruleset ⟨some name⟩) := by
  have herror : Ruleset.resolve document.ruleset policy.defaultRuleset.name =
      .error ⟨some name⟩ :=
    Ruleset.resolve_eq_error_iff.mpr ⟨name, hname, hgiven, hunknown, rfl⟩
  rw [verdict_of_document hpolicy hsuffix hfile hvalue hdocument,
    Document.validate_of_unknown herror]
  rfl

theorem verdict_of_validation {validation : Validation}
    (hvalidation : document.validate policy = .ok validation) :
    surroundings.verdict file ruleset config = .ok validation.verdict := by
  rw [verdict_of_document hpolicy hsuffix hfile hvalue hdocument, hvalidation]
  rfl

end Described

end Files

section Runs

variable {surroundings : Surroundings} {file : String} {ruleset config : Option String}

theorem validate_of_verdict {verdict : Verdict} (asJson : Bool)
    (hverdict : surroundings.verdict file ruleset config = .ok verdict) :
    surroundings.validate file ruleset config asJson = .ok (showVerdict file asJson verdict) := by
  rw [Surroundings.validate, hverdict]

theorem validate_of_fault {fault : Fault} (asJson : Bool)
    (hverdict : surroundings.verdict file ruleset config = .error fault)
    (hother : ∀ misfit, fault ≠ .misfit misfit) :
    surroundings.validate file ruleset config asJson = .ok (refusal fault.message) := by
  rw [Surroundings.validate, hverdict]
  cases fault with
  | misfit misfit => exact absurd rfl (hother misfit)
  | _ => rfl

theorem validate_of_misfit {misfit : Misfit} (asJson : Bool)
    (hverdict : surroundings.verdict file ruleset config = .error (.misfit misfit)) :
    surroundings.validate file ruleset config asJson =
      if misfit.isPlain then .ok (refusal misfit.message) else .error misfit := by
  rw [Surroundings.validate, hverdict]
  rfl

end Runs

section Endings

variable {surroundings : Surroundings} {file : String} {ruleset config : Option String}
  {policy : Policy} {content : String} (hpolicy : surroundings.policy config = .ok policy)
  (hsuffix : (Path.ofText file).hasSuffix ".json" = true)
  (hfile : surroundings.files.readText (Path.ofText file) = .ok content) {asJson : Bool}

include hpolicy hsuffix hfile

theorem Ends.validate_eq {outcome : Except Misfit Output}
    (hends : Ends policy file ruleset asJson content outcome) :
    surroundings.validate file ruleset config asJson = outcome := by
  cases hends with
  | valid hvalue hdocument hvalidation hok =>
      have hverdict := verdict_of_validation hpolicy hsuffix hfile hvalue hdocument hvalidation
      rw [validate_of_verdict asJson hverdict, showVerdict, hok]
      rfl
  | invalid hvalue hdocument hvalidation hok =>
      have hverdict := verdict_of_validation hpolicy hsuffix hfile hvalue hdocument hvalidation
      rw [validate_of_verdict asJson hverdict, showVerdict, hok]
      rfl
  | unread herror =>
      have hverdict := verdict_of_unread hpolicy hsuffix hfile ruleset herror
      rw [validate_of_fault asJson hverdict nofun, Fault.message]
  | notMapping hvalue hkind =>
      have hverdict := verdict_of_notMapping hpolicy hsuffix hfile ruleset hvalue hkind
      rw [validate_of_fault asJson hverdict nofun, Fault.message]
  | misfit hvalue hfails hplain =>
      have hverdict := verdict_of_misfit hpolicy hsuffix hfile hvalue hfails
      rw [validate_of_misfit asJson hverdict, if_pos hplain]
  | unknownRuleset hvalue hdocument hname hgiven hunknown =>
      have hverdict :=
        verdict_of_unknownRuleset hpolicy hsuffix hfile hvalue hdocument hname hgiven hunknown
      rw [validate_of_fault asJson hverdict nofun, Fault.message]
  | stray hvalue hstrays =>
      obtain ⟨hfails, hplain⟩ := Document.fails_and_not_isPlain_iff.mpr hstrays
      have hverdict := verdict_of_misfit hpolicy hsuffix hfile hvalue hfails
      rw [validate_of_misfit asJson hverdict, if_neg (by simp [hplain])]

end Endings

section Contents

variable {policy : Policy} {file : String} {ruleset : Option String} {asJson : Bool}
  {content : String} {value : Value} (hvalue : Json.value? content = some value)

include hvalue

theorem exists_ends_of_fails {misfit : Misfit}
    (hfails : Document.Fails (withRuleset ruleset value) misfit) :
    ∃ outcome, Ends policy file ruleset asJson content outcome := by
  cases hplain : misfit.isPlain with
  | true => exact ⟨_, .misfit hvalue hfails hplain⟩
  | false => exact ⟨_, .stray hvalue (Document.fails_and_not_isPlain_iff.mp ⟨hfails, hplain⟩)⟩

theorem exists_ends_of_document {document : Document}
    (hdocument : Document.ofValue (withRuleset ruleset value) = .ok document) :
    ∃ outcome, Ends policy file ruleset asJson content outcome := by
  cases hruleset : Ruleset.resolve document.ruleset policy.defaultRuleset.name with
  | error error =>
      obtain ⟨name, hname, hgiven, hunknown, -⟩ := Ruleset.resolve_eq_error_iff.mp hruleset
      exact ⟨_, .unknownRuleset hvalue hdocument hname hgiven hunknown⟩
  | ok chosen =>
      obtain ⟨validation, hvalidation⟩ : ∃ validation, document.validate policy = .ok validation :=
        ⟨_, Document.validate_eq_run hruleset⟩
      cases hok : validation.verdict.ok with
      | true => exact ⟨_, .valid hvalue hdocument hvalidation hok⟩
      | false => exact ⟨_, .invalid hvalue hdocument hvalidation hok⟩

end Contents

theorem exists_ends (policy : Policy) (file : String) (ruleset : Option String) (asJson : Bool)
    {content : String} (hpaired : Json.hasLoneSurrogate content = false) :
    ∃ outcome, Ends policy file ruleset asJson content outcome := by
  cases hread : Json.read content with
  | error error => exact ⟨_, .unread hread⟩
  | ok value =>
      have hvalue := Json.value?_of_read hread hpaired
      by_cases hkind : value.kind = .object
      · have hwritable : (withRuleset ruleset value).isWritable = true :=
          isWritable_withRuleset (Json.isWritable_of_read hread)
        cases hdocument : Document.ofValue (withRuleset ruleset value) with
        | error misfit =>
            have hkind' : (withRuleset ruleset value).kind = .object := kind_withRuleset.trans hkind
            exact exists_ends_of_fails hvalue
              ((Document.ofValue_eq_error_iff hkind' hwritable).mp hdocument)
        | ok document => exact exists_ends_of_document hvalue hdocument
      · exact ⟨_, .notMapping hvalue hkind⟩

/-- A run on a file with JSON ends as its content says: with status zero or one where the document
is validated, with status two and a message where it is not, and with no status exactly where the
first fault is a line that is no object or has an infinite depth. Left out are contents with half
of a surrogate pair by itself, which is no character of a text. -/
theorem run_eq_iff_ends {surroundings : Surroundings} {texts : List String} {file : String}
    {ruleset config : Option String} {asJson : Bool} {policy : Policy} {content : String}
    (hcommand : Command.read texts = .ok (.validate file ruleset config asJson))
    (hpolicy : surroundings.policy config = .ok policy)
    (hsuffix : (Path.ofText file).hasSuffix ".json" = true)
    (hfile : surroundings.files.readText (Path.ofText file) = .ok content)
    (hpaired : Json.hasLoneSurrogate content = false) (outcome : Except Misfit Output) :
    run surroundings texts = outcome ↔ Ends policy file ruleset asJson content outcome := by
  have hrun : run surroundings texts = surroundings.validate file ruleset config asJson := by
    rw [run, hcommand]
    rfl
  rw [hrun]
  constructor
  · rintro rfl
    obtain ⟨outcome, hends⟩ := exists_ends policy file ruleset asJson hpaired
    rwa [hends.validate_eq hpolicy hsuffix hfile]
  · exact fun hends => hends.validate_eq hpolicy hsuffix hfile

/-- The surroundings of a run with one file and the default policy, where no YAML is read. -/
def Surroundings.ofContent (content : String) : Surroundings :=
  { files := (Directory.ofList [("p.json", content)]).entry
    policyFile := none
    yaml := fun _ => .error (.refused "") }

/-- A document with a text for the depth of a line. -/
def textForDepth : String := "\x7b\"lines\": [\x7b\"depth\": \"x\"\x7d]\x7d"

def textForLine : String := "\x7b\"lines\": [\"x\"]\x7d"

theorem textForDepth_ends :
    Ends {} "p.json" none false textForDepth
      (.ok { status := 2, err := "Error: invalid literal for int() with base 10: 'x'\n" }) := by
  have hcommand : Command.read ["validate", "p.json"] =
      .ok (.validate "p.json" none none false) :=
    eq_ok_of_toOption (by decide +kernel)
  have hpolicy : (Surroundings.ofContent textForDepth).policy none = .ok {} :=
    eq_ok_of_toOption (by decide +kernel)
  have hsuffix : (Path.ofText "p.json").hasSuffix ".json" = true := by decide +kernel
  have hfile : (Surroundings.ofContent textForDepth).files.readText (Path.ofText "p.json") =
      .ok textForDepth :=
    eq_ok_of_toOption (by decide +kernel)
  have hpaired : Json.hasLoneSurrogate textForDepth = false := by decide +kernel
  have hrun : run (.ofContent textForDepth) ["validate", "p.json"] =
      .ok { status := 2, err := "Error: invalid literal for int() with base 10: 'x'\n" } :=
    eq_ok_of_toOption (by decide +kernel)
  exact (run_eq_iff_ends hcommand hpolicy hsuffix hfile hpaired _).mp hrun

/-- Not every document leads to a status: a text for a line does not. -/
theorem textForLine_has_no_status :
    ¬ ∀ content value, Json.read content = .ok value →
      ∃ output, run (.ofContent content) ["validate", "p.json"] = .ok output := by
  intro hall
  obtain ⟨value, hvalue⟩ : ∃ value, Json.read textForLine = .ok value :=
    exists_eq_ok (by decide +kernel)
  obtain ⟨misfit, herror⟩ : ∃ misfit, run (.ofContent textForLine) ["validate", "p.json"] =
      .error misfit :=
    exists_eq_error (by decide +kernel)
  obtain ⟨output, hrun⟩ := hall textForLine value hvalue
  cases herror.symm.trans hrun

end CommandLine

end Deduction
