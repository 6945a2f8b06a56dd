import Deduction.Proofs.Except
import Deduction.Proofs.Worker.History
import Deduction.Service.Respond
import Deduction.Service.Standard

/-!
Agreement of the two readings of a document, from the body of a request and from any value.

A body is read more strictly than a value. Where its reading succeeds and its depths are integers,
the value is read as the same document, but for an empty name of a ruleset, which is then missing.
Reader by reader, what the strict one reads the other one reads as well. The verdict on the
document then goes out unchanged, since replies leave out what verdicts leave out. Of the codec
nothing is used but its laws. Policies are those that are loaded, so the ruleset of a document that
names none is a known one.
-/

namespace Deduction.Service

open Value (lookUp?)

variable {codec : Codec} {place : List Step}

section Keys

variable {members : Members}

theorem firstMember?_singleton (key : String) :
    firstMember? [key] members = (lookUp? key members).map fun value => (key, value) := by
  rw [firstMember?, List.findSome?_cons]
  cases lookUp? key members <;> rfl

theorem firstField_eq (keys : List String) :
    firstField keys members = ((firstMember? keys members).map (·.2)).getD .null := by
  rw [firstField, firstMember?]
  congr 1
  induction keys with
  | nil => rfl
  | cons key keys ih =>
      rw [List.findSome?_cons, List.findSome?_cons]
      cases lookUp? key members with
      | none => exact ih
      | some value => rfl

theorem exists_member_of_field {α : Type} {read : Reading α} {default : Option α} {key : String}
    {content : α} (hfield : codec.field read default [key] place members = .ok content) :
    (∃ value, lookUp? key members = some value ∧
        read (place ++ [.key key]) value = .ok content) ∨
      lookUp? key members = none ∧ default = some content := by
  rw [codec.field_eq_ok_iff, firstMember?_singleton] at hfield
  rcases hfield with ⟨name, value, hfirst, hread⟩ | ⟨hnone, hdefault⟩
  · obtain ⟨found, hfound, hpair⟩ := Option.map_eq_some_iff.mp hfirst
    cases hpair
    exact Or.inl ⟨value, hfound, hread⟩
  · exact Or.inr ⟨Option.map_eq_none_iff.mp hnone, hdefault⟩

/-- The first of the keys that is there counts in both readings. -/
theorem firstField_of_field {α : Type} {read : Reading α} {default : Option α}
    {keys : List String} {content : α}
    (hfield : codec.field read default keys place members = .ok content) :
    (∃ place, read place (firstField keys members) = .ok content) ∨
      firstField keys members = .null ∧ default = some content := by
  rw [codec.field_eq_ok_iff] at hfield
  rw [firstField_eq]
  rcases hfield with ⟨key, value, hfirst, hread⟩ | ⟨hnone, hdefault⟩
  · rw [hfirst]
    exact Or.inl ⟨_, hread⟩
  · rw [hnone]
    exact Or.inr ⟨rfl, hdefault⟩

end Keys

section Readers

variable {value found : Value} {text : String}

theorem fieldText_of_text (hread : codec.text place value = .ok text) :
    value.fieldText = .ok text := by
  rw [codec.text_eq_ok_iff.mp hread]
  rfl

theorem fieldText_of_changeLabel (hchange : changeLabel value = .ok (.text text)) :
    value.fieldText = .ok text := by
  unfold changeLabel at hchange
  split at hchange
  · split_ifs at hchange with hwritable
    cases hchange
    simp only [Value.fieldText, Value.displayed, Value.isWritable, Scalar.isWritable, hwritable,
      if_true, Value.display, Scalar.display, Scalar.shown]
  · cases hchange
    rfl

theorem fieldText_of_label
    (hread : codec.changed changeLabel codec.text place value = .ok text) :
    value.fieldText = .ok text := by
  obtain ⟨found, hchange, htext⟩ := codec.changed_eq_ok_iff.mp hread
  obtain rfl := codec.text_eq_ok_iff.mp htext
  exact fieldText_of_changeLabel hchange

theorem fieldText_of_optional {name : Option String}
    (hread : codec.optional codec.text place value = .ok name) :
    value.fieldText = .ok (name.getD "") := by
  rcases codec.optional_eq_ok_iff.mp hread with ⟨rfl, rfl⟩ | ⟨-, text, htext, rfl⟩
  · rfl
  · exact fieldText_of_text htext

theorem EachRead.mapM_eq {α : Type} {read : Reading α} {describe : Value → Except Misfit α}
    {items : List Value} {position : Nat} {elements : List α}
    (heach : EachRead read place position items elements)
    (hagree : ∀ item ∈ items, ∀ place element, read place item = .ok element →
      describe item = .ok element) :
    items.mapM describe = .ok elements := by
  induction heach with
  | nil => rfl
  | cons hitem _ ih =>
      rw [List.forall_mem_cons] at hagree
      rw [List.mapM_cons, hagree.1 _ _ hitem, ih hagree.2]
      rfl

theorem eachRead_text_iff {items : List Value} {position : Nat} {texts : List String} :
    EachRead codec.text place position items texts ↔ items = texts.map Value.text := by
  constructor
  · intro heach
    induction heach with
    | nil => rfl
    | cons hitem _ ih => rw [List.map_cons, codec.text_eq_ok_iff.mp hitem, ih]
  · rintro rfl
    induction texts generalizing position with
    | nil => exact .nil
    | cons text texts ih => exact .cons (codec.text_eq_ok_iff.mpr rfl) ih

theorem mapM_fieldText_of_changeLabel {items : List Value} {texts : List String}
    (hchange : items.mapM changeLabel = .ok (texts.map Value.text)) :
    items.mapM Value.fieldText = .ok texts := by
  induction items generalizing texts with
  | nil =>
      obtain rfl := List.map_eq_nil_iff.mp (Except.ok.inj hchange).symm
      rfl
  | cons item items ih =>
      rw [List.mapM_cons] at hchange
      obtain ⟨first, hfirst, hchange⟩ := exists_of_bind_eq_ok hchange
      obtain ⟨others, hothers, hchange⟩ := exists_of_bind_eq_ok hchange
      obtain ⟨text, rest, rfl, rfl, rfl⟩ := List.map_eq_cons_iff.mp (Except.ok.inj hchange).symm
      rw [List.mapM_cons, fieldText_of_changeLabel hfirst, ih hothers]
      rfl

theorem elementsOr_list (items : List Value) : Value.elementsOr (some (.list items)) = .ok items := by
  cases items <;> rfl

end Readers

section Members

variable {members : Members} {key : String}

theorem fieldOr_of_field {text : String}
    (hfield : codec.field codec.text (some "") [key] place members = .ok text) :
    fieldOr key members = .ok text := by
  rw [fieldOr]
  rcases exists_member_of_field hfield with ⟨value, hvalue, hread⟩ | ⟨hnone, hdefault⟩
  · rw [hvalue]
    exact fieldText_of_text hread
  · rw [hnone, ← Option.some.inj hdefault]
    rfl

theorem elementsOr_of_field {α : Type} {read : Reading α} {describe : Value → Except Misfit α}
    {elements : List α}
    (hagree : ∀ items, lookUp? key members = some (.list items) → ∀ item ∈ items,
      ∀ place element, read place item = .ok element → describe item = .ok element)
    (hfield : codec.field (codec.list read) (some []) [key] place members = .ok elements) :
    ∃ items, Value.elementsOr (lookUp? key members) = .ok items ∧
      items.mapM describe = .ok elements := by
  rcases exists_member_of_field hfield with ⟨value, hvalue, hread⟩ | ⟨hnone, hdefault⟩
  · obtain ⟨items, rfl, heach⟩ := codec.list_eq_ok_iff.mp hread
    rw [hvalue]
    exact ⟨items, elementsOr_list items, heach.mapM_eq (hagree items hvalue)⟩
  · rw [hnone, ← Option.some.inj hdefault]
    exact ⟨[], rfl, rfl⟩

theorem elementsOr_of_citations {citations : List String}
    (hfield : codec.field (codec.changed changeCitations (codec.list codec.text)) (some []) [key]
      place members = .ok citations) :
    ∃ items, Value.elementsOr (lookUp? key members) = .ok items ∧
      items.mapM Value.fieldText = .ok citations := by
  rcases exists_member_of_field hfield with ⟨value, hvalue, hread⟩ | ⟨hnone, hdefault⟩
  · obtain ⟨found, hchange, hlist⟩ := codec.changed_eq_ok_iff.mp hread
    obtain ⟨changed, rfl, heach⟩ := codec.list_eq_ok_iff.mp hlist
    obtain rfl := eachRead_text_iff.mp heach
    rw [hvalue]
    unfold changeCitations at hchange
    split at hchange
    · obtain rfl := List.map_eq_nil_iff.mp (Value.list.inj (Except.ok.inj hchange)).symm
      exact ⟨[], rfl, rfl⟩
    · rename_i items
      refine ⟨items, elementsOr_list items, mapM_fieldText_of_changeLabel ?_⟩
      cases hitems : items.mapM changeLabel with
      | error misfit =>
          rw [hitems] at hchange
          cases hchange
      | ok texts =>
          rw [hitems] at hchange
          rw [Value.list.inj (Except.ok.inj hchange)]
    · rename_i hother
      exact absurd (Except.ok.inj hchange) (hother _)
  · rw [hnone, ← Option.some.inj hdefault]
    exact ⟨[], rfl, rfl⟩

/-- The depth of the line is missing or an integer. -/
def hasIntegerDepth : Value → Bool
  | .object members =>
      match lookUp? "depth" members with
      | none => true
      | some (.int _) => true
      | some _ => false
  | _ => true

/-- The depths of the lines in a body are missing or integers. -/
def hasIntegerDepths : Value → Bool
  | .object members =>
      match lookUp? "lines" members with
      | some (.list lines) => lines.all hasIntegerDepth
      | _ => true
  | _ => true

/-- An integer that is read as a depth is one. -/
theorem depthOf_of_field {depth : Int}
    (hfield : codec.field (codec.integer (some 0)) (some 0) ["depth"] place members = .ok depth)
    (hinteger : hasIntegerDepth (.object members) = true) : depthOf members = .ok depth := by
  rw [hasIntegerDepth] at hinteger
  rw [depthOf]
  rcases exists_member_of_field hfield with ⟨value, hvalue, hread⟩ | ⟨hnone, hdefault⟩
  · rw [hvalue] at hinteger ⊢
    split at hinteger
    · contradiction
    · rename_i number hnumber
      cases hnumber
      obtain ⟨rfl, hleast⟩ := codec.integer_eq_ok_iff.mp hread
      have hnatural : 0 ≤ number := hleast 0 rfl
      dsimp only
      split_ifs with htruthy
      · exact congrArg Except.ok (max_eq_right hnatural)
      · have hzero : number = 0 := by simpa [Value.isTruthy, Scalar.isTruthy] using htruthy
        rw [hzero]
    · cases hinteger
  · rw [hnone, ← Option.some.inj hdefault]

end Members

theorem exists_members_of_line {value : Value} {line : Line}
    (hread : codec.line place value = .ok line) :
    ∃ members, value = .object members ∧
      codec.field (codec.changed changeLabel codec.text) none ["lineNo", "line_no"] place members =
        .ok line.label ∧
      codec.field codec.text (some "") ["formula"] place members = .ok line.formula ∧
      codec.field codec.text (some "") ["rule"] place members = .ok line.rule ∧
      codec.field (codec.changed changeCitations (codec.list codec.text)) (some []) ["refs"] place
        members = .ok line.citations ∧
      codec.field (codec.integer (some 0)) (some 0) ["depth"] place members = .ok line.depth := by
  obtain ⟨members, rfl, hfields⟩ := codec.model_eq_ok_iff.mp hread
  dsimp only at hfields
  split at hfields
  · rename_i hlabel hformula hrule hcitations hdepth
    cases hfields
    exact ⟨members, rfl, hlabel, hformula, hrule, hcitations, hdepth⟩
  · cases hfields

theorem ofValue_of_line {value : Value} {line : Line}
    (hread : codec.line place value = .ok line) (hinteger : hasIntegerDepth value = true) :
    Line.ofValue value = .ok line := by
  obtain ⟨members, rfl, hlabel, hformula, hrule, hcitations, hdepth⟩ :=
    exists_members_of_line hread
  have hlabel' : (firstField ["lineNo", "line_no"] members).fieldText = .ok line.label := by
    rcases firstField_of_field hlabel with ⟨_, hfield⟩ | ⟨_, hmissing⟩
    · exact fieldText_of_label hfield
    · cases hmissing
  obtain ⟨items, hitems, hcitations'⟩ := elementsOr_of_citations hcitations
  simp only [Line.ofValue, Value.members, bind, Except.bind, hlabel', fieldOr_of_field hformula,
    fieldOr_of_field hrule, hitems, hcitations', depthOf_of_field hdepth hinteger]
  rfl

theorem exists_members_of_document {value : Value} {document : Document}
    (hread : codec.document place value = .ok document) :
    ∃ members, value = .object members ∧
      codec.field (codec.list codec.text) (some []) ["premises"] place members =
        .ok document.premises ∧
      codec.field codec.text (some "") ["conclusion"] place members = .ok document.conclusion ∧
      codec.field (codec.list codec.line) (some []) ["lines"] place members =
        .ok document.lines ∧
      codec.field (codec.optional codec.text) (some none) ["ruleset", "rules"] place members =
        .ok document.ruleset := by
  obtain ⟨members, rfl, hfields⟩ := codec.model_eq_ok_iff.mp hread
  dsimp only at hfields
  split at hfields
  · rename_i hpremises hconclusion hlines hruleset
    cases hfields
    exact ⟨members, rfl, hpremises, hconclusion, hlines, hruleset⟩
  · cases hfields

theorem document_of_readDocument {body : Value} {document : Document}
    (hread : readDocument codec (some body) = .ok document) :
    codec.document [.key "body"] body = .ok document := by
  unfold readDocument at hread
  split at hread
  · cases hread
  · cases hread
  · rename_i hbody
    cases hbody
    exact hread

def properName : Option String → Option String
  | some name => if name.isEmpty then none else some name
  | none => none

/-- The document without an empty name of a ruleset. -/
def withProperName (document : Document) : Document :=
  { document with ruleset := properName document.ruleset }

theorem ofValue_of_readDocument {body : Value} {document : Document}
    (hread : readDocument codec (some body) = .ok document)
    (hinteger : hasIntegerDepths body = true) :
    Document.ofValue body = .ok (withProperName document) := by
  obtain ⟨members, rfl, hpremises, hconclusion, hlines, hruleset⟩ :=
    exists_members_of_document (document_of_readDocument hread)
  obtain ⟨premises, hpremises', hpremises''⟩ :=
    elementsOr_of_field (fun _ _ _ _ _ _ hitem => fieldText_of_text hitem) hpremises
  have hline : ∀ items, lookUp? "lines" members = some (.list items) → ∀ item ∈ items,
      ∀ place line, codec.line place item = .ok line → Line.ofValue item = .ok line := by
    intro items hitems item hmem place line hitem
    simp only [hasIntegerDepths, hitems, List.all_eq_true] at hinteger
    exact ofValue_of_line hitem (hinteger item hmem)
  obtain ⟨lines, hlines', hlines''⟩ := elementsOr_of_field hline hlines
  have hruleset' : (firstField ["ruleset", "rules"] members).fieldText =
      .ok (document.ruleset.getD "") := by
    rcases firstField_of_field hruleset with ⟨_, hfield⟩ | ⟨hnull, hmissing⟩
    · exact fieldText_of_optional hfield
    · rw [hnull, ← Option.some.inj hmissing]
      rfl
  have hname : (if (document.ruleset.getD "").isEmpty then none
      else some (document.ruleset.getD "")) =
        properName document.ruleset := by
    cases document.ruleset <;> rfl
  simp only [Document.ofValue, Value.members, bind, Except.bind, hpremises', hpremises'',
    fieldOr_of_field hconclusion, hlines', hlines'', hruleset', hname]
  rfl

theorem resolve_properName (name : Option String) (default : Ruleset) :
    Ruleset.resolve (properName name) default.name = Ruleset.resolve name default.name := by
  have hdefault : Ruleset.ofName? default.name = some default := by cases default <;> decide
  cases name with
  | none => rfl
  | some text =>
      cases hempty : text.isEmpty with
      | true => simp only [properName, Ruleset.resolve, hempty, if_true, hdefault]
      | false => simp only [properName, hempty, Bool.false_eq_true, if_false]

theorem validate_withProperName (document : Document) (policy : Policy) :
    (withProperName document).validate policy = document.validate policy := by
  rw [Document.validate, Document.validate, Document.validateWith, Document.validateWith,
    withProperName]
  dsimp only
  rw [resolve_properName]

section Replies

/-- A value goes out as it came in: it is read, whatever its place, and what is read is written as
the value. -/
def IsTold {α : Type} (read : Reading α) (write : α → Value) (value : Value) : Prop :=
  ∃ reply, (∀ place, read place value = .ok reply) ∧ write reply = value

variable {members : Members} {key : String}

theorem field_of_lookUp? {α : Type} {read : Reading α} {default : Option α} {value : Value}
    {content : α} (hvalue : lookUp? key members = some value)
    (hread : ∀ place, read place value = .ok content) :
    codec.field read default [key] place members = .ok content := by
  refine codec.field_eq_ok_iff.mpr (Or.inl ⟨key, value, ?_, hread _⟩)
  rw [firstMember?_singleton, hvalue]
  rfl

theorem possible_of_some {α : Type} {read : Reading α} {value : Value} {content : α}
    (hvalue : lookUp? key members = some value)
    (hread : ∀ place, read place value = .ok content) (hnull : value ≠ .null) :
    codec.possible read key place members = .ok (some content) :=
  field_of_lookUp? hvalue fun _ =>
    codec.optional_eq_ok_iff.mpr (Or.inr ⟨hnull, content, hread _, rfl⟩)

theorem possible_of_none {α : Type} {read : Reading α} (hnone : lookUp? key members = none) :
    codec.possible read key place members = .ok none := by
  refine codec.field_eq_ok_iff.mpr (Or.inr ⟨?_, rfl⟩)
  rw [firstMember?_singleton, hnone]
  rfl

theorem possible_of_condition {α : Type} {read : Reading α} (condition : Bool) {value : Value}
    {content : α} (hvalue : lookUp? key members = if condition then some value else none)
    (hread : ∀ place, read place value = .ok content) (hnull : value ≠ .null) :
    codec.possible read key place members = .ok (if condition then some content else none) := by
  cases condition with
  | true => exact possible_of_some hvalue hread hnull
  | false => exact possible_of_none hvalue

theorem text_of_text (text : String) (place : List Step) :
    codec.text place (.text text) = .ok text :=
  codec.text_eq_ok_iff.mpr rfl

theorem flag_of_bool (value : Bool) (place : List Step) :
    codec.flag place (.bool value) = .ok value :=
  codec.flag_eq_ok_iff.mpr rfl

theorem list_of_texts (texts : List String) (place : List Step) :
    codec.list codec.text place (.texts texts) = .ok texts :=
  codec.list_eq_ok_iff.mpr ⟨_, rfl, eachRead_text_iff.mpr rfl⟩

theorem exists_list_told {α β : Type} {read : Reading β} {write : β → Value} {tell : α → Value}
    (codec : Codec) (htold : ∀ item, IsTold read write (tell item)) (items : List α) :
    ∃ replies, (∀ place, codec.list read place (.list (items.map tell)) = .ok replies) ∧
      replies.map write = items.map tell := by
  have heach : ∃ replies,
      (∀ place position, EachRead read place position (items.map tell) replies) ∧
        replies.map write = items.map tell := by
    induction items with
    | nil => exact ⟨[], fun _ _ => .nil, rfl⟩
    | cons item items ih =>
        obtain ⟨reply, hread, hwrite⟩ := htold item
        obtain ⟨replies, hreads, hwrites⟩ := ih
        refine ⟨reply :: replies, fun place position => .cons (hread _) (hreads place _), ?_⟩
        rw [List.map_cons, List.map_cons, hwrite, hwrites]
  obtain ⟨replies, hreads, hwrites⟩ := heach
  exact ⟨replies, fun place => codec.list_eq_ok_iff.mpr ⟨_, rfl, hreads place 0⟩, hwrites⟩

theorem isTold_evidence (codec : Codec) (evidence : Evidence) :
    IsTold codec.evidenceReply codec.writeEvidence evidence.toValue := by
  refine ⟨⟨evidence.rule, evidence.citations,
    if !(evidence.info.getD "").isEmpty then some (evidence.info.getD "") else none,
    if evidence.approximate then some true else none⟩, fun place => ?_, ?_⟩
  · refine codec.model_eq_ok_iff.mpr ⟨_, rfl, ?_⟩
    rw [Codec.required, field_of_lookUp? (by simp [lookUp?]) (text_of_text evidence.rule),
      Codec.required, field_of_lookUp? (by simp [lookUp?]) (list_of_texts evidence.citations),
      possible_of_condition (!(evidence.info.getD "").isEmpty) ?_ (text_of_text _) nofun,
      possible_of_condition evidence.approximate ?_ (flag_of_bool true) nofun]
    · rfl
    · cases (evidence.info.getD "").isEmpty <;> cases evidence.approximate <;>
        simp [lookUp?, memberIf]
    · cases (evidence.info.getD "").isEmpty <;> cases evidence.approximate <;>
        simp [lookUp?, memberIf]
  · rw [Codec.writeEvidence, codec.write_eq]
    cases hinfo : (evidence.info.getD "").isEmpty <;>
      cases happroximate : evidence.approximate <;>
        simp [Evidence.toValue, given, memberIf, hinfo, happroximate]

theorem isTold_line (codec : Codec) (line : LineVerdict) :
    IsTold codec.lineReply codec.writeLine line.toValue := by
  let always : Members :=
    [("lineNo", .text line.label), ("ok", .bool line.ok), ("messages", .texts line.messages)]
  have hpossible : ∃ reply, (∀ place, codec.possible codec.evidenceReply "evidence" place
      (always ++ line.evidence.toList.map fun evidence => (.text "evidence", evidence.toValue)) =
        .ok reply) ∧ reply.map codec.writeEvidence = line.evidence.map Evidence.toValue := by
    cases line.evidence with
    | none => exact ⟨none, fun _ => possible_of_none (by simp [lookUp?, always]), rfl⟩
    | some evidence =>
        obtain ⟨reply, hread, hwrite⟩ := isTold_evidence codec evidence
        exact ⟨some reply, fun _ => possible_of_some (by simp [lookUp?, always]) hread nofun,
          congrArg some hwrite⟩
  obtain ⟨reply, hread, hwrite⟩ := hpossible
  refine ⟨⟨line.label, line.ok, line.messages, reply⟩, fun place => ?_, ?_⟩
  · refine codec.model_eq_ok_iff.mpr ⟨_, rfl, ?_⟩
    rw [Codec.required, field_of_lookUp? (by simp [lookUp?]) (text_of_text line.label),
      Codec.required, field_of_lookUp? (by simp [lookUp?]) (flag_of_bool line.ok),
      Codec.required, field_of_lookUp? (by simp [lookUp?]) (list_of_texts line.messages), hread]
    rfl
  · rw [Codec.writeLine, codec.write_eq, hwrite]
    cases hevidence : line.evidence <;> simp [LineVerdict.toValue, given, hevidence]

theorem isTold_frame (codec : Codec) (frame : Frame) :
    IsTold codec.frameReply codec.writeFrame (.object frame.toMembers) := by
  have hlevel (place : List Step) :
      codec.integer none place (.int frame.level) = .ok (frame.level : Int) :=
    codec.integer_eq_ok_iff.mpr ⟨rfl, nofun⟩
  refine ⟨⟨frame.level, frame.startLabel, frame.stopLabel.getD frame.startLabel,
    if !frame.assumption.isEmpty then some frame.assumption else none⟩, fun place => ?_, ?_⟩
  · refine codec.model_eq_ok_iff.mpr ⟨_, rfl, ?_⟩
    rw [Codec.required, field_of_lookUp? (by simp [lookUp?, Frame.toMembers]) hlevel,
      Codec.required,
      field_of_lookUp? (by simp [lookUp?, Frame.toMembers]) (text_of_text frame.startLabel),
      Codec.required,
      field_of_lookUp? (by simp [lookUp?, Frame.toMembers])
        (text_of_text (frame.stopLabel.getD frame.startLabel)),
      possible_of_condition (!frame.assumption.isEmpty) ?_ (text_of_text frame.assumption) nofun]
    · rfl
    · cases hassumption : frame.assumption.isEmpty <;>
        simp [lookUp?, Frame.toMembers, memberIf, hassumption]
  · rw [Codec.writeFrame, codec.write_eq]
    cases hassumption : frame.assumption.isEmpty <;>
      simp [Frame.toMembers, given, memberIf, hassumption]

/-- Nothing of a verdict is added or left out by the reply. -/
theorem isTold_verdict (codec : Codec) (verdict : Verdict) :
    IsTold codec.reply codec.writeReply verdict.toValue := by
  obtain ⟨lines, hlines, hlines'⟩ := exists_list_told codec (isTold_line codec) verdict.lines
  obtain ⟨frames, hframes, hframes'⟩ := exists_list_told codec (isTold_frame codec) verdict.frames
  refine ⟨⟨verdict.ok, lines, frames, verdict.conclusionReached⟩, fun place => ?_, ?_⟩
  · refine codec.model_eq_ok_iff.mpr ⟨_, rfl, ?_⟩
    rw [Codec.required,
      field_of_lookUp? (by simp [lookUp?, Verdict.toMembers]) (flag_of_bool verdict.ok),
      Codec.required, field_of_lookUp? (by simp [lookUp?, Verdict.toMembers]) hlines,
      Codec.required, field_of_lookUp? (by simp [lookUp?, Verdict.toMembers]) hframes,
      Codec.required,
      field_of_lookUp? (by simp [lookUp?, Verdict.toMembers])
        (flag_of_bool verdict.conclusionReached)]
    rfl
  · rw [Codec.writeReply, codec.write_eq, hlines', hframes']
    rfl

theorem tell_verdict (codec : Codec) (verdict : Verdict) :
    tell codec verdict = ⟨200, verdict.toValue⟩ := by
  obtain ⟨reply, hread, hwrite⟩ := isTold_verdict codec verdict
  rw [tell, hread]
  exact congrArg (Response.mk 200) hwrite

end Replies

section Answers

variable {body : Option Value} {document : Document} {worker : Worker}

theorem answer_of_validate {validation : Validation}
    (hread : readDocument codec body = .ok document)
    (hvalidate : document.validate worker.policy = .ok validation) (schedule : Schedule) :
    (answer codec schedule worker body).1 = ⟨200, validation.verdict.toValue⟩ := by
  have hrun := Worker.map_validation_runOn worker schedule document none
  rw [hvalidate] at hrun
  rw [answer, hread]
  rcases hoc : worker.runOn schedule document none with ⟨outcome, next⟩
  rw [hoc] at hrun
  cases outcome with
  | error error => cases hrun
  | ok run =>
      simp only [Except.map, Except.ok.injEq] at hrun
      simp only [hoc, tell_verdict, hrun]

theorem answer_of_unknown {error : UnknownRuleset} (hread : readDocument codec body = .ok document)
    (hvalidate : document.validate worker.policy = .error error) (schedule : Schedule) :
    (answer codec schedule worker body).1 = detail 400 error.message := by
  have hrun := Worker.map_validation_runOn worker schedule document none
  rw [hvalidate] at hrun
  rw [answer, hread]
  rcases hoc : worker.runOn schedule document none with ⟨outcome, next⟩
  rw [hoc] at hrun
  cases outcome with
  | error error' =>
      simp only [Except.map, Except.error.injEq] at hrun
      simp only [hoc, hrun]
  | ok run => cases hrun

end Answers

/-- A body that is read as a document, with depths that are integers, also describes one as a value.
Under every policy the two are validated alike, and the answer is the verdict as it is, or the word
that the ruleset is not known. -/
theorem answer_of_described {codec : Codec} {body : Value} {document : Document}
    (hread : readDocument codec (some body) = .ok document)
    (hinteger : hasIntegerDepths body = true) :
    ∃ described, Document.ofValue body = .ok described ∧
      ∀ (schedule : Schedule) (worker : Worker),
        document.validate worker.policy = described.validate worker.policy ∧
        (∀ validation, described.validate worker.policy = .ok validation →
          (answer codec schedule worker (some body)).1 = ⟨200, validation.verdict.toValue⟩) ∧
        (∀ error, described.validate worker.policy = .error error →
          (answer codec schedule worker (some body)).1 = detail 400 error.message) := by
  refine ⟨withProperName document, ofValue_of_readDocument hread hinteger, ?_⟩
  intro schedule worker
  rw [validate_withProperName]
  refine ⟨rfl, ?_, ?_⟩
  · intro validation hvalidate
    exact answer_of_validate hread hvalidate schedule
  · intro error hvalidate
    exact answer_of_unknown hread hvalidate schedule

/-- A body with a number for a label, null for citations, and an empty name under the second key of
the ruleset. -/
def posted : Value :=
  .object
    [ ("premises", .list [.text "A"]), ("conclusion", .text "A"), ("rules", .text ""),
      ("lines", .list
        [ .object
            [ ("line_no", .int 1), ("formula", .text "A"), ("rule", .text "Premise"),
              ("refs", .null), ("depth", .int 0) ] ]) ]

theorem posted_answer :
    ∃ described validation, Document.ofValue posted = .ok described ∧
      described.validate {} = .ok validation ∧
      (answer .standard .prompt (.start {}) (some posted)).1 =
        ⟨200, validation.verdict.toValue⟩ := by
  have hread : readDocument .standard (some posted) = .ok
      { premises := ["A"], conclusion := "A", ruleset := some ""
        lines := [{ label := "1", formula := "A", rule := "Premise" }] } :=
    eq_ok_of_toOption (by decide +kernel)
  obtain ⟨described, hdescribed, hanswer⟩ := answer_of_described hread (by decide +kernel)
  obtain ⟨hsame, hok, -⟩ := hanswer .prompt (.start {})
  have hvalidate := hsame.symm.trans (Document.validate_eq_run rfl)
  exact ⟨described, _, hdescribed, hvalidate, hok _ hvalidate⟩

end Deduction.Service
