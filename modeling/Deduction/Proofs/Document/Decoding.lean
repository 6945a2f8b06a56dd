import Deduction.Proof.Decoding
import Deduction.Proofs.Except
import Deduction.Proofs.Value.Reading

namespace Deduction

open Value (lookUp?)

namespace Value

/-- A member counts as true and is nothing to run through. -/
def LacksElements (value : Value) (key : String) (kind : Kind) : Prop :=
  ∃ member, value.HasMember key member ∧ member.isTruthy = true ∧ member.kind = kind ∧
    kind ∉ [.list, .text, .object] ∧ ∀ thing, member = .foreign thing → thing.elements = none

/-- A member counts as true and runs through these elements. -/
def HasElements (value : Value) (key : String) (items : List Value) : Prop :=
  ∃ member, value.HasMember key member ∧ member.isTruthy = true ∧ member.elements = .ok items

end Value

/-- What keeps a value from describing a line: the first that is met of a kind other than that of
objects, citations that are nothing to run through, and a depth that is no integer. -/
inductive Line.Fails (value : Value) : Misfit → Prop
  | kind (hkind : value.kind ≠ .object) : Fails value (.lacksMember value.kind "get")
  | citations {kind : Kind} (hcitations : value.LacksElements "refs" kind) :
      Fails value (.notIterable kind)
  | depth {depth : Value} {misfit : Misfit} (hcitations : ∀ kind, ¬ value.LacksElements "refs" kind)
      (hdepth : value.HasMember "depth" depth) (htruthy : depth.isTruthy = true)
      (hread : depth.toInteger = .error misfit) : Fails value misfit

/-- The line is met when a document is read: the premises are something to run through, and so are
the lines, of which those before it can be described. -/
structure Document.Meets (value line : Value) : Prop where
  premises : ∀ kind, ¬ value.LacksElements "premises" kind
  lines : ∃ before after, value.HasElements "lines" (before ++ line :: after) ∧
    ∀ other ∈ before, ∀ misfit, ¬ Line.Fails other misfit

/-- What keeps an object from describing a document: the first that is met of premises and lines
that are nothing to run through, and a line that cannot be described. -/
inductive Document.Fails (value : Value) : Misfit → Prop
  | premises {kind : Kind} (hpremises : value.LacksElements "premises" kind) :
      Fails value (.notIterable kind)
  | lines {kind : Kind} (hpremises : ∀ kind, ¬ value.LacksElements "premises" kind)
      (hlines : value.LacksElements "lines" kind) : Fails value (.notIterable kind)
  | line {line : Value} {misfit : Misfit} (hmeets : Meets value line)
      (hline : Line.Fails line misfit) : Fails value misfit

/-- A line leads beyond the shapes of fields: it is no object, or its depth is infinite. -/
inductive Line.Strays (value : Value) : Misfit → Prop
  | kind (hkind : value.kind ≠ .object) : Strays value (.lacksMember value.kind "get")
  | depth {negative : Bool} (hcitations : ∀ kind, ¬ value.LacksElements "refs" kind)
      (hdepth : value.HasMember "depth" (.real (.infinite negative))) :
      Strays value .infiniteInteger

/-- The first fault of a document is a line that leads beyond the shapes of fields. -/
def Document.Strays (value : Value) (misfit : Misfit) : Prop :=
  ∃ line, Meets value line ∧ Line.Strays line misfit

section Fields

variable {members : Members} {key : String}

theorem Value.elements_eq_error_iff {value : Value} {misfit : Misfit} :
    value.elements = .error misfit ↔
      value.kind ∉ [.list, .text, .object] ∧
        (∀ thing, value = .foreign thing → thing.elements = none) ∧
        Misfit.notIterable value.kind = misfit := by
  rcases value with scalar | items | members
  · cases scalar with
    | foreign thing =>
        cases hitems : thing.elements <;> simp [Value.elements, Value.kind, Scalar.kind, hitems]
    | _ => simp [Value.elements, Value.kind, Scalar.kind]
  · simp [Value.elements, Value.kind]
  · simp [Value.elements, Value.kind]

theorem Value.elementsOr_eq_error_iff {misfit : Misfit} :
    Value.elementsOr (lookUp? key members) = .error misfit ↔
      ∃ kind, (Value.object members).LacksElements key kind ∧ Misfit.notIterable kind = misfit := by
  unfold Value.elementsOr Value.LacksElements
  simp only [Value.hasMember_object]
  cases lookUp? key members with
  | none => simp
  | some member =>
      by_cases htruthy : member.isTruthy = true
      · simp only [htruthy, if_true, Value.elements_eq_error_iff, Option.some.injEq]
        constructor
        · rintro ⟨hkind, hforeign, rfl⟩
          exact ⟨member.kind, ⟨member, rfl, htruthy, rfl, hkind, hforeign⟩, rfl⟩
        · rintro ⟨kind, ⟨found, rfl, -, rfl, hkind, hforeign⟩, rfl⟩
          exact ⟨hkind, hforeign, rfl⟩
      · simp [htruthy]

theorem Value.exists_elementsOr_iff :
    (∃ items, Value.elementsOr (lookUp? key members) = .ok items) ↔
      ∀ kind, ¬ (Value.object members).LacksElements key kind := by
  constructor
  · rintro ⟨items, hitems⟩ kind hlacks
    cases hitems.symm.trans (Value.elementsOr_eq_error_iff.mpr ⟨kind, hlacks, rfl⟩)
  · intro hnone
    cases hitems : Value.elementsOr (lookUp? key members) with
    | ok items => exact ⟨items, rfl⟩
    | error misfit =>
        obtain ⟨kind, hlacks, -⟩ := Value.elementsOr_eq_error_iff.mp hitems
        exact absurd hlacks (hnone kind)

theorem Value.elementsOr_eq_ok_iff {items : List Value} (hsome : items ≠ []) :
    Value.elementsOr (lookUp? key members) = .ok items ↔
      (Value.object members).HasElements key items := by
  unfold Value.elementsOr Value.HasElements
  simp only [Value.hasMember_object]
  cases lookUp? key members with
  | none => simp [hsome.symm]
  | some member =>
      by_cases htruthy : member.isTruthy = true
      · simp [htruthy]
      · simp [htruthy, hsome.symm]

theorem depthOf_eq_error_iff {misfit : Misfit} :
    depthOf members = .error misfit ↔
      ∃ depth, lookUp? "depth" members = some depth ∧ depth.isTruthy = true ∧
        depth.toInteger = .error misfit := by
  unfold depthOf
  cases lookUp? "depth" members with
  | none => simp
  | some depth =>
      by_cases htruthy : depth.isTruthy = true
      · cases hread : depth.toInteger <;> simp [htruthy, hread, Functor.map, Except.map]
      · simp [htruthy]

section Writable

variable (hwritable : (Value.object members).isWritable = true)

include hwritable

theorem exists_fieldOr (key : String) : ∃ text, fieldOr key members = .ok text := by
  apply Value.exists_fieldText
  cases hmember : lookUp? key members with
  | none => rfl
  | some member => exact Value.isWritable_of_lookUp? hwritable hmember

theorem exists_firstField (keys : List String) :
    ∃ text, (firstField keys members).fieldText = .ok text := by
  apply Value.exists_fieldText
  unfold firstField
  cases hmember : keys.findSome? fun key => lookUp? key members with
  | none => rfl
  | some member =>
      obtain ⟨key, -, hkey⟩ := List.exists_of_findSome?_eq_some hmember
      exact Value.isWritable_of_lookUp? hwritable hkey

theorem Value.isWritable_of_elementsOr {items : List Value}
    (hitems : Value.elementsOr (lookUp? key members) = .ok items) :
    ∀ item ∈ items, item.isWritable = true := by
  unfold Value.elementsOr at hitems
  split at hitems
  · rename_i member hmember
    split at hitems
    · exact Value.isWritable_of_elements (Value.isWritable_of_lookUp? hwritable hmember) hitems
    · obtain rfl := Except.ok.inj hitems
      simp
  · obtain rfl := Except.ok.inj hitems
    simp

theorem exists_texts_iff {misfit : Misfit} {rest : Prop} :
    (∃ items, Value.elementsOr (lookUp? key members) = .ok items ∧
        (items.mapM Value.fieldText = .error misfit ∨
          ∃ texts, items.mapM Value.fieldText = .ok texts ∧ rest)) ↔
      (∃ items, Value.elementsOr (lookUp? key members) = .ok items) ∧ rest := by
  have htexts : ∀ items, Value.elementsOr (lookUp? key members) = .ok items →
      ∀ misfit, items.mapM Value.fieldText ≠ .error misfit := by
    intro items hitems misfit herror
    obtain ⟨before, item, after, rfl, -, hitem⟩ := mapM_eq_error_iff.mp herror
    obtain ⟨text, htext⟩ :=
      Value.exists_fieldText (Value.isWritable_of_elementsOr hwritable hitems item (by simp))
    cases hitem.symm.trans htext
  constructor
  · rintro ⟨items, hitems, herror | ⟨texts, -, hrest⟩⟩
    · exact absurd herror (htexts items hitems misfit)
    · exact ⟨⟨items, hitems⟩, hrest⟩
  · rintro ⟨⟨items, hitems⟩, hrest⟩
    cases hmap : items.mapM Value.fieldText with
    | error misfit => exact absurd hmap (htexts items hitems misfit)
    | ok texts => exact ⟨items, hitems, Or.inr ⟨texts, hmap, hrest⟩⟩

end Writable

end Fields

section Kinds

variable {value : Value}

theorem Value.HasMember.kind_eq {key : String} {member : Value}
    (hmember : value.HasMember key member) : value.kind = .object := by
  obtain ⟨members, rfl, -⟩ := hmember
  rfl

theorem Value.members_eq_error (hkind : value.kind ≠ .object) :
    value.members = .error (.lacksMember value.kind "get") := by
  cases value with
  | object members => exact absurd rfl hkind
  | scalar scalar => rfl
  | list items => rfl

end Kinds

namespace Line

theorem ofValue_object_eq_error_iff {members : Members}
    (hwritable : (Value.object members).isWritable = true) {misfit : Misfit} :
    ofValue (.object members) = .error misfit ↔
      Value.elementsOr (lookUp? "refs" members) = .error misfit ∨
        (∃ items, Value.elementsOr (lookUp? "refs" members) = .ok items) ∧
          depthOf members = .error misfit := by
  obtain ⟨label, hlabel⟩ := exists_firstField hwritable ["lineNo", "line_no"]
  obtain ⟨formula, hformula⟩ := exists_fieldOr hwritable "formula"
  obtain ⟨rule, hrule⟩ := exists_fieldOr hwritable "rule"
  have hpure : ∀ line : Line, (pure line : Except Misfit Line) ≠ .error misfit := nofun
  -- Every step but the elements of the citations, their texts and the depth is known to succeed.
  simp only [ofValue, Value.members, bind_eq_error_iff, reduceCtorEq, false_or,
    Except.ok.injEq, exists_eq_left', hlabel, hformula, hrule, hpure, and_false, exists_false,
    or_false]
  exact or_congr_right (exists_texts_iff hwritable)

theorem ofValue_eq_error_iff {value : Value} (hwritable : value.isWritable = true)
    {misfit : Misfit} : ofValue value = .error misfit ↔ Fails value misfit := by
  by_cases hkind : value.kind = .object
  · obtain ⟨members, rfl⟩ := Value.kind_eq_object_iff.mp hkind
    rw [ofValue_object_eq_error_iff hwritable, Value.elementsOr_eq_error_iff,
      Value.exists_elementsOr_iff, depthOf_eq_error_iff]
    constructor
    · rintro (⟨kind, hlacks, rfl⟩ | ⟨hcitations, depth, hdepth, htruthy, hread⟩)
      · exact .citations hlacks
      · exact .depth hcitations (Value.hasMember_object.mpr hdepth) htruthy hread
    · intro hfails
      cases hfails with
      | kind hother => exact absurd hkind hother
      | citations hlacks => exact Or.inl ⟨_, hlacks, rfl⟩
      | depth hcitations hdepth htruthy hread =>
          exact Or.inr ⟨hcitations, _, Value.hasMember_object.mp hdepth, htruthy, hread⟩
  · have herror : ofValue value = .error (.lacksMember value.kind "get") := by
      rw [ofValue, Value.members_eq_error hkind]
      rfl
    constructor
    · intro heq
      obtain rfl := Except.error.inj (herror.symm.trans heq)
      exact .kind hkind
    · intro hfails
      cases hfails with
      | kind => exact herror
      | citations hlacks =>
          obtain ⟨member, hmember, -⟩ := hlacks
          exact absurd hmember.kind_eq hkind
      | depth _ hdepth => exact absurd hdepth.kind_eq hkind

/-- Of what keeps a value from describing a line, two things lead beyond the shapes of fields. -/
theorem fails_and_not_isPlain_iff {value : Value} {misfit : Misfit} :
    (Fails value misfit ∧ misfit.isPlain = false) ↔ Strays value misfit := by
  constructor
  · rintro ⟨hfails, hplain⟩
    cases hfails with
    | kind hkind => exact .kind hkind
    | citations hlacks => contradiction
    | depth hcitations hdepth htruthy hread =>
        obtain ⟨⟨negative, rfl⟩, rfl⟩ := Value.toInteger_eq_error_iff.mp ⟨hread, hplain⟩
        exact .depth hcitations hdepth
  · intro hstrays
    cases hstrays with
    | kind hkind => exact ⟨.kind hkind, rfl⟩
    | depth hcitations hdepth => exact ⟨.depth hcitations hdepth rfl rfl, rfl⟩

end Line

namespace Document

theorem kind_of_ofValue {value : Value} {document : Document}
    (hdocument : ofValue value = .ok document) : value.kind = .object := by
  refine Decidable.byContradiction fun hkind => ?_
  rw [ofValue, Value.members_eq_error hkind] at hdocument
  contradiction

theorem Fails.kind_eq {value : Value} {misfit : Misfit} (hfails : Fails value misfit) :
    value.kind = .object := by
  cases hfails with
  | premises hlacks =>
      obtain ⟨member, hmember, -⟩ := hlacks
      exact hmember.kind_eq
  | lines _ hlacks =>
      obtain ⟨member, hmember, -⟩ := hlacks
      exact hmember.kind_eq
  | line hmeets _ =>
      obtain ⟨before, after, ⟨member, hmember, -⟩, -⟩ := hmeets.lines
      exact hmember.kind_eq

theorem ofValue_object_eq_error_iff {members : Members}
    (hwritable : (Value.object members).isWritable = true) {misfit : Misfit} :
    ofValue (.object members) = .error misfit ↔
      Value.elementsOr (lookUp? "premises" members) = .error misfit ∨
        (∃ items, Value.elementsOr (lookUp? "premises" members) = .ok items) ∧
          (Value.elementsOr (lookUp? "lines" members) = .error misfit ∨
            ∃ lines, Value.elementsOr (lookUp? "lines" members) = .ok lines ∧
              lines.mapM Line.ofValue = .error misfit) := by
  obtain ⟨conclusion, hconclusion⟩ := exists_fieldOr hwritable "conclusion"
  obtain ⟨ruleset, hruleset⟩ := exists_firstField hwritable ["ruleset", "rules"]
  have hpure : ∀ document : Document,
      (pure document : Except Misfit Document) ≠ .error misfit := nofun
  simp only [ofValue, Value.members, bind_eq_error_iff, reduceCtorEq, false_or,
    Except.ok.injEq, exists_eq_left', hconclusion, hruleset, hpure, and_false, exists_false,
    or_false]
  exact or_congr_right (exists_texts_iff hwritable)

theorem exists_mapM_line_iff {members : Members}
    (hwritable : (Value.object members).isWritable = true) {misfit : Misfit} :
    (∃ lines, Value.elementsOr (lookUp? "lines" members) = .ok lines ∧
        lines.mapM Line.ofValue = .error misfit) ↔
      ∃ before line after, (Value.object members).HasElements "lines" (before ++ line :: after) ∧
        (∀ other ∈ before, ∀ misfit, ¬ Line.Fails other misfit) ∧ Line.Fails line misfit := by
  have hsome : ∀ {before after : List Value} {line : Value}, before ++ line :: after ≠ [] := by
    simp
  constructor
  · rintro ⟨lines, hlines, herror⟩
    obtain ⟨before, line, after, rfl, hbefore, hline⟩ := mapM_eq_error_iff.mp herror
    have hitems := Value.isWritable_of_elementsOr hwritable hlines
    refine ⟨before, line, after, (Value.elementsOr_eq_ok_iff hsome).mp hlines, ?_, ?_⟩
    · intro other hother misfit hfails
      have hwritten := hitems other (List.mem_append_left _ hother)
      exact hbefore other hother misfit ((Line.ofValue_eq_error_iff hwritten).mpr hfails)
    · exact (Line.ofValue_eq_error_iff (hitems line (by simp))).mp hline
  · rintro ⟨before, line, after, hlines, hbefore, hline⟩
    have hlines := (Value.elementsOr_eq_ok_iff hsome).mpr hlines
    have hitems := Value.isWritable_of_elementsOr hwritable hlines
    refine ⟨before ++ line :: after, hlines,
      mapM_eq_error_iff.mpr ⟨before, line, after, rfl, ?_, ?_⟩⟩
    · intro other hother misfit herror
      have hwritten := hitems other (List.mem_append_left _ hother)
      exact hbefore other hother misfit ((Line.ofValue_eq_error_iff hwritten).mp herror)
    · exact (Line.ofValue_eq_error_iff (hitems line (by simp))).mpr hline

theorem ofValue_eq_error_iff {value : Value} (hkind : value.kind = .object)
    (hwritable : value.isWritable = true) {misfit : Misfit} :
    ofValue value = .error misfit ↔ Fails value misfit := by
  obtain ⟨members, rfl⟩ := Value.kind_eq_object_iff.mp hkind
  rw [ofValue_object_eq_error_iff hwritable, exists_mapM_line_iff hwritable,
    Value.elementsOr_eq_error_iff, Value.elementsOr_eq_error_iff, Value.exists_elementsOr_iff]
  constructor
  · rintro (⟨kind, hlacks, rfl⟩ | ⟨hpremises, ⟨kind, hlacks, rfl⟩ |
      ⟨before, line, after, hlines, hbefore, hline⟩⟩)
    · exact .premises hlacks
    · exact .lines hpremises hlacks
    · exact .line ⟨hpremises, before, after, hlines, hbefore⟩ hline
  · intro hfails
    cases hfails with
    | premises hlacks => exact Or.inl ⟨_, hlacks, rfl⟩
    | lines hpremises hlacks => exact Or.inr ⟨hpremises, Or.inl ⟨_, hlacks, rfl⟩⟩
    | @line line misfit hmeets hline =>
        obtain ⟨before, after, hlines, hbefore⟩ := hmeets.lines
        exact Or.inr ⟨hmeets.premises, Or.inr ⟨before, line, after, hlines, hbefore, hline⟩⟩

theorem fails_and_not_isPlain_iff {value : Value} {misfit : Misfit} :
    (Fails value misfit ∧ misfit.isPlain = false) ↔ Strays value misfit := by
  constructor
  · rintro ⟨hfails, hplain⟩
    cases hfails with
    | premises hlacks => contradiction
    | lines hpremises hlacks => contradiction
    | line hmeets hline =>
        exact ⟨_, hmeets, Line.fails_and_not_isPlain_iff.mp ⟨hline, hplain⟩⟩
  · rintro ⟨line, hmeets, hstrays⟩
    obtain ⟨hline, hplain⟩ := Line.fails_and_not_isPlain_iff.mpr hstrays
    exact ⟨.line hmeets hline, hplain⟩

end Document

end Deduction
