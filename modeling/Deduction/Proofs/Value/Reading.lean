import Deduction.Value.Reading
import Deduction.Proofs.Number.Range

namespace Deduction

open Value (lookUp?)

namespace Binary64

def isPositive : Binary64 → Bool
  | .nan => false
  | .infinite negative => !negative
  | .finite negative significand _ => !negative && significand != 0

theorem isPositive_or_eq_nan {x : Binary64} (hx : x.isNonpositive = false) :
    x.isPositive = true ∨ x = .nan := by
  cases x with
  | nan => exact Or.inr rfl
  | infinite negative => exact Or.inl (by simpa [isNonpositive, isPositive] using hx)
  | finite negative significand exponent =>
      exact Or.inl (by simpa [isNonpositive, isPositive] using hx)

end Binary64

theorem isPlain_of_integerOfText {text : String} {misfit : Misfit}
    (herror : integerOfText text = .error misfit) :
    misfit.isPlain = true := by
  simp only [integerOfText] at herror
  split at herror
  · cases herror
    rfl
  · split at herror
    · cases herror
      rfl
    · split at herror <;> cases herror
      rfl

theorem Value.isPlain_of_ofNumeral {α : Type} {unfit misfit : Misfit} {numeral : Numeral α}
    (hunfit : unfit.isPlain = true) (herror : ofNumeral unfit numeral = .error misfit) :
    misfit.isPlain = true := by
  cases numeral with
  | number value => cases herror
  | misspelt message =>
      cases herror
      rfl
  | unfit =>
      cases herror
      exact hunfit

namespace Value

/-- A value is an object that has the member under the key. -/
def HasMember (value : Value) (key : String) (member : Value) : Prop :=
  ∃ members, value = .object members ∧ lookUp? key members = some member

/-- A member of an object is an object that has the setting under the key. -/
def HasSetting (value : Value) (name key : String) (setting : Value) : Prop :=
  ∃ inner, value.HasMember name inner ∧ inner.HasMember key setting

@[simp]
theorem hasMember_object {members : Members} {key : String} {member : Value} :
    (object members).HasMember key member ↔ lookUp? key members = some member := by
  simp [HasMember]

@[simp]
theorem not_hasMember_scalar {scalar : Scalar} {key : String} {member : Value} :
    ¬ (Value.scalar scalar).HasMember key member := by
  simp [HasMember]

@[simp]
theorem not_hasSetting_scalar {scalar : Scalar} {name key : String} {setting : Value} :
    ¬ (Value.scalar scalar).HasSetting name key setting := by
  simp [HasSetting]

theorem kind_eq_text_iff {value : Value} :
    value.kind = .text ↔ ∃ text, value = .text text := by
  rcases value with scalar | _ | _
  · cases scalar <;> simp [kind, Scalar.kind]
  · simp [kind]
  · simp [kind]

theorem kind_eq_object_iff {value : Value} :
    value.kind = .object ↔ ∃ members, value = .object members := by
  rcases value with scalar | _ | _
  · cases scalar <;> simp [kind, Scalar.kind]
  · simp [kind]
  · simp [kind]

theorem toInteger_eq_error_iff {value : Value} {misfit : Misfit} :
    (value.toInteger = .error misfit ∧ misfit.isPlain = false) ↔
      (∃ negative, value = .real (.infinite negative)) ∧ Misfit.infiniteInteger = misfit := by
  constructor
  · rintro ⟨herror, hplain⟩
    unfold toInteger at herror
    split at herror
    · cases herror
    · cases herror
    · cases herror
      cases hplain
    · cases herror
      exact ⟨⟨_, rfl⟩, rfl⟩
    · cases herror
    · rw [isPlain_of_integerOfText herror] at hplain
      cases hplain
    · rw [isPlain_of_ofNumeral rfl herror] at hplain
      cases hplain
    · cases herror
      cases hplain
  · rintro ⟨⟨negative, rfl⟩, rfl⟩
    exact ⟨rfl, rfl⟩

theorem realOfInt_eq_error_iff {n : Int} {misfit : Misfit} :
    realOfInt n = .error misfit ↔
      Binary64.leastInfinite ≤ n.natAbs ∧ Misfit.integerTooLarge = misfit := by
  rw [← Binary64.exists_ofInt_eq_infinite_iff, realOfInt]
  cases Binary64.ofInt n <;> simp

theorem toReal_eq_error_iff {value : Value} {misfit : Misfit} :
    (value.toReal = .error misfit ∧ misfit.isPlain = false) ↔
      (∃ n, value = .int n ∧ Binary64.leastInfinite ≤ n.natAbs) ∧
        Misfit.integerTooLarge = misfit := by
  constructor
  · rintro ⟨herror, hplain⟩
    unfold toReal at herror
    split at herror
    · cases herror
    · obtain ⟨hlarge, hmisfit⟩ := realOfInt_eq_error_iff.mp herror
      exact ⟨⟨_, rfl, hlarge⟩, hmisfit⟩
    · rename_i truth
      have hlarge := (realOfInt_eq_error_iff.mp herror).1
      have hsmall : ¬ Binary64.leastInfinite ≤ 1 := by decide +kernel
      cases truth with
      | true => exact absurd hlarge hsmall
      | false => exact absurd (Nat.le_trans hlarge (Nat.zero_le 1)) hsmall
    · split at herror <;> cases herror
      cases hplain
    · rw [isPlain_of_ofNumeral rfl herror] at hplain
      cases hplain
    · cases herror
      cases hplain
  · rintro ⟨⟨n, rfl, hlarge⟩, rfl⟩
    exact ⟨realOfInt_eq_error_iff.mpr ⟨hlarge, rfl⟩, rfl⟩

section Writable

theorem isWritable_list {items : List Value} :
    (list items).isWritable = true ↔ ∀ item ∈ items, item.isWritable = true := by
  rw [isWritable]
  induction items with
  | nil => simp [areWritable]
  | cons item rest ih => simp [areWritable, ih]

theorem isWritable_object {members : Members} :
    (object members).isWritable = true ↔
      ∀ member ∈ members, member.1.isWritable = true ∧ member.2.isWritable = true := by
  rw [isWritable]
  induction members with
  | nil => simp [membersWritable]
  | cons member rest ih => simp [membersWritable, ih]

theorem isWritable_setMember {members : Members} {key : Scalar} {value : Value}
    (hmembers : (object members).isWritable = true) (hkey : key.isWritable = true)
    (hvalue : value.isWritable = true) :
    (object (setMember key value members)).isWritable = true := by
  rw [isWritable_object] at hmembers ⊢
  induction members with
  | nil => simpa [setMember] using ⟨hkey, hvalue⟩
  | cons member rest ih =>
      rw [List.forall_mem_cons] at hmembers
      rw [setMember]
      split
      · exact List.forall_mem_cons.mpr ⟨⟨hmembers.1.1, hvalue⟩, hmembers.2⟩
      · exact List.forall_mem_cons.mpr ⟨hmembers.1, ih hmembers.2⟩

theorem isWritable_of_lookUp? {members : Members} {key : String} {member : Value}
    (hmembers : (object members).isWritable = true) (hmember : lookUp? key members = some member) :
    member.isWritable = true := by
  obtain ⟨entry, hfind, rfl⟩ := Option.map_eq_some_iff.mp hmember
  exact (isWritable_object.mp hmembers entry (List.mem_of_find?_eq_some hfind)).2

theorem isWritable_of_elements {value : Value} {items : List Value}
    (hvalue : value.isWritable = true) (hitems : value.elements = .ok items) :
    ∀ item ∈ items, item.isWritable = true := by
  unfold elements at hitems
  split at hitems
  · obtain rfl := Except.ok.inj hitems
    exact isWritable_list.mp hvalue
  · obtain rfl := Except.ok.inj hitems
    intro item hitem
    obtain ⟨c, -, rfl⟩ := List.mem_map.mp hitem
    rfl
  · obtain rfl := Except.ok.inj hitems
    intro item hitem
    obtain ⟨member, hmember, rfl⟩ := List.mem_map.mp hitem
    exact (isWritable_object.mp hvalue member hmember).1
  · split at hitems
    · obtain rfl := Except.ok.inj hitems
      intro item hitem
      obtain ⟨entry, -, rfl⟩ := List.mem_map.mp hitem
      rfl
    · contradiction
  · contradiction

theorem exists_fieldText {value : Value} (hvalue : value.isWritable = true) :
    ∃ text, value.fieldText = .ok text := by
  unfold fieldText
  split
  · exact ⟨_, rfl⟩
  · exact ⟨value.display, by rw [displayed, if_pos hvalue]⟩

end Writable

end Value

end Deduction
