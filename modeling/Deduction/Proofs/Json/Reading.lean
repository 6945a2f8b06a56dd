import Deduction.Json.Reader
import Deduction.Proofs.Except
import Deduction.Proofs.Value.Reading
import Mathlib.Data.List.Induction

namespace Deduction.Json

section Numbers

theorem digit_lt {c : Char} (hc : isDigit c = true) : c.toNat - '0'.toNat < 10 := by
  simp only [isDigit, Bool.and_eq_true, decide_eq_true_eq] at hc
  have hlast : c.toNat ≤ '9'.toNat := hc.2
  have hnine : '9'.toNat = 57 := rfl
  have hzero : '0'.toNat = 48 := rfl
  omega

theorem decimal_append_singleton (digits : List Char) (c : Char) :
    decimal (digits ++ [c]) = 10 * decimal digits + (c.toNat - '0'.toNat) := by
  rw [decimal, List.foldl_append]
  rfl

theorem decimal_lt {digits : List Char} (hdigits : ∀ c ∈ digits, isDigit c = true) :
    decimal digits < Nat.pow 10 digits.length := by
  induction digits using List.reverseRecOn with
  | nil => decide
  | append_singleton digits c ih =>
      rw [List.forall_mem_append, List.forall_mem_singleton] at hdigits
      have hdigit := digit_lt hdigits.2
      have hothers := ih hdigits.1
      have hpower : Nat.pow 10 (digits.length + 1) = Nat.pow 10 digits.length * 10 := rfl
      rw [decimal_append_singleton, List.length_append, List.length_singleton, hpower]
      omega

theorem forall_isDigit_wholeDigits (text : List Char) :
    ∀ c ∈ wholeDigits text, isDigit c = true := by
  intro c hc
  unfold wholeDigits at hc
  split at hc
  · obtain rfl := List.mem_singleton.mp hc
    decide
  · exact List.all_eq_true.mp List.all_takeWhile c hc

theorem isWritable_decimal {digits : List Char} (hdigits : ∀ c ∈ digits, isDigit c = true)
    (hlimit : ¬ digitLimit < digits.length) (negative : Bool) :
    Deduction.isWritable (if negative then -(decimal digits : Int) else decimal digits) = true := by
  have hpower : ∀ {count limit : Nat}, count ≤ limit → Nat.pow 10 count ≤ Nat.pow 10 limit :=
    Nat.pow_le_pow_right (by decide)
  have hbound : decimal digits < Nat.pow 10 digitLimit :=
    Nat.lt_of_lt_of_le (decimal_lt hdigits) (hpower (Nat.le_of_not_lt hlimit))
  unfold Deduction.isWritable
  apply decide_eq_true
  cases negative with
  | false => rwa [if_neg Bool.false_ne_true, Int.natAbs_natCast]
  | true => rwa [if_pos rfl, Int.natAbs_neg, Int.natAbs_natCast]

theorem isWritable_of_readNumber {cursor next : Cursor} {value : Value}
    (hread : readNumber cursor = .ok (value, next)) : value.isWritable = true := by
  unfold readNumber at hread
  extract_lets negative signLength unsigned whole afterWhole fraction fractionLength at hread
  split at hread
  · contradiction
  · split at hread
    dsimp only at hread
    split at hread
    · split at hread
      · contradiction
      · rename_i hlimit
        obtain ⟨rfl, -⟩ := Prod.mk.inj (Except.ok.inj hread)
        exact isWritable_decimal (forall_isDigit_wholeDigits unsigned) hlimit negative
    · obtain ⟨rfl, -⟩ := Prod.mk.inj (Except.ok.inj hread)
      rfl

end Numbers

theorem isWritable_of_readPlain {cursor next : Cursor} {value : Value}
    (hread : readPlain cursor = .ok (value, next)) : value.isWritable = true := by
  have hwords : (words.all fun word => word.2.isWritable) = true := by rfl
  unfold readPlain at hread
  split at hread
  · rename_i word found hfind
    obtain ⟨rfl, -⟩ := Prod.mk.inj (Except.ok.inj hread)
    exact List.all_eq_true.mp hwords _ (List.mem_of_find?_eq_some hfind)
  · exact isWritable_of_readNumber hread

theorem isWritable_ofMembers {members : Members}
    (hmembers : (Value.object members).isWritable = true) :
    (Value.ofMembers members).isWritable = true := by
  have hfold : ∀ held : Members, (Value.object held).isWritable = true →
      (Value.object (members.foldl (fun held member => Value.setMember member.1 member.2 held)
        held)).isWritable = true := by
    rw [Value.isWritable_object] at hmembers
    induction members with
    | nil => exact fun _ hheld => hheld
    | cons member rest ih =>
        rw [List.forall_mem_cons] at hmembers
        intro held hheld
        exact ih hmembers.2 _ (Value.isWritable_setMember hheld hmembers.1.1 hmembers.1.2)
  exact hfold [] rfl

/-- What the readers make with so much fuel can be written. They call each other with less fuel, so
they are taken together. -/
structure WritableWithin (standIn : Option Char) (fuel : Nat) : Prop where
  value : ∀ {cursor value next}, readValue standIn fuel cursor = .ok (value, next) →
    value.isWritable = true
  items : ∀ {cursor items next}, readItems standIn fuel cursor = .ok (items, next) →
    (Value.list items).isWritable = true
  members : ∀ {cursor members next}, readMembers standIn fuel cursor = .ok (members, next) →
    (Value.object members).isWritable = true

section Steps

variable {standIn : Option Char} {fuel : Nat} (hfuel : WritableWithin standIn fuel)
  {cursor next : Cursor}

include hfuel

theorem isWritable_of_readValue {value : Value}
    (hread : readValue standIn (fuel + 1) cursor = .ok (value, next)) : value.isWritable = true := by
  unfold readValue at hread
  split at hread
  · obtain ⟨found, -, hread⟩ := exists_of_bind_eq_ok hread
    cases hread
    rfl
  · dsimp only at hread
    split at hread
    · cases hread
      rfl
    · obtain ⟨⟨items, after⟩, hitems, hread⟩ := exists_of_bind_eq_ok hread
      cases hread
      exact hfuel.items hitems
  · dsimp only at hread
    split at hread
    · cases hread
      rfl
    · obtain ⟨⟨members, after⟩, hmembers, hread⟩ := exists_of_bind_eq_ok hread
      cases hread
      exact isWritable_ofMembers (hfuel.members hmembers)
  · exact isWritable_of_readPlain hread

theorem isWritable_of_readItems {items : List Value}
    (hread : readItems standIn (fuel + 1) cursor = .ok (items, next)) :
    (Value.list items).isWritable = true := by
  unfold readItems at hread
  obtain ⟨⟨item, after⟩, hitem, hread⟩ := exists_of_bind_eq_ok hread
  have hfirst := hfuel.value hitem
  dsimp only at hread
  split at hread
  · cases hread
    rw [Value.isWritable_list, List.forall_mem_singleton]
    exact hfirst
  · obtain ⟨⟨others, last⟩, hothers, hread⟩ := exists_of_bind_eq_ok hread
    cases hread
    rw [Value.isWritable_list, List.forall_mem_cons]
    exact ⟨hfirst, Value.isWritable_list.mp (hfuel.items hothers)⟩
  · contradiction

theorem isWritable_of_readMembers {members : Members}
    (hread : readMembers standIn (fuel + 1) cursor = .ok (members, next)) :
    (Value.object members).isWritable = true := by
  unfold readMembers at hread
  split at hread
  · obtain ⟨⟨chars, named⟩, -, hread⟩ := exists_of_bind_eq_ok hread
    dsimp only at hread
    split at hread
    · obtain ⟨⟨value, after⟩, hvalue, hread⟩ := exists_of_bind_eq_ok hread
      have hfirst := hfuel.value hvalue
      dsimp only at hread
      split at hread
      · cases hread
        rw [Value.isWritable_object, List.forall_mem_singleton]
        exact ⟨rfl, hfirst⟩
      · obtain ⟨⟨others, last⟩, hothers, hread⟩ := exists_of_bind_eq_ok hread
        cases hread
        rw [Value.isWritable_object, List.forall_mem_cons]
        exact ⟨⟨rfl, hfirst⟩, Value.isWritable_object.mp (hfuel.members hothers)⟩
      · contradiction
    · contradiction
  · contradiction

end Steps

theorem writableWithin (standIn : Option Char) (fuel : Nat) : WritableWithin standIn fuel := by
  induction fuel with
  | zero => exact ⟨nofun, nofun, nofun⟩
  | succ fuel ih =>
      exact ⟨isWritable_of_readValue ih, isWritable_of_readItems ih, isWritable_of_readMembers ih⟩

theorem isWritable_of_readAll {standIn : Option Char} {text : List Char} {value : Value}
    (hread : readAll standIn text = .ok value) : value.isWritable = true := by
  unfold readAll at hread
  split at hread
  · contradiction
  · obtain ⟨⟨found, next⟩, hfound, hread⟩ := exists_of_bind_eq_ok hread
    dsimp only at hread
    split at hread
    · obtain rfl := Except.ok.inj hread
      exact (writableWithin standIn _).value hfound
    · contradiction

/-- A value that is read from a text can be written. -/
theorem isWritable_of_read {text : String} {value : Value} (hread : read text = .ok value) :
    value.isWritable = true := by
  unfold read at hread
  split at hread
  · rename_i found hall
    obtain rfl := Except.ok.inj hread
    exact isWritable_of_readAll hall
  · contradiction

section StandIns

variable {standIn : Char}

theorem map_unitChar_of_paired {α : Type} {wrap : Char → α} {position unit : Nat} {found : α}
    (hread : wrap <$> unitChar none position unit = .ok found) :
    wrap <$> unitChar (some standIn) position unit = .ok found := by
  unfold unitChar at hread ⊢
  split at hread
  · contradiction
  · rename_i hother
    rwa [if_neg hother]

theorem readUnit_of_paired {position : Nat} {text : List Char} {found : Char × Nat}
    (hread : readUnit none position text = .ok found) :
    readUnit (some standIn) position text = .ok found := by
  unfold readUnit at hread ⊢
  split at hread
  · contradiction
  · split at hread
    · split at hread
      · rename_i hshort
        rw [if_pos hshort]
        exact map_unitChar_of_paired hread
      · rename_i hlong
        rw [if_neg hlong]
        split at hread
        · contradiction
        · split at hread
          · rename_i hpair
            rwa [if_pos hpair]
          · rename_i hpair
            rw [if_neg hpair]
            exact map_unitChar_of_paired hread
    · exact map_unitChar_of_paired hread

theorem readEscape_of_paired {opening position : Nat} {text : List Char} {found : Char × Nat}
    (hread : readEscape none opening position text = .ok found) :
    readEscape (some standIn) opening position text = .ok found := by
  unfold readEscape at hread ⊢
  split at hread
  · contradiction
  · exact readUnit_of_paired hread
  · exact hread

theorem readText_of_paired {opening skip position : Nat} {text : List Char}
    {found : List Char × Cursor} (hread : readText none opening skip position text = .ok found) :
    readText (some standIn) opening skip position text = .ok found := by
  induction text generalizing skip position found with
  | nil => cases hread
  | cons c rest ih =>
      cases skip with
      | succ skip => exact ih hread
      | zero =>
          rw [readText] at hread ⊢
          split at hread
          · rename_i hclose
            rwa [if_pos hclose]
          · rename_i hclose
            rw [if_neg hclose]
            split at hread
            · rename_i hescape
              rw [if_pos hescape]
              obtain ⟨⟨char, length⟩, hchar, hread⟩ := exists_of_bind_eq_ok hread
              obtain ⟨chars, hchars, hread⟩ := exists_of_bind_eq_ok hread
              rw [readEscape_of_paired hchar, ok_bind]
              dsimp only
              rw [ih hchars]
              exact hread
            · rename_i hescape
              rw [if_neg hescape]
              split at hread
              · contradiction
              · rename_i hcontrol
                rw [if_neg hcontrol]
                obtain ⟨chars, hchars, hread⟩ := exists_of_bind_eq_ok hread
                rw [ih hchars, ok_bind]
                exact hread

/-- What is read without a stand-in is read with one, with so much fuel. -/
structure PairedWithin (standIn : Char) (fuel : Nat) : Prop where
  value : ∀ {cursor found}, readValue none fuel cursor = .ok found →
    readValue (some standIn) fuel cursor = .ok found
  items : ∀ {cursor found}, readItems none fuel cursor = .ok found →
    readItems (some standIn) fuel cursor = .ok found
  members : ∀ {cursor found}, readMembers none fuel cursor = .ok found →
    readMembers (some standIn) fuel cursor = .ok found

namespace PairedWithin

variable {fuel : Nat} (hfuel : PairedWithin standIn fuel) {cursor : Cursor}

include hfuel

theorem value_succ {found : Value × Cursor} (hread : readValue none (fuel + 1) cursor = .ok found) :
    readValue (some standIn) (fuel + 1) cursor = .ok found := by
  unfold readValue at hread ⊢
  split at hread
  · obtain ⟨chars, hchars, hread⟩ := exists_of_bind_eq_ok hread
    rw [readText_of_paired hchars, ok_bind]
    exact hread
  · dsimp only at hread ⊢
    split at hread
    · exact hread
    · obtain ⟨items, hitems, hread⟩ := exists_of_bind_eq_ok hread
      rw [hfuel.items hitems, ok_bind]
      exact hread
  · dsimp only at hread ⊢
    split at hread
    · exact hread
    · obtain ⟨members, hmembers, hread⟩ := exists_of_bind_eq_ok hread
      rw [hfuel.members hmembers, ok_bind]
      exact hread
  · exact hread

theorem items_succ {found : List Value × Cursor}
    (hread : readItems none (fuel + 1) cursor = .ok found) :
    readItems (some standIn) (fuel + 1) cursor = .ok found := by
  unfold readItems at hread ⊢
  obtain ⟨⟨item, next⟩, hitem, hread⟩ := exists_of_bind_eq_ok hread
  rw [hfuel.value hitem, ok_bind]
  dsimp only at hread ⊢
  split at hread
  · exact hread
  · obtain ⟨items, hitems, hread⟩ := exists_of_bind_eq_ok hread
    rw [hfuel.items hitems, ok_bind]
    exact hread
  · contradiction

theorem members_succ {found : Members × Cursor}
    (hread : readMembers none (fuel + 1) cursor = .ok found) :
    readMembers (some standIn) (fuel + 1) cursor = .ok found := by
  unfold readMembers at hread ⊢
  split at hread
  · obtain ⟨⟨chars, named⟩, hchars, hread⟩ := exists_of_bind_eq_ok hread
    rw [readText_of_paired hchars, ok_bind]
    dsimp only at hread ⊢
    split at hread
    · obtain ⟨⟨value, next⟩, hvalue, hread⟩ := exists_of_bind_eq_ok hread
      rw [hfuel.value hvalue, ok_bind]
      dsimp only at hread ⊢
      split at hread
      · exact hread
      · obtain ⟨members, hmembers, hread⟩ := exists_of_bind_eq_ok hread
        rw [hfuel.members hmembers, ok_bind]
        exact hread
      · contradiction
    · contradiction
  · contradiction

end PairedWithin

theorem pairedWithin (standIn : Char) (fuel : Nat) : PairedWithin standIn fuel := by
  induction fuel with
  | zero => exact ⟨nofun, nofun, nofun⟩
  | succ fuel ih => exact ⟨ih.value_succ, ih.items_succ, ih.members_succ⟩

theorem readAll_of_paired {text : List Char} {value : Value} (hread : readAll none text = .ok value) :
    readAll (some standIn) text = .ok value := by
  unfold readAll at hread ⊢
  split at hread
  · contradiction
  · rename_i hmark
    obtain ⟨found, hfound, hread⟩ := exists_of_bind_eq_ok hread
    rw [if_neg hmark, (pairedWithin standIn _).value hfound, ok_bind]
    exact hread

end StandIns

/-- A text that needs no stand-in is read as the value that it holds. -/
theorem read_of_value? {text : String} {value : Value} (hvalue : value? text = some value) :
    read text = .ok value := by
  have hall : readAll none text.toList = .ok value := eq_ok_of_toOption hvalue
  rw [read, readAll_of_paired hall]

theorem value?_of_read {text : String} {value : Value} (hread : read text = .ok value)
    (hpaired : hasLoneSurrogate text = false) : value? text = some value := by
  cases hvalue : value? text with
  | none => simp [hasLoneSurrogate, hread, hvalue, Except.toOption] at hpaired
  | some found =>
      have hfound := read_of_value? hvalue
      rw [Except.ok.inj (hfound.symm.trans hread)]

end Deduction.Json
