import Deduction.Formula.Canonical
import Deduction.Formula.Parser
import Deduction.Proofs.Text.Parens
import Mathlib.Data.String.Basic

namespace Deduction.Formula

/-- A letter with letters, digits and underscores after it. -/
def IsIdentifier (name : String) : Prop :=
  ∃ first rest, name.toList = first :: rest ∧ Text.isLetter first = true ∧
    ∀ c ∈ rest, Text.isWordChar c = true

/-- The names of atoms: an identifier, an identifier applied to identifiers, or the mark for what
could not be read. -/
inductive IsAtomName : String → Prop
  | placeholder : IsAtomName "?"
  | identifier {name : String} (hname : IsIdentifier name) : IsAtomName name
  | application {name : String} {arguments : List String} (hname : IsIdentifier name)
      (hsome : arguments ≠ []) (harguments : ∀ argument ∈ arguments, IsIdentifier argument) :
      IsAtomName (applicationName name arguments)

/-- The names of the atoms of a formula, from left to right. -/
def atoms : Formula → List String
  | .atom name => [name]
  | .neg operand => operand.atoms
  | .conj left right => left.atoms ++ right.atoms
  | .disj left right => left.atoms ++ right.atoms
  | .imp left right => left.atoms ++ right.atoms
  | .iff left right => left.atoms ++ right.atoms

inductive Connective
  | negation
  | conjunction
  | disjunction
  | implication
  | equivalence
  deriving DecidableEq, Repr

/-- The connectives of a formula, an outer one before those of its operands. -/
def connectives : Formula → List Connective
  | .atom _ => []
  | .neg operand => .negation :: operand.connectives
  | .conj left right => .conjunction :: (left.connectives ++ right.connectives)
  | .disj left right => .disjunction :: (left.connectives ++ right.connectives)
  | .imp left right => .implication :: (left.connectives ++ right.connectives)
  | .iff left right => .equivalence :: (left.connectives ++ right.connectives)

/-- Every atom is named as reading names atoms. -/
def IsNamed (formula : Formula) : Prop :=
  ∀ name ∈ formula.atoms, IsAtomName name

theorem isWordChar_ne_paren {c : Char} (hword : Text.isWordChar c = true) :
    c ≠ '(' ∧ c ≠ ')' := by
  constructor <;> rintro rfl <;> revert hword <;> decide

theorem IsIdentifier.isWordChar {name : String} (hname : IsIdentifier name) {c : Char}
    (hc : c ∈ name.toList) : Text.isWordChar c = true := by
  obtain ⟨first, rest, heq, hfirst, hrest⟩ := hname
  rw [heq] at hc
  rcases List.mem_cons.mp hc with rfl | hc
  · exact Text.isWordChar_of_isLetter hfirst
  · exact hrest c hc

theorem IsIdentifier.isBalanced {name : String} (hname : IsIdentifier name) :
    Text.isBalanced name.toList = true :=
  Text.isBalanced_of_no_parens fun _ hc => isWordChar_ne_paren (hname.isWordChar hc)

theorem isBalanced_arguments {arguments : List String}
    (harguments : ∀ argument ∈ arguments, IsIdentifier argument) :
    Text.isBalanced (",".intercalate arguments).toList = true := by
  induction arguments with
  | nil => rfl
  | cons argument rest ih =>
      have hargument := (harguments argument (List.mem_cons_self ..)).isBalanced
      have hrest := ih fun other hother => harguments other (List.mem_cons_of_mem _ hother)
      cases rest with
      | nil => simpa using hargument
      | cons next rest =>
          rw [String.intercalate_cons_cons, String.toList_append, String.toList_append]
          exact Text.isBalanced_append (Text.isBalanced_append hargument rfl) hrest

theorem IsAtomName.isBalanced {name : String} (hname : IsAtomName name) :
    Text.isBalanced name.toList = true := by
  cases hname with
  | placeholder => rfl
  | identifier hname => exact hname.isBalanced
  | application hname _ harguments =>
      rw [applicationName, String.append_assoc, String.append_assoc, String.toList_append,
        String.toList_append, String.toList_append]
      exact Text.isBalanced_append hname.isBalanced
        (Text.isBalanced_parenthesized (isBalanced_arguments harguments))

theorem isNamed_neg {operand : Formula} : IsNamed (.neg operand) ↔ IsNamed operand := Iff.rfl

theorem isNamed_conj {left right : Formula} :
    IsNamed (.conj left right) ↔ IsNamed left ∧ IsNamed right := by
  simp [IsNamed, atoms, or_imp, forall_and]

theorem isNamed_disj {left right : Formula} :
    IsNamed (.disj left right) ↔ IsNamed left ∧ IsNamed right := isNamed_conj

theorem isNamed_imp {left right : Formula} :
    IsNamed (.imp left right) ↔ IsNamed left ∧ IsNamed right := isNamed_conj

theorem isNamed_iff {left right : Formula} :
    IsNamed (.iff left right) ↔ IsNamed left ∧ IsNamed right := isNamed_conj

/-- The keys of two operands with a mark between them, each in parentheses. -/
def pairedKeys (mark left right : List Char) : List Char :=
  '(' :: (left ++ ')' :: (mark ++ '(' :: (right ++ [')'])))

theorem isBalanced_pairedKeys {mark left right : List Char}
    (hmark : Text.isBalanced mark = true) (hleft : Text.isBalanced left = true)
    (hright : Text.isBalanced right = true) :
    Text.isBalanced (pairedKeys mark left right) = true := by
  have hparts := Text.isBalanced_append (Text.isBalanced_parenthesized hleft)
    (Text.isBalanced_append hmark (Text.isBalanced_parenthesized hright))
  simpa [pairedKeys] using hparts

theorem pairedKeys_inj {mark left right left' right' : List Char}
    (hleft : Text.isBalanced left = true) (hright : Text.isBalanced right = true)
    (hleft' : Text.isBalanced left' = true) (hright' : Text.isBalanced right' = true)
    (heq : pairedKeys mark left right = pairedKeys mark left' right') :
    left = left' ∧ right = right' := by
  obtain ⟨hfirst, hrest⟩ := Text.balancedFrom_close_unique hleft hleft' (List.cons.inj heq).2
  have hsecond := (List.cons.inj (List.append_cancel_left hrest)).2
  exact ⟨hfirst, (Text.balancedFrom_close_unique hright hright' hsecond).1⟩

@[simp] theorem toList_key_atom (name : String) :
    (key (.atom name)).toList = 'v' :: ':' :: name.toList := by
  change ("v:" ++ name).toList = _
  simp

@[simp] theorem toList_key_neg (operand : Formula) :
    (key (.neg operand)).toList = 'n' :: ':' :: '(' :: (operand.key.toList ++ [')']) := by
  change ("n:(" ++ operand.key ++ ")").toList = _
  simp

@[simp] theorem toList_key_conj (left right : Formula) :
    (key (.conj left right)).toList =
      'a' :: ':' :: pairedKeys [','] left.key.toList right.key.toList := by
  change ("a:(" ++ left.key ++ "),(" ++ right.key ++ ")").toList = _
  simp [pairedKeys]

@[simp] theorem toList_key_disj (left right : Formula) :
    (key (.disj left right)).toList =
      'o' :: ':' :: pairedKeys [','] left.key.toList right.key.toList := by
  change ("o:(" ++ left.key ++ "),(" ++ right.key ++ ")").toList = _
  simp [pairedKeys]

@[simp] theorem toList_key_imp (left right : Formula) :
    (key (.imp left right)).toList =
      'i' :: ':' :: pairedKeys ['-', '>'] left.key.toList right.key.toList := by
  change ("i:(" ++ left.key ++ ")->(" ++ right.key ++ ")").toList = _
  simp [pairedKeys]

@[simp] theorem toList_key_iff (left right : Formula) :
    (key (.iff left right)).toList =
      'b' :: ':' :: pairedKeys ['<', '-', '>'] left.key.toList right.key.toList := by
  change ("b:(" ++ left.key ++ ")<->(" ++ right.key ++ ")").toList = _
  simp [pairedKeys]

theorem isBalanced_key {formula : Formula} (hnamed : IsNamed formula) :
    Text.isBalanced formula.key.toList = true := by
  induction formula with
  | atom name =>
      rw [toList_key_atom]
      exact (hnamed name (List.mem_cons_self ..)).isBalanced
  | neg operand ih =>
      rw [toList_key_neg]
      exact Text.isBalanced_parenthesized (ih hnamed)
  | conj left right ihLeft ihRight =>
      obtain ⟨hleft, hright⟩ := isNamed_conj.mp hnamed
      rw [toList_key_conj]
      exact isBalanced_pairedKeys rfl (ihLeft hleft) (ihRight hright)
  | disj left right ihLeft ihRight =>
      obtain ⟨hleft, hright⟩ := isNamed_disj.mp hnamed
      rw [toList_key_disj]
      exact isBalanced_pairedKeys rfl (ihLeft hleft) (ihRight hright)
  | imp left right ihLeft ihRight =>
      obtain ⟨hleft, hright⟩ := isNamed_imp.mp hnamed
      rw [toList_key_imp]
      exact isBalanced_pairedKeys rfl (ihLeft hleft) (ihRight hright)
  | iff left right ihLeft ihRight =>
      obtain ⟨hleft, hright⟩ := isNamed_iff.mp hnamed
      rw [toList_key_iff]
      exact isBalanced_pairedKeys rfl (ihLeft hleft) (ihRight hright)

theorem operands_eq_of_pairedKeys {mark : List Char} {left right left' right' : Formula}
    (hnamed : IsNamed left ∧ IsNamed right) (hnamed' : IsNamed left' ∧ IsNamed right')
    (hleft : ∀ {other}, IsNamed left → IsNamed other →
      left.key.toList = other.key.toList → left = other)
    (hright : ∀ {other}, IsNamed right → IsNamed other →
      right.key.toList = other.key.toList → right = other)
    (heq : pairedKeys mark left.key.toList right.key.toList =
      pairedKeys mark left'.key.toList right'.key.toList) :
    left = left' ∧ right = right' := by
  obtain ⟨hkeyLeft, hkeyRight⟩ := pairedKeys_inj (isBalanced_key hnamed.1)
    (isBalanced_key hnamed.2) (isBalanced_key hnamed'.1) (isBalanced_key hnamed'.2) heq
  exact ⟨hleft hnamed.1 hnamed'.1 hkeyLeft, hright hnamed.2 hnamed'.2 hkeyRight⟩

theorem eq_of_toList_key_eq {first second : Formula} (hfirst : IsNamed first)
    (hsecond : IsNamed second) (hlist : first.key.toList = second.key.toList) :
    first = second := by
  induction first generalizing second with
  | atom name =>
      cases second with
      | atom name' =>
          rw [toList_key_atom, toList_key_atom] at hlist
          rw [String.toList_inj.mp (List.cons.inj (List.cons.inj hlist).2).2]
      | _ => simp at hlist
  | neg operand ih =>
      cases second with
      | neg operand' =>
          rw [toList_key_neg, toList_key_neg] at hlist
          have htails := (List.cons.inj (List.cons.inj (List.cons.inj hlist).2).2).2
          rw [ih (isNamed_neg.mp hfirst) (isNamed_neg.mp hsecond)
            (List.append_cancel_right htails)]
      | _ => simp at hlist
  | conj left right ihLeft ihRight =>
      cases second with
      | conj left' right' =>
          rw [toList_key_conj, toList_key_conj] at hlist
          obtain ⟨rfl, rfl⟩ := operands_eq_of_pairedKeys (isNamed_conj.mp hfirst)
            (isNamed_conj.mp hsecond) ihLeft ihRight (List.cons.inj (List.cons.inj hlist).2).2
          rfl
      | _ => simp at hlist
  | disj left right ihLeft ihRight =>
      cases second with
      | disj left' right' =>
          rw [toList_key_disj, toList_key_disj] at hlist
          obtain ⟨rfl, rfl⟩ := operands_eq_of_pairedKeys (isNamed_disj.mp hfirst)
            (isNamed_disj.mp hsecond) ihLeft ihRight (List.cons.inj (List.cons.inj hlist).2).2
          rfl
      | _ => simp at hlist
  | imp left right ihLeft ihRight =>
      cases second with
      | imp left' right' =>
          rw [toList_key_imp, toList_key_imp] at hlist
          obtain ⟨rfl, rfl⟩ := operands_eq_of_pairedKeys (isNamed_imp.mp hfirst)
            (isNamed_imp.mp hsecond) ihLeft ihRight (List.cons.inj (List.cons.inj hlist).2).2
          rfl
      | _ => simp at hlist
  | iff left right ihLeft ihRight =>
      cases second with
      | iff left' right' =>
          rw [toList_key_iff, toList_key_iff] at hlist
          obtain ⟨rfl, rfl⟩ := operands_eq_of_pairedKeys (isNamed_iff.mp hfirst)
            (isNamed_iff.mp hsecond) ihLeft ihRight (List.cons.inj (List.cons.inj hlist).2).2
          rfl
      | _ => simp at hlist

theorem key_injective {first second : Formula} (hfirst : IsNamed first)
    (hsecond : IsNamed second) (hkey : first.key = second.key) : first = second :=
  eq_of_toList_key_eq hfirst hsecond (congrArg String.toList hkey)

end Deduction.Formula
