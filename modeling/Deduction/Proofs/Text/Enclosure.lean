import Deduction.Proofs.Text.Parens
import Mathlib.Logic.Relation

/-!
What is left of a text without the parentheses around it.

The parentheses are taken off in rounds, one pair in each, until none enclose the rest. This ends
for every text, and another attempt changes nothing. A balanced text has one core, a balanced text
in no pair of its own that the text is made of by putting pairs around it, and the rounds find it.
-/

namespace Deduction.Text

/-- A text in so many pairs of parentheses. -/
def enclose : Nat → List Char → List Char
  | 0, text => text
  | pairs + 1, text => '(' :: (enclose pairs text ++ [')'])

/-- A balanced text that no pair of parentheses encloses as a whole. -/
structure IsCore (text : List Char) : Prop where
  balanced : isBalanced text = true
  bare : ∀ inner, isBalanced inner = true → text ≠ '(' :: (inner ++ [')'])

/-- One round: the parentheses that enclose a text are taken off. -/
def Peels (text next : List Char) : Prop :=
  isEnclosed text = true ∧ next = text.tail.dropLast

theorem eq_parenthesized_of_isEnclosed {text : List Char} (henclosed : isEnclosed text = true) :
    text = '(' :: (text.tail.dropLast ++ [')']) := by
  simp only [isEnclosed, Bool.and_eq_true, beq_iff_eq] at henclosed
  obtain ⟨⟨hhead, hlast⟩, -⟩ := henclosed
  obtain ⟨rest, rfl⟩ := List.head?_eq_some_iff.mp hhead
  cases rest with
  | nil => simp at hlast
  | cons c rest =>
      rw [List.getLast?_cons_cons] at hlast
      obtain ⟨inner, hinner⟩ := List.getLast?_eq_some_iff.mp hlast
      rw [hinner, List.tail_cons, List.dropLast_concat]

theorem isBalanced_of_isEnclosed {inner : List Char}
    (henclosed : isEnclosed ('(' :: (inner ++ [')'])) = true)
    (hbalanced : isBalanced ('(' :: (inner ++ [')'])) = true) : isBalanced inner = true := by
  have hopened : balancedFrom (0 + 1 + 0) (inner ++ [')']) = true := hbalanced
  obtain ⟨first, rest, htext, hfirst, -⟩ := exists_close_of_balancedFrom hopened
  by_cases hrest : rest = []
  · subst hrest
    rwa [List.append_cancel_right htext]
  · -- The first parenthesis is closed before the end, so it is no outer one.
    have hclosed : balancedFrom (0 + 1) (first ++ [')']) = true := by
      have happend := balancedFrom_append hfirst 1 [')']
      rwa [Nat.zero_add] at happend
    have hearly := closesEarly_append hclosed hrest
    rw [List.append_assoc, List.singleton_append, ← htext] at hearly
    simp [isEnclosed, closesEarly, hearly] at henclosed

theorem isEnclosed_eq_false_iff {text : List Char} (hbalanced : isBalanced text = true) :
    isEnclosed text = false ↔ IsCore text := by
  constructor
  · intro hopen
    refine ⟨hbalanced, ?_⟩
    rintro inner hinner rfl
    rw [isEnclosed_parenthesized hinner] at hopen
    contradiction
  · intro hcore
    rw [Bool.eq_false_iff]
    intro henclosed
    have htext := eq_parenthesized_of_isEnclosed henclosed
    refine hcore.bare _ ?_ htext
    rw [htext] at henclosed hbalanced
    exact isBalanced_of_isEnclosed henclosed hbalanced

theorem IsCore.stripOuter_eq {text : List Char} (hcore : IsCore text) : stripOuter text = text :=
  stripOuter_of_not_enclosed ((isEnclosed_eq_false_iff hcore.balanced).mpr hcore)

theorem isBalanced_enclose {text : List Char} (htext : isBalanced text = true) (pairs : Nat) :
    isBalanced (enclose pairs text) = true := by
  induction pairs with
  | zero => exact htext
  | succ pairs ih => exact isBalanced_parenthesized ih

theorem stripOuter_enclose {text : List Char} (htext : isBalanced text = true) (pairs : Nat) :
    stripOuter (enclose pairs text) = stripOuter text := by
  induction pairs with
  | zero => rfl
  | succ pairs ih =>
      rw [enclose, stripOuter_parenthesized (isBalanced_enclose htext pairs), ih]

/-- Only pairs of parentheses are taken off, whatever the text. -/
theorem exists_enclose_stripOuter (text : List Char) :
    ∃ pairs, text = enclose pairs (stripOuter text) := by
  fun_induction stripOuter text with
  | case1 text henclosed ih =>
      obtain ⟨pairs, hinner⟩ := ih
      refine ⟨pairs + 1, ?_⟩
      rw [enclose, ← hinner]
      exact eq_parenthesized_of_isEnclosed henclosed
  | case2 text _ => exact ⟨0, rfl⟩

theorem peels_stripOuter (text : List Char) :
    Relation.ReflTransGen Peels text (stripOuter text) := by
  fun_induction stripOuter text with
  | case1 text henclosed ih => exact .head ⟨henclosed, rfl⟩ ih
  | case2 text _ => exact .refl

theorem isEnclosed_stripOuter (text : List Char) : isEnclosed (stripOuter text) = false := by
  fun_induction stripOuter text with
  | case1 text henclosed ih => exact ih
  | case2 text hbare => exact Bool.eq_false_iff.mpr hbare

theorem isBalanced_stripOuter {text : List Char} (htext : isBalanced text = true) :
    isBalanced (stripOuter text) = true := by
  fun_induction stripOuter text with
  | case1 text henclosed ih =>
      apply ih
      rw [eq_parenthesized_of_isEnclosed henclosed] at htext henclosed
      exact isBalanced_of_isEnclosed henclosed htext
  | case2 text _ => exact htext

/-- The rounds come to an end on every text, where no parentheses enclose the rest and a second
attempt changes nothing. Of a balanced text they leave the core, the only one that pairs of
parentheses make the text of, and pairs put around the text beforehand make no difference. -/
theorem stripOuter_isUniqueCore (text : List Char) :
    Relation.ReflTransGen Peels text (stripOuter text) ∧
      (∀ next, ¬ Peels (stripOuter text) next) ∧
      stripOuter (stripOuter text) = stripOuter text ∧
      (isBalanced text = true →
        (∀ pairs, stripOuter (enclose pairs text) = stripOuter text) ∧
          IsCore (stripOuter text) ∧
          (∃ pairs, text = enclose pairs (stripOuter text)) ∧
          ∀ pairs core, IsCore core → text = enclose pairs core → core = stripOuter text) := by
  have hbare := isEnclosed_stripOuter text
  refine ⟨peels_stripOuter text, ?_, stripOuter_stripOuter text, ?_⟩
  · rintro next ⟨henclosed, -⟩
    rw [hbare] at henclosed
    contradiction
  · intro htext
    refine ⟨stripOuter_enclose htext,
      (isEnclosed_eq_false_iff (isBalanced_stripOuter htext)).mp hbare,
      exists_enclose_stripOuter text, ?_⟩
    rintro pairs core hcore rfl
    rw [stripOuter_enclose hcore.balanced, hcore.stripOuter_eq]

theorem twoGroups_core :
    isBalanced "((A)^(B))".toList = true ∧
      stripOuter (enclose 2 "((A)^(B))".toList) = stripOuter "((A)^(B))".toList ∧
      "(A)^(B)".toList = stripOuter "((A)^(B))".toList := by
  have hbalanced : isBalanced "((A)^(B))".toList = true := by decide
  have hcore : IsCore "(A)^(B)".toList :=
    (isEnclosed_eq_false_iff (by decide)).mp (by decide)
  obtain ⟨-, -, -, hresults⟩ := stripOuter_isUniqueCore "((A)^(B))".toList
  obtain ⟨hpairs, -, -, hunique⟩ := hresults hbalanced
  exact ⟨hbalanced, hpairs 2, hunique 1 _ hcore (by decide)⟩

end Deduction.Text
