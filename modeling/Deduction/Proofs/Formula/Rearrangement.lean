import Deduction.Proofs.Formula.Key
import Mathlib.Data.List.Forall2
import Mathlib.Data.List.Perm.Basic

/-!
Formulas up to the order and the grouping of their operands.

Two formulas are rearrangements of each other when steps of associativity and commutativity of
conjunction and disjunction and of commutativity of equivalence, at any depth, lead from one to the
other. The canonical form decides this relation: a formula is a rearrangement of its canonical
form, and rearrangements have the same one.
-/

namespace Deduction.Formula

/-- The least congruence with associativity and commutativity of conjunction and of disjunction and
with commutativity of equivalence. -/
inductive Rearranges : Formula → Formula → Prop
  | refl (formula : Formula) : Rearranges formula formula
  | symm {first second : Formula} : Rearranges first second → Rearranges second first
  | trans {first second third : Formula} :
      Rearranges first second → Rearranges second third → Rearranges first third
  | neg {operand operand' : Formula} :
      Rearranges operand operand' → Rearranges (.neg operand) (.neg operand')
  | conj {left left' right right' : Formula} : Rearranges left left' → Rearranges right right' →
      Rearranges (.conj left right) (.conj left' right')
  | disj {left left' right right' : Formula} : Rearranges left left' → Rearranges right right' →
      Rearranges (.disj left right) (.disj left' right')
  | imp {left left' right right' : Formula} : Rearranges left left' → Rearranges right right' →
      Rearranges (.imp left right) (.imp left' right')
  | iff {left left' right right' : Formula} : Rearranges left left' → Rearranges right right' →
      Rearranges (.iff left right) (.iff left' right')
  | conjComm (left right : Formula) : Rearranges (.conj left right) (.conj right left)
  | conjAssoc (first second third : Formula) :
      Rearranges (.conj (.conj first second) third) (.conj first (.conj second third))
  | disjComm (left right : Formula) : Rearranges (.disj left right) (.disj right left)
  | disjAssoc (first second third : Formula) :
      Rearranges (.disj (.disj first second) third) (.disj first (.disj second third))
  | iffComm (left right : Formula) : Rearranges (.iff left right) (.iff right left)

theorem Rearranges.eval_eq {first second : Formula} (hsame : Rearranges first second)
    (valuation : String → Bool) : first.eval valuation = second.eval valuation := by
  induction hsame with
  | refl => rfl
  | symm _ ih => exact ih.symm
  | trans _ _ ihFirst ihSecond => exact ihFirst.trans ihSecond
  | neg _ ih => simp only [eval, ih]
  | conj _ _ ihLeft ihRight => simp only [eval, ihLeft, ihRight]
  | disj _ _ ihLeft ihRight => simp only [eval, ihLeft, ihRight]
  | imp _ _ ihLeft ihRight => simp only [eval, ihLeft, ihRight]
  | iff _ _ ihLeft ihRight => simp only [eval, ihLeft, ihRight]
  | conjComm => simp only [eval, Bool.and_comm]
  | conjAssoc => simp only [eval, Bool.and_assoc]
  | disjComm => simp only [eval, Bool.or_comm]
  | disjAssoc => simp only [eval, Bool.or_assoc]
  | iffComm => simp only [eval, Bool.beq_comm]

theorem Rearranges.atoms_perm {first second : Formula} (hsame : Rearranges first second) :
    first.atoms.Perm second.atoms := by
  induction hsame with
  | refl => exact List.Perm.refl _
  | symm _ ih => exact ih.symm
  | trans _ _ ihFirst ihSecond => exact ihFirst.trans ihSecond
  | neg _ ih => exact ih
  | conj _ _ ihLeft ihRight => exact ihLeft.append ihRight
  | disj _ _ ihLeft ihRight => exact ihLeft.append ihRight
  | imp _ _ ihLeft ihRight => exact ihLeft.append ihRight
  | iff _ _ ihLeft ihRight => exact ihLeft.append ihRight
  | conjComm => exact List.perm_append_comm
  | conjAssoc => simp [atoms]
  | disjComm => exact List.perm_append_comm
  | disjAssoc => simp [atoms]
  | iffComm => exact List.perm_append_comm

theorem Rearranges.isNamed_iff {first second : Formula} (hsame : Rearranges first second) :
    IsNamed first ↔ IsNamed second := by
  unfold IsNamed
  simp only [hsame.atoms_perm.mem_iff]

/-- The main connective; an atom has none. -/
def main? (formula : Formula) : Option Connective :=
  formula.connectives.head?

/-- The connectives whose chains may be regrouped and reordered. -/
inductive Chaining
  | conj
  | disj
  deriving DecidableEq

namespace Chaining

def join : Chaining → Formula → Formula → Formula
  | .conj => .conj
  | .disj => .disj

def connective : Chaining → Connective
  | .conj => .conjunction
  | .disj => .disjunction

/-- The operands of the chain that a formula heads. -/
def operands : Chaining → Formula → List Formula
  | .conj => conjuncts
  | .disj => disjuncts

theorem connective_injective : Function.Injective connective := by
  intro first second heq
  cases first <;> cases second <;> trivial

variable (chaining : Chaining)

theorem congr {left left' right right' : Formula} (hleft : Rearranges left left')
    (hright : Rearranges right right') :
    Rearranges (chaining.join left right) (chaining.join left' right') := by
  cases chaining with
  | conj => exact .conj hleft hright
  | disj => exact .disj hleft hright

theorem comm (left right : Formula) :
    Rearranges (chaining.join left right) (chaining.join right left) := by
  cases chaining with
  | conj => exact .conjComm left right
  | disj => exact .disjComm left right

theorem assoc (first second third : Formula) :
    Rearranges (chaining.join (chaining.join first second) third)
      (chaining.join first (chaining.join second third)) := by
  cases chaining with
  | conj => exact .conjAssoc first second third
  | disj => exact .disjAssoc first second third

theorem isNamed_join {left right : Formula} :
    IsNamed (chaining.join left right) ↔ IsNamed left ∧ IsNamed right := by
  cases chaining with
  | conj => exact isNamed_conj
  | disj => exact isNamed_disj

theorem main?_join (left right : Formula) :
    (chaining.join left right).main? = some chaining.connective := by
  cases chaining <;> rfl

theorem operands_join (left right : Formula) :
    chaining.operands (chaining.join left right) =
      chaining.operands left ++ chaining.operands right := by
  cases chaining <;> rfl

theorem canonical_join (left right : Formula) :
    canonical (chaining.join left right) = joinLeft chaining.join
      (sortByKey ((chaining.operands (chaining.join left right)).map canonical)) := by
  cases chaining with
  | conj => exact canonical_conj left right
  | disj => exact canonical_disj left right

/-- A formula heads a chain of two sides, or it has another main connective. -/
@[elab_as_elim]
theorem sides {motive : Formula → Prop}
    (chain : ∀ left right, motive left → motive right → motive (chaining.join left right))
    (other : ∀ formula, formula.main? ≠ some chaining.connective → motive formula)
    (formula : Formula) : motive formula := by
  cases chaining with
  | conj =>
      induction formula with
      | conj left right ihLeft ihRight => exact chain left right ihLeft ihRight
      | _ => exact other _ (by simp [main?, connectives, connective])
  | disj =>
      induction formula with
      | disj left right ihLeft ihRight => exact chain left right ihLeft ihRight
      | _ => exact other _ (by simp [main?, connectives, connective])

theorem operands_single {formula : Formula} (hmain : formula.main? ≠ some chaining.connective) :
    chaining.operands formula = [formula] := by
  cases chaining with
  | conj =>
      cases formula with
      | conj left right => exact absurd rfl hmain
      | _ => rfl
  | disj =>
      cases formula with
      | disj left right => exact absurd rfl hmain
      | _ => rfl

theorem operands_ne_nil (formula : Formula) : chaining.operands formula ≠ [] := by
  induction formula using chaining.sides with
  | chain left right ihLeft _ =>
      rw [operands_join]
      exact List.append_ne_nil_of_left_ne_nil ihLeft _
  | other formula hmain =>
      rw [chaining.operands_single hmain]
      exact List.cons_ne_nil formula []

theorem isNamed_of_mem_operands {formula operand : Formula} (hnamed : IsNamed formula)
    (hoperand : operand ∈ chaining.operands formula) : IsNamed operand := by
  induction formula using chaining.sides with
  | chain left right ihLeft ihRight =>
      obtain ⟨hleft, hright⟩ := chaining.isNamed_join.mp hnamed
      rw [operands_join] at hoperand
      rcases List.mem_append.mp hoperand with hmem | hmem
      · exact ihLeft hleft hmem
      · exact ihRight hright hmem
  | other formula hmain =>
      rw [chaining.operands_single hmain] at hoperand
      exact List.mem_singleton.mp hoperand ▸ hnamed

theorem foldl_congr {first second : Formula} (hsame : Rearranges first second)
    (list : List Formula) :
    Rearranges (list.foldl chaining.join first) (list.foldl chaining.join second) := by
  induction list generalizing first second with
  | nil => exact hsame
  | cons operand rest ih => exact ih (chaining.congr hsame (.refl operand))

theorem foldl_join (first second : Formula) (list : List Formula) :
    Rearranges (list.foldl chaining.join (chaining.join first second))
      (chaining.join first (list.foldl chaining.join second)) := by
  induction list generalizing second with
  | nil => exact .refl _
  | cons operand rest ih =>
      have hregroup := chaining.foldl_congr (chaining.assoc first second operand) rest
      exact hregroup.trans (ih (chaining.join second operand))

theorem joinLeft_append {list list' : List Formula} (hsome : list ≠ []) (hsome' : list' ≠ []) :
    Rearranges (joinLeft chaining.join (list ++ list'))
      (chaining.join (joinLeft chaining.join list) (joinLeft chaining.join list')) := by
  cases list with
  | nil => exact absurd rfl hsome
  | cons first rest =>
      cases list' with
      | nil => exact absurd rfl hsome'
      | cons first' rest' =>
          simp only [List.cons_append, joinLeft, List.foldl_append, List.foldl_cons]
          exact chaining.foldl_join _ _ _

theorem joinLeft_perm {list list' : List Formula} (hperm : list.Perm list') :
    Rearranges (joinLeft chaining.join list) (joinLeft chaining.join list') := by
  induction hperm with
  | nil => exact .refl _
  | @cons operand rest rest' hperm ih =>
      by_cases hrest : rest = []
      · subst hrest
        rw [List.nil_perm.mp hperm]
        exact .refl _
      · have hrest' : rest' ≠ [] := fun h => hrest (List.perm_nil.mp (h ▸ hperm))
        have hleft := chaining.joinLeft_append (List.cons_ne_nil operand []) hrest
        have hright := chaining.joinLeft_append (List.cons_ne_nil operand []) hrest'
        exact hleft.trans ((chaining.congr (.refl _) ih).trans hright.symm)
  | swap first second rest => exact chaining.foldl_congr (chaining.comm second first) rest
  | trans _ _ ihFirst ihSecond => exact ihFirst.trans ihSecond

theorem joinLeft_forall₂ {list list' : List Formula}
    (hsame : List.Forall₂ Rearranges list list') :
    Rearranges (joinLeft chaining.join list) (joinLeft chaining.join list') := by
  cases hsame with
  | nil => exact .refl _
  | @cons first first' rest rest' hfirst hrest =>
      simp only [joinLeft]
      induction hrest generalizing first first' with
      | nil => exact hfirst
      | cons hoperand _ ih => exact ih (chaining.congr hfirst hoperand)

theorem rearranges_joinLeft (formula : Formula) :
    Rearranges formula (joinLeft chaining.join (chaining.operands formula)) := by
  induction formula using chaining.sides with
  | chain left right ihLeft ihRight =>
      rw [operands_join]
      exact (chaining.congr ihLeft ihRight).trans
        (chaining.joinLeft_append (chaining.operands_ne_nil left)
          (chaining.operands_ne_nil right)).symm
  | other formula hmain =>
      rw [chaining.operands_single hmain]
      exact .refl _

theorem rearranges_canonical_join {left right : Formula}
    (hoperands : ∀ operand ∈ chaining.operands (chaining.join left right),
      Rearranges operand operand.canonical) :
    Rearranges (chaining.join left right) (canonical (chaining.join left right)) := by
  have hcanonical : List.Forall₂ Rearranges (chaining.operands (chaining.join left right))
      ((chaining.operands (chaining.join left right)).map canonical) := by
    rw [List.forall₂_map_right_iff, List.forall₂_same]
    exact hoperands
  rw [canonical_join]
  exact ((chaining.rearranges_joinLeft _).trans (chaining.joinLeft_forall₂ hcanonical)).trans
    (chaining.joinLeft_perm (List.mergeSort_perm _ _).symm)

end Chaining

theorem rearranges_orderedIff (left right : Formula) :
    Rearranges (.iff left right) (orderedIff left right) := by
  unfold orderedIff
  split
  · exact .iffComm left right
  · exact .refl _

/-- Induction by chains: a conjunction or disjunction rests on the operands of the whole chain that it
heads. The operands are carried along since those of a chain come from below its two sides. -/
@[elab_as_elim]
theorem chainInduction {motive : Formula → Prop}
    (atom : ∀ name, motive (.atom name))
    (neg : ∀ operand, motive operand → motive (.neg operand))
    (conj : ∀ left right, (∀ operand ∈ (Formula.conj left right).conjuncts, motive operand) →
      motive (.conj left right))
    (disj : ∀ left right, (∀ operand ∈ (Formula.disj left right).disjuncts, motive operand) →
      motive (.disj left right))
    (imp : ∀ left right, motive left → motive right → motive (.imp left right))
    (iff : ∀ left right, motive left → motive right → motive (.iff left right))
    (formula : Formula) : motive formula := by
  have hsingle : ∀ {formula : Formula}, motive formula → ∀ operand ∈ [formula], motive operand := by
    intro formula hformula operand hoperand
    rw [List.mem_singleton.mp hoperand]
    exact hformula
  suffices hchains : motive formula ∧ (∀ operand ∈ formula.conjuncts, motive operand) ∧
      ∀ operand ∈ formula.disjuncts, motive operand from hchains.1
  induction formula with
  | atom name => exact ⟨atom name, hsingle (atom name), hsingle (atom name)⟩
  | neg operand ih =>
      have hneg := neg operand ih.1
      exact ⟨hneg, hsingle hneg, hsingle hneg⟩
  | conj left right ihLeft ihRight =>
      have hoperands : ∀ operand ∈ (Formula.conj left right).conjuncts, motive operand := by
        intro operand hoperand
        rcases List.mem_append.mp hoperand with hleft | hright
        · exact ihLeft.2.1 operand hleft
        · exact ihRight.2.1 operand hright
      exact ⟨conj left right hoperands, hoperands, hsingle (conj left right hoperands)⟩
  | disj left right ihLeft ihRight =>
      have hoperands : ∀ operand ∈ (Formula.disj left right).disjuncts, motive operand := by
        intro operand hoperand
        rcases List.mem_append.mp hoperand with hleft | hright
        · exact ihLeft.2.2 operand hleft
        · exact ihRight.2.2 operand hright
      exact ⟨disj left right hoperands, hsingle (disj left right hoperands), hoperands⟩
  | imp left right ihLeft ihRight =>
      have himp := imp left right ihLeft.1 ihRight.1
      exact ⟨himp, hsingle himp, hsingle himp⟩
  | iff left right ihLeft ihRight =>
      have hiff := iff left right ihLeft.1 ihRight.1
      exact ⟨hiff, hsingle hiff, hsingle hiff⟩

theorem rearranges_canonical (formula : Formula) : Rearranges formula formula.canonical := by
  induction formula using chainInduction with
  | atom name => exact .refl _
  | neg operand ih => exact .neg ih
  | conj left right ih => exact Chaining.conj.rearranges_canonical_join ih
  | disj left right ih => exact Chaining.disj.rearranges_canonical_join ih
  | imp left right ihLeft ihRight => exact .imp ihLeft ihRight
  | iff left right ihLeft ihRight =>
      exact (Rearranges.iff ihLeft ihRight).trans (rearranges_orderedIff _ _)

theorem eval_canonical (valuation : String → Bool) (formula : Formula) :
    formula.canonical.eval valuation = formula.eval valuation :=
  ((rearranges_canonical formula).eval_eq valuation).symm

theorem isNamed_canonical {formula : Formula} (hnamed : IsNamed formula) :
    IsNamed formula.canonical :=
  (rearranges_canonical formula).isNamed_iff.mp hnamed

theorem canonicalKey_eq_iff {first second : Formula} (hfirst : IsNamed first)
    (hsecond : IsNamed second) :
    first.canonicalKey = second.canonicalKey ↔ first.agrees second = true := by
  rw [agrees, beq_iff_eq]
  constructor
  · exact key_injective (isNamed_canonical hfirst) (isNamed_canonical hsecond)
  · intro hcanonical
    rw [canonicalKey, canonicalKey, hcanonical]

theorem keyLe_iff {first second : Formula} :
    keyLe first second = true ↔ first.key ≤ second.key := by
  rw [keyLe, Bool.not_eq_true', decide_eq_false_iff_not, not_lt]

theorem pairwise_sortByKey (formulas : List Formula) :
    (sortByKey formulas).Pairwise fun first second => keyLe first second = true := by
  apply List.pairwise_mergeSort
  · intro first second third hfirst hsecond
    rw [keyLe_iff] at hfirst hsecond ⊢
    exact hfirst.trans hsecond
  · intro first second
    rw [Bool.or_eq_true, keyLe_iff, keyLe_iff]
    exact le_total _ _

/-- Sorting forgets the order of formulas that their keys tell apart. -/
theorem sortByKey_eq_of_perm {formulas formulas' : List Formula}
    (hnamed : ∀ formula ∈ formulas, IsNamed formula) (hperm : formulas.Perm formulas') :
    sortByKey formulas = sortByKey formulas' := by
  have hsort : ∀ list : List Formula, (sortByKey list).Perm list :=
    fun list => List.mergeSort_perm list keyLe
  have hsorted : (sortByKey formulas).Perm (sortByKey formulas') :=
    (hsort formulas).trans (hperm.trans (hsort formulas').symm)
  apply List.Perm.eq_of_pairwise _ (pairwise_sortByKey formulas) (pairwise_sortByKey formulas')
    hsorted
  intro first second hfirst hsecond hle hge
  have hfirstNamed := hnamed first ((hsort formulas).mem_iff.mp hfirst)
  have hsecondNamed := hnamed second
    (hperm.mem_iff.mpr ((hsort formulas').mem_iff.mp hsecond))
  exact key_injective hfirstNamed hsecondNamed
    (le_antisymm (keyLe_iff.mp hle) (keyLe_iff.mp hge))

theorem orderedIff_comm {left right : Formula} (hleft : IsNamed left) (hright : IsNamed right) :
    orderedIff left right = orderedIff right left := by
  unfold orderedIff
  rcases lt_trichotomy left.key right.key with hlt | heq | hlt
  · rw [if_neg hlt.asymm, if_pos hlt]
  · rw [key_injective hleft hright heq]
  · rw [if_pos hlt, if_neg hlt.asymm]

/-- Two chains of a connective with the same canonical operands, in any order, have one canonical
form. -/
theorem Chaining.canonical_join_eq_of_perm (chaining : Chaining)
    {left right left' right' : Formula} (hnamed : IsNamed (chaining.join left right))
    (hperm : ((chaining.operands (chaining.join left right)).map canonical).Perm
      ((chaining.operands (chaining.join left' right')).map canonical)) :
    canonical (chaining.join left right) = canonical (chaining.join left' right') := by
  rw [canonical_join, canonical_join, sortByKey_eq_of_perm ?_ hperm]
  intro operand hoperand
  obtain ⟨source, hsource, rfl⟩ := List.mem_map.mp hoperand
  exact isNamed_canonical (chaining.isNamed_of_mem_operands hnamed hsource)

/-- Two formulas have the same canonical form, and the chains they head the same canonical operands
up to order. -/
structure SameCanonical (first second : Formula) : Prop where
  form : first.canonical = second.canonical
  operands : ∀ chaining : Chaining, ((chaining.operands first).map canonical).Perm
    ((chaining.operands second).map canonical)

namespace SameCanonical

theorem refl (formula : Formula) : SameCanonical formula formula :=
  ⟨rfl, fun _ => List.Perm.refl _⟩

theorem symm {first second : Formula} (hsame : SameCanonical first second) :
    SameCanonical second first :=
  ⟨hsame.form.symm, fun chaining => (hsame.operands chaining).symm⟩

theorem trans {first second third : Formula} (hsame : SameCanonical first second)
    (hsame' : SameCanonical second third) : SameCanonical first third :=
  ⟨hsame.form.trans hsame'.form, fun chaining =>
    (hsame.operands chaining).trans (hsame'.operands chaining)⟩

theorem perm_of_main? {first second : Formula} {chaining : Chaining}
    (hfirst : first.main? ≠ some chaining.connective)
    (hsecond : second.main? ≠ some chaining.connective)
    (hform : first.canonical = second.canonical) :
    ((chaining.operands first).map canonical).Perm
      ((chaining.operands second).map canonical) := by
  rw [chaining.operands_single hfirst, chaining.operands_single hsecond, List.map_singleton,
    List.map_singleton, hform]

theorem ofOther {first second : Formula} (connective : Connective)
    (hconj : connective ≠ .conjunction) (hdisj : connective ≠ .disjunction)
    (hfirst : first.main? = some connective) (hsecond : second.main? = some connective)
    (hform : first.canonical = second.canonical) : SameCanonical first second := by
  refine ⟨hform, ?_⟩
  intro chaining
  have hother : some connective ≠ some chaining.connective := by
    cases chaining with
    | conj => exact fun heq => hconj (Option.some.inj heq)
    | disj => exact fun heq => hdisj (Option.some.inj heq)
  refine perm_of_main? ?_ ?_ hform
  · rwa [hfirst]
  · rwa [hsecond]

theorem ofJoin (chaining : Chaining) {left right left' right' : Formula}
    (hnamed : IsNamed (chaining.join left right))
    (hperm : ((chaining.operands (chaining.join left right)).map canonical).Perm
      ((chaining.operands (chaining.join left' right')).map canonical)) :
    SameCanonical (chaining.join left right) (chaining.join left' right') := by
  have hform := chaining.canonical_join_eq_of_perm hnamed hperm
  refine ⟨hform, ?_⟩
  intro other
  by_cases hother : other = chaining
  · subst hother
    exact hperm
  · have hmain : some chaining.connective ≠ some other.connective :=
      fun heq => hother (Chaining.connective_injective (Option.some.inj heq).symm)
    refine perm_of_main? ?_ ?_ hform
    · rwa [chaining.main?_join]
    · rwa [chaining.main?_join]

section Chains

variable (chaining : Chaining) {left left' right right' : Formula}

theorem congr (hnamed : IsNamed (chaining.join left right))
    (hleft : IsNamed left → SameCanonical left left')
    (hright : IsNamed right → SameCanonical right right') :
    SameCanonical (chaining.join left right) (chaining.join left' right') := by
  obtain ⟨hnamedLeft, hnamedRight⟩ := chaining.isNamed_join.mp hnamed
  apply ofJoin chaining hnamed
  rw [chaining.operands_join, chaining.operands_join, List.map_append, List.map_append]
  exact ((hleft hnamedLeft).operands chaining).append ((hright hnamedRight).operands chaining)

theorem comm (hnamed : IsNamed (chaining.join left right)) :
    SameCanonical (chaining.join left right) (chaining.join right left) := by
  apply ofJoin chaining hnamed
  rw [chaining.operands_join, chaining.operands_join, List.map_append, List.map_append]
  exact List.perm_append_comm

theorem assoc {first second third : Formula}
    (hnamed : IsNamed (chaining.join (chaining.join first second) third)) :
    SameCanonical (chaining.join (chaining.join first second) third)
      (chaining.join first (chaining.join second third)) := by
  apply ofJoin chaining hnamed
  simp only [chaining.operands_join, List.append_assoc]
  exact List.Perm.refl _

end Chains

end SameCanonical

/-- Each step of a rearrangement keeps the canonical form and, up to order, the operands. -/
theorem Rearranges.sameCanonical {first second : Formula} (hsame : Rearranges first second)
    (hnamed : IsNamed first) : SameCanonical first second := by
  induction hsame with
  | refl => exact .refl _
  | symm hstep ih => exact (ih (hstep.isNamed_iff.mpr hnamed)).symm
  | trans hstep _ ihFirst ihSecond =>
      exact (ihFirst hnamed).trans (ihSecond (hstep.isNamed_iff.mp hnamed))
  | neg _ ih =>
      apply SameCanonical.ofOther .negation nofun nofun rfl rfl
      rw [canonical_neg, canonical_neg, (ih hnamed).form]
  | conj _ _ ihLeft ihRight => exact .congr .conj hnamed ihLeft ihRight
  | disj _ _ ihLeft ihRight => exact .congr .disj hnamed ihLeft ihRight
  | imp _ _ ihLeft ihRight =>
      obtain ⟨hleft, hright⟩ := isNamed_imp.mp hnamed
      apply SameCanonical.ofOther .implication nofun nofun rfl rfl
      rw [canonical_imp, canonical_imp, (ihLeft hleft).form, (ihRight hright).form]
  | iff _ _ ihLeft ihRight =>
      obtain ⟨hleft, hright⟩ := Formula.isNamed_iff.mp hnamed
      apply SameCanonical.ofOther .equivalence nofun nofun rfl rfl
      rw [canonical_iff, canonical_iff, (ihLeft hleft).form, (ihRight hright).form]
  | conjComm => exact .comm .conj hnamed
  | conjAssoc => exact .assoc .conj hnamed
  | disjComm => exact .comm .disj hnamed
  | disjAssoc => exact .assoc .disj hnamed
  | iffComm =>
      obtain ⟨hleft, hright⟩ := Formula.isNamed_iff.mp hnamed
      apply SameCanonical.ofOther .equivalence nofun nofun rfl rfl
      exact orderedIff_comm (isNamed_canonical hleft) (isNamed_canonical hright)

theorem rearranges_of_agrees {first second : Formula} (hagrees : first.agrees second = true) :
    Rearranges first second := by
  have hform : first.canonical = second.canonical := by simpa [agrees] using hagrees
  have hfirst := rearranges_canonical first
  rw [hform] at hfirst
  exact hfirst.trans (rearranges_canonical second).symm

theorem eval_eq_of_agrees {first second : Formula} (hagrees : first.agrees second = true)
    (valuation : String → Bool) : first.eval valuation = second.eval valuation :=
  (rearranges_of_agrees hagrees).eval_eq valuation

/-- Formulas agree exactly when they are rearrangements of each other, and the canonical form is a
rearrangement with the same truth values. -/
theorem agrees_iff_rearranges (first second : Formula) (hfirst : IsNamed first) :
    (first.agrees second = true ↔ Rearranges first second) ∧
      Rearranges first first.canonical ∧
      ∀ valuation, first.canonical.eval valuation = first.eval valuation := by
  refine ⟨⟨rearranges_of_agrees, ?_⟩, rearranges_canonical first,
    fun valuation => eval_canonical valuation first⟩
  intro hsame
  have hform := (hsame.sameCanonical hfirst).form
  simp [agrees, hform]

theorem agrees_of_swapped_operands :
    (conj (.disj (.atom "B") (.atom "P(x,y)")) (.atom "A")).agrees
      (.conj (.atom "A") (.disj (.atom "P(x,y)") (.atom "B"))) = true := by
  have hletter : ∀ name ∈ ["A", "B", "P", "x", "y"], IsIdentifier name := by
    intro name hname
    simp only [List.mem_cons, List.not_mem_nil, or_false] at hname
    rcases hname with rfl | rfl | rfl | rfl | rfl <;>
      exact ⟨_, [], rfl, rfl, fun _ hc => nomatch hc⟩
  have happlication : IsAtomName (applicationName "P" ["x", "y"]) :=
    .application (hletter _ (by decide)) (by decide)
      fun argument hargument => hletter argument (by revert argument; decide)
  have hnamed : IsNamed (conj (.disj (.atom "B") (.atom "P(x,y)")) (.atom "A")) := by
    intro name hname
    simp only [atoms, List.cons_append, List.nil_append, List.mem_cons, List.not_mem_nil,
      or_false] at hname
    rcases hname with rfl | rfl | rfl
    · exact .identifier (hletter _ (by decide))
    · exact happlication
    · exact .identifier (hletter _ (by decide))
  have hswap : Rearranges (conj (.disj (.atom "B") (.atom "P(x,y)")) (.atom "A"))
      (.conj (.atom "A") (.disj (.atom "P(x,y)") (.atom "B"))) :=
    .trans (.conjComm _ _) (.conj (.refl _) (.disjComm _ _))
  exact (agrees_iff_rearranges _ _ hnamed).1.mpr hswap

end Deduction.Formula
