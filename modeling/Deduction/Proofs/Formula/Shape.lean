import Deduction.Proofs.Formula.Rearrangement

/-!
The shape of canonical forms.

A canonical form is built of atoms, negations, implications, equivalences with their sides in the
order of the keys, and chains that are nested to the left, with operands in the order of their keys
that head no chain of the same connective. No atom and no connective is lost or gained on the way,
and what has the shape is its own canonical form. Nothing is asked of the names of atoms, so
different formulas may have the same key.
-/

namespace Deduction.Formula

/-- The shape of canonical forms. The operands of a chain do not go on with its connective, so the
chain is maximal. -/
inductive IsOrderly : Formula → Prop
  | atom (name : String) : IsOrderly (.atom name)
  | neg {operand : Formula} : IsOrderly operand → IsOrderly (.neg operand)
  | imp {left right : Formula} : IsOrderly left → IsOrderly right → IsOrderly (.imp left right)
  | iff {left right : Formula} : IsOrderly left → IsOrderly right → left.key ≤ right.key →
      IsOrderly (.iff left right)
  | conj {operands : List Formula} (hchain : 2 ≤ operands.length)
      (hoperands : ∀ operand ∈ operands, IsOrderly operand)
      (hmaximal : ∀ operand ∈ operands, operand.main? ≠ some .conjunction)
      (hsorted : operands.Pairwise fun first second => first.key ≤ second.key) :
      IsOrderly (joinLeft .conj operands)
  | disj {operands : List Formula} (hchain : 2 ≤ operands.length)
      (hoperands : ∀ operand ∈ operands, IsOrderly operand)
      (hmaximal : ∀ operand ∈ operands, operand.main? ≠ some .disjunction)
      (hsorted : operands.Pairwise fun first second => first.key ≤ second.key) :
      IsOrderly (joinLeft .disj operands)

theorem mem_sortByKey {formulas : List Formula} {formula : Formula} :
    formula ∈ sortByKey formulas ↔ formula ∈ formulas :=
  List.mem_mergeSort

theorem length_sortByKey (formulas : List Formula) :
    (sortByKey formulas).length = formulas.length :=
  List.length_mergeSort formulas

theorem sortByKey_of_pairwise {formulas : List Formula}
    (hsorted : formulas.Pairwise fun first second => first.key ≤ second.key) :
    sortByKey formulas = formulas :=
  List.mergeSort_of_pairwise (hsorted.imp keyLe_iff.mpr)

theorem exists_join_of_joinLeft (join : Formula → Formula → Formula) {operands : List Formula}
    (hchain : 2 ≤ operands.length) : ∃ left right, joinLeft join operands = join left right := by
  rcases List.eq_nil_or_concat operands with rfl | ⟨before, last, rfl⟩
  · simp at hchain
  · cases before with
    | nil => simp at hchain
    | cons first rest =>
        refine ⟨rest.foldl join first, last, ?_⟩
        rw [List.concat_eq_append, List.cons_append, joinLeft, List.foldl_append]
        rfl

namespace Chaining

variable (chaining : Chaining)

theorem main?_operand {formula operand : Formula} (hoperand : operand ∈ chaining.operands formula) :
    operand.main? ≠ some chaining.connective := by
  induction formula using chaining.sides with
  | chain left right ihLeft ihRight =>
      rw [operands_join] at hoperand
      exact (List.mem_append.mp hoperand).elim ihLeft ihRight
  | other formula hmain =>
      rw [chaining.operands_single hmain] at hoperand
      rwa [List.mem_singleton.mp hoperand]

theorem two_le_length (left right : Formula) :
    2 ≤ (chaining.operands (chaining.join left right)).length := by
  have hleft := List.length_pos_iff.mpr (chaining.operands_ne_nil left)
  have hright := List.length_pos_iff.mpr (chaining.operands_ne_nil right)
  rw [operands_join, List.length_append]
  omega

theorem main?_canonical (left right : Formula) :
    (canonical (chaining.join left right)).main? = (chaining.join left right).main? := by
  have hchain : 2 ≤ (sortByKey
      ((chaining.operands (chaining.join left right)).map canonical)).length := by
    rw [length_sortByKey, List.length_map]
    exact chaining.two_le_length left right
  obtain ⟨left', right', heq⟩ := exists_join_of_joinLeft chaining.join hchain
  rw [canonical_join, heq, main?_join, main?_join]

theorem operands_joinLeft {list : List Formula} (hsome : list ≠ [])
    (hmaximal : ∀ operand ∈ list, operand.main? ≠ some chaining.connective) :
    chaining.operands (joinLeft chaining.join list) = list := by
  have hfold : ∀ (rest : List Formula) (first : Formula),
      (∀ operand ∈ rest, operand.main? ≠ some chaining.connective) →
        chaining.operands (rest.foldl chaining.join first) = chaining.operands first ++ rest := by
    intro rest
    induction rest with
    | nil => simp
    | cons operand rest ih =>
        intro first hrest
        have hoperand := chaining.operands_single (hrest operand List.mem_cons_self)
        rw [List.foldl_cons, ih _ fun other h => hrest other (List.mem_cons_of_mem _ h),
          operands_join, hoperand, List.append_assoc]
        rfl
  cases list with
  | nil => exact absurd rfl hsome
  | cons first rest =>
      rw [joinLeft, hfold rest first fun other h => hmaximal other (List.mem_cons_of_mem _ h),
        chaining.operands_single (hmaximal first List.mem_cons_self)]
      rfl

theorem canonical_joinLeft {list : List Formula} (hchain : 2 ≤ list.length)
    (hmaximal : ∀ operand ∈ list, operand.main? ≠ some chaining.connective)
    (hsorted : list.Pairwise fun first second => first.key ≤ second.key)
    (hoperands : ∀ operand ∈ list, operand.canonical = operand) :
    canonical (joinLeft chaining.join list) = joinLeft chaining.join list := by
  have hsome : list ≠ [] := by
    rintro rfl
    simp at hchain
  have hlist := chaining.operands_joinLeft hsome hmaximal
  obtain ⟨left, right, heq⟩ := exists_join_of_joinLeft chaining.join hchain
  rw [heq] at hlist
  rw [heq, canonical_join, hlist, List.map_congr_left hoperands, List.map_id',
    sortByKey_of_pairwise hsorted, heq]

end Chaining

/-- Bringing a formula to canonical form keeps its main connective, so the operands of a chain do
not become chains of the same connective. -/
theorem main?_canonical (formula : Formula) : formula.canonical.main? = formula.main? := by
  cases formula with
  | atom => rfl
  | neg => rfl
  | conj left right => exact Chaining.conj.main?_canonical left right
  | disj left right => exact Chaining.disj.main?_canonical left right
  | imp => rfl
  | iff left right =>
      rw [canonical_iff, orderedIff]
      split <;> rfl

theorem key_le_of_mem_sortByKey (formulas : List Formula) :
    (sortByKey formulas).Pairwise fun first second => first.key ≤ second.key :=
  (pairwise_sortByKey formulas).imp keyLe_iff.mp

theorem Chaining.sorted_operands (chaining : Chaining) {property : Formula → Prop}
    {left right : Formula}
    (hoperands : ∀ operand ∈ chaining.operands (chaining.join left right),
      property operand.canonical) :
    2 ≤ (sortByKey ((chaining.operands (chaining.join left right)).map canonical)).length ∧
      ∀ operand ∈ sortByKey ((chaining.operands (chaining.join left right)).map canonical),
        property operand ∧ operand.main? ≠ some chaining.connective := by
  refine ⟨?_, ?_⟩
  · rw [length_sortByKey, List.length_map]
    exact chaining.two_le_length left right
  · intro operand hoperand
    obtain ⟨source, hsource, rfl⟩ := List.mem_map.mp (mem_sortByKey.mp hoperand)
    refine ⟨hoperands source hsource, ?_⟩
    rw [Formula.main?_canonical]
    exact chaining.main?_operand hsource

theorem isOrderly_orderedIff {left right : Formula} (hleft : IsOrderly left)
    (hright : IsOrderly right) : IsOrderly (orderedIff left right) := by
  unfold orderedIff
  split
  · rename_i hlt
    exact .iff hright hleft (le_of_lt hlt)
  · rename_i hge
    exact .iff hleft hright (not_lt.mp hge)

theorem isOrderly_canonical (formula : Formula) : IsOrderly formula.canonical := by
  induction formula using chainInduction with
  | atom name => exact .atom name
  | neg operand ih => exact .neg ih
  | conj left right ih =>
      obtain ⟨hchain, hoperands⟩ := Chaining.conj.sorted_operands ih
      rw [canonical_conj]
      exact .conj hchain (fun operand h => (hoperands operand h).1)
        (fun operand h => (hoperands operand h).2) (key_le_of_mem_sortByKey _)
  | disj left right ih =>
      obtain ⟨hchain, hoperands⟩ := Chaining.disj.sorted_operands ih
      rw [canonical_disj]
      exact .disj hchain (fun operand h => (hoperands operand h).1)
        (fun operand h => (hoperands operand h).2) (key_le_of_mem_sortByKey _)
  | imp left right ihLeft ihRight => exact .imp ihLeft ihRight
  | iff left right ihLeft ihRight => exact isOrderly_orderedIff ihLeft ihRight

/-- What has the shape of canonical forms is its own canonical form. -/
theorem IsOrderly.canonical_eq {formula : Formula} (horderly : IsOrderly formula) :
    formula.canonical = formula := by
  induction horderly with
  | atom name => rfl
  | neg _ ih => rw [canonical_neg, ih]
  | imp _ _ ihLeft ihRight => rw [canonical_imp, ihLeft, ihRight]
  | iff _ _ hle ihLeft ihRight =>
      rw [canonical_iff, ihLeft, ihRight, orderedIff, if_neg (not_lt.mpr hle)]
  | conj hchain _ hmaximal hsorted ih =>
      exact Chaining.conj.canonical_joinLeft hchain hmaximal hsorted ih
  | disj hchain _ hmaximal hsorted ih =>
      exact Chaining.disj.canonical_joinLeft hchain hmaximal hsorted ih

theorem Rearranges.connectives_perm {first second : Formula} (hsame : Rearranges first second) :
    first.connectives.Perm second.connectives := by
  induction hsame with
  | refl => exact .refl _
  | symm _ ih => exact ih.symm
  | trans _ _ ihFirst ihSecond => exact ihFirst.trans ihSecond
  | neg _ ih => exact ih.cons _
  | conj _ _ ihLeft ihRight => exact (ihLeft.append ihRight).cons _
  | disj _ _ ihLeft ihRight => exact (ihLeft.append ihRight).cons _
  | imp _ _ ihLeft ihRight => exact (ihLeft.append ihRight).cons _
  | iff _ _ ihLeft ihRight => exact (ihLeft.append ihRight).cons _
  | conjComm => exact List.perm_append_comm.cons _
  | conjAssoc first second third =>
      simp only [connectives, List.cons_append, List.append_assoc]
      exact List.perm_middle.symm.cons _
  | disjComm => exact List.perm_append_comm.cons _
  | disjAssoc first second third =>
      simp only [connectives, List.cons_append, List.append_assoc]
      exact List.perm_middle.symm.cons _
  | iffComm => exact List.perm_append_comm.cons _

/-- Bringing a formula to canonical form a second time changes nothing. The canonical form has its
chains nested to the left and sorted and its equivalences in order, and the atoms and connectives of
the formula as often as the formula has them. -/
theorem canonical_isOrderly_fixedPoint (formula : Formula) :
    formula.canonical.canonical = formula.canonical ∧
    IsOrderly formula.canonical ∧
    formula.canonical.atoms.Perm formula.atoms ∧
    ∀ connective, formula.canonical.connectives.count connective =
      formula.connectives.count connective := by
  have hsame := rearranges_canonical formula
  exact ⟨(isOrderly_canonical formula).canonical_eq, isOrderly_canonical formula,
    hsame.atoms_perm.symm, fun connective => (hsame.connectives_perm.count_eq connective).symm⟩

end Deduction.Formula
