import Deduction.Check.Table
import Deduction.Proofs.Check.Propositional

namespace Deduction

/-- The context with another policy for the order of conjuncts. -/
def Context.reordered (context : Context) (order : ConjunctOrder) : Context :=
  { context with conjunctOrder := order }

@[simp] theorem Context.text_reordered (context : Context) (order : ConjunctOrder) :
    (context.reordered order).text = context.text := rfl

namespace Check

/-- What passes a check still passes when conjuncts are taken in any order. -/
def Tolerates (check : Check) : Prop :=
  ∀ (context : Context) (order : ConjunctOrder) (finding : Finding),
    order = context.conjunctOrder ∨ order = .any →
    check context = some finding → finding.objections = [] →
      ∃ tolerant, check (context.reordered order) = some tolerant ∧ tolerant.objections = []

theorem tolerates_of_eq {check : Check}
    (hcheck : ∀ context order, check (Context.reordered context order) = check context) :
    check.Tolerates := by
  intro context order finding _ hfinding hclean
  exact ⟨finding, (hcheck context order).trans hfinding, hclean⟩

theorem tolerates_conjunctionIntro : Tolerates conjunctionIntro := by
  intro context order finding horder hfinding hclean
  have hany : ∀ swapped : Bool, (context.conjunctOrder == .any && swapped) = true →
      (order == .any && swapped) = true := by
    intro swapped hswapped
    rcases horder with rfl | rfl
    · exact hswapped
    · exact (Bool.and_eq_true_iff.mp hswapped).2
  unfold conjunctionIntro Context.reordered at *
  dsimp only [Context.text] at hfinding ⊢
  split at hfinding
  · rename_i first second _
    split at hfinding
    · obtain rfl := Option.some.inj hfinding
      refine ⟨_, rfl, ?_⟩
      rw [Finding.objections_require, Bool.or_eq_true] at hclean ⊢
      exact hclean.imp_right (hany _)
    · exact (Finding.not_pass_object hfinding hclean).elim
    · split at hfinding
      · obtain rfl := Option.some.inj hfinding
        exact absurd hclean (List.cons_ne_nil _ _)
      · rename_i left right _
        have hfits : (Formula.sameText left first.text.toList &&
              Formula.sameText right second.text.toList ||
            order == .any && (Formula.sameText left second.text.toList &&
              Formula.sameText right first.text.toList)) = true := by
          split at hfinding
          · rename_i hbefore
            rw [Bool.or_eq_true] at hbefore ⊢
            exact hbefore.imp_right (hany _)
          · -- without an objection both conjuncts fit in order
            obtain rfl := Option.some.inj hfinding
            have hsides := List.append_eq_nil_iff.mp hclean
            have hleft : Formula.sameText left first.text.toList = true := by
              simpa using hsides.1
            have hright : Formula.sameText right second.text.toList = true := by
              simpa using hsides.2
            rw [hleft, hright]
            rfl
        rw [if_pos hfits]
        exact ⟨_, rfl, rfl⟩
  · contradiction

theorem findCases?_reordered (context : Context) (order : ConjunctOrder) (conclusion : Formula)
    (choices : List (Citation × List Citation)) :
    findCases? (context.reordered order) conclusion choices =
      findCases? context conclusion choices := by
  induction choices with
  | nil => rfl
  | cons choice rest ih =>
      rw [findCases?, findCases?, ih]
      rfl

theorem tolerates_disjunctionElim : Tolerates disjunctionElim := by
  apply tolerates_of_eq
  intro context order
  unfold disjunctionElim
  simp only [findCases?_reordered]
  rfl

theorem tolerates_withFirst {judge : Context → Citation → Finding}
    (hjudge : ∀ context order cited,
      judge (Context.reordered context order) cited = judge context cited) :
    Tolerates (withFirst judge) := by
  apply tolerates_of_eq
  intro context order
  unfold withFirst
  simp only [hjudge]
  rfl

theorem tolerates_standard (rule : Rule) : Tolerates (standard rule) := by
  cases rule with
  | conjunctionIntro => exact tolerates_conjunctionIntro
  | disjunctionElim => exact tolerates_disjunctionElim
  | universalIntro => exact tolerates_withFirst fun _ _ _ => by rw [Context.text_reordered]
  | universalElim => exact tolerates_withFirst fun _ _ _ => by rw [Context.text_reordered]
  | existentialIntro => exact tolerates_withFirst fun _ _ _ => by rw [Context.text_reordered]
  | _ => exact tolerates_of_eq fun _ _ => rfl

end Check

end Deduction
