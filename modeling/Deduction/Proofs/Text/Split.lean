import Deduction.Proofs.Text.Parens
import Deduction.Text.Split

namespace Deduction.Text

theorem splitTopFrom_open (operator before rest : List Char) (depth : Int) :
    splitTopFrom operator before depth ('(' :: rest) =
      splitTopFrom operator ('(' :: before) (depth + 1) rest := by
  simp [splitTopFrom]

theorem splitTopFrom_close (operator before rest : List Char) (depth : Int) :
    splitTopFrom operator before depth (')' :: rest) =
      splitTopFrom operator (')' :: before) (depth - 1) rest := by
  simp [splitTopFrom]

/-- A character that is no parenthesis is passed over where the operator does not stand outside
parentheses. -/
theorem splitTopFrom_other {operator before rest : List Char} {depth : Int} {c : Char}
    (hopen : c ≠ '(') (hclose : c ≠ ')')
    (hnone : depth ≠ 0 ∨ operator.isPrefixOf (c :: rest) = false) :
    splitTopFrom operator before depth (c :: rest) =
      splitTopFrom operator (c :: before) depth rest := by
  rcases hnone with hdepth | hbegins
  · simp [splitTopFrom, hopen, hclose, hdepth]
  · simp [splitTopFrom, hopen, hclose, hbegins]

/-- The search goes on after these characters as if it had begun there. -/
def PassesOver (operator text : List Char) : Prop :=
  ∀ before rest, splitTopFrom operator before 0 (text ++ rest) =
    splitTopFrom operator (text.reverse ++ before) 0 rest

theorem passesOver_nil (operator : List Char) : PassesOver operator [] := fun _ _ => rfl

theorem PassesOver.append {operator text text' : List Char} (hfirst : PassesOver operator text)
    (hsecond : PassesOver operator text') : PassesOver operator (text ++ text') := by
  intro before rest
  rw [List.append_assoc, hfirst, hsecond, List.reverse_append, List.append_assoc]

theorem passesOver_singleton {first c : Char} (hfirst : c ≠ first) (hopen : c ≠ '(')
    (hclose : c ≠ ')') (tail : List Char) : PassesOver (first :: tail) [c] := by
  intro before rest
  have hbegins : (first :: tail).isPrefixOf (c :: rest) = false := by
    simp [List.isPrefixOf, Ne.symm hfirst]
  exact splitTopFrom_other hopen hclose (Or.inr hbegins)

theorem passesOver_of_forall {first : Char} {text : List Char}
    (htext : ∀ c ∈ text, c ≠ first ∧ c ≠ '(' ∧ c ≠ ')') (tail : List Char) :
    PassesOver (first :: tail) text := by
  induction text with
  | nil => exact passesOver_nil _
  | cons c text ih =>
      obtain ⟨hfirst, hopen, hclose⟩ := htext c List.mem_cons_self
      exact (passesOver_singleton hfirst hopen hclose tail).append
        (ih fun d hd => htext d (List.mem_cons_of_mem c hd))

theorem splitTopFrom_balanced (operator : List Char) {depth : Nat} {text : List Char}
    (hbalanced : balancedFrom depth text = true) (before rest : List Char) :
    splitTopFrom operator before (depth + 1) (text ++ rest) =
      splitTopFrom operator (text.reverse ++ before) 1 rest := by
  induction text generalizing depth before with
  | nil =>
      obtain rfl : depth = 0 := by simpa [balancedFrom] using hbalanced
      rfl
  | cons c text ih =>
      rw [List.cons_append, List.reverse_cons, List.append_assoc]
      rcases balancedFrom_cons_cases hbalanced with
        ⟨rfl, hnext⟩ | ⟨below, rfl, rfl, hnext⟩ | ⟨hopen, hclose, hnext⟩
      · rw [splitTopFrom_open]
        exact ih hnext ('(' :: before)
      · have hdepth : ((below + 1 : Nat) : Int) + 1 - 1 = (below : Int) + 1 := by omega
        rw [splitTopFrom_close, hdepth]
        exact ih hnext (')' :: before)
      · rw [splitTopFrom_other hopen hclose (Or.inl (by omega))]
        exact ih hnext (c :: before)

theorem passesOver_parenthesized (operator : List Char) {text : List Char}
    (htext : isBalanced text = true) : PassesOver operator ('(' :: (text ++ [')'])) := by
  intro before rest
  have hinside := splitTopFrom_balanced operator htext ('(' :: before) (')' :: rest)
  rw [List.cons_append, List.append_assoc, splitTopFrom_open]
  refine hinside.trans ?_
  rw [splitTopFrom_close]
  simp

theorem PassesOver.splitTop?_eq_none {operator text : List Char}
    (hpasses : PassesOver operator text) (hoperator : operator ≠ []) :
    splitTop? text operator = none := by
  have hsearch := hpasses [] []
  rw [List.append_nil, splitTopFrom, if_neg (by simpa using hoperator)] at hsearch
  unfold splitTop? splitTop
  split
  · rename_i hparts
    split at hparts
    · contradiction
    · rw [hsearch] at hparts
      contradiction
  · rfl
  · rfl

/-- Where the operator stands outside parentheses the text is split, unless a side is empty or the
arrow belongs to a double arrow. -/
theorem splitTopFrom_found {first : Char} {tail before rest : List Char} (hopen : first ≠ '(')
    (hclose : first ≠ ')') (hbegins : (first :: tail).isPrefixOf (first :: rest) = true)
    (hsingle : first :: tail = arrow → before.head? ≠ some '<') (hbefore : before ≠ [])
    (hrest : tail.length < rest.length) :
    splitTopFrom (first :: tail) before 0 (first :: rest) =
      .parts before.reverse (rest.drop tail.length) := by
  have hdouble : ((first :: tail == arrow) && (before.head? == some '<')) = false := by
    by_cases harrow : first :: tail = arrow
    · simpa [harrow] using hsingle harrow
    · simp [harrow]
  have hright : (rest.drop tail.length).isEmpty = false := by
    rw [List.isEmpty_eq_false_iff, Ne, List.drop_eq_nil_iff]
    omega
  rw [splitTopFrom]
  simp [hopen, hclose, hbegins, hdouble, hbefore, hright]

theorem PassesOver.splitTop?_eq_some {first : Char} {tail text rest : List Char}
    (hpasses : PassesOver (first :: tail) text) (hopen : first ≠ '(') (hclose : first ≠ ')')
    (hsome : text ≠ []) (hsingle : first :: tail = arrow → text.getLast? ≠ some '<')
    (hrest : rest ≠ []) :
    splitTop? (text ++ (first :: tail ++ rest)) (first :: tail) = some (text, rest) := by
  have hlength : tail.length < (tail ++ rest).length := by
    rw [List.length_append]
    exact Nat.lt_add_of_pos_right (List.length_pos_iff.mpr hrest)
  have hbegins : (first :: tail).isPrefixOf (first :: (tail ++ rest)) = true :=
    List.isPrefixOf_iff_prefix.mpr (List.prefix_append _ _)
  have hfound : splitTopFrom (first :: tail) text.reverse 0 (first :: (tail ++ rest)) = _ :=
    splitTopFrom_found hopen hclose hbegins (by simpa using hsingle) (by simpa using hsome) hlength
  have hsearch := hpasses [] (first :: tail ++ rest)
  rw [List.append_nil, List.cons_append, hfound, List.reverse_reverse, List.drop_left] at hsearch
  rw [splitTop?, splitTop, if_neg (by simp), List.cons_append, hsearch]

/-- Whatever stands before it outside parentheses, an operator after a balanced text is a place to
split at, if not the first one. -/
theorem exists_splitTopFrom {first : Char} {tail rest : List Char} (hopen : first ≠ '(')
    (hclose : first ≠ ')') (hdifferent : first :: tail ≠ arrow) (hrest : rest ≠ []) {depth : Nat}
    {text before : List Char} (hbalanced : balancedFrom depth text = true) (hbefore : before ≠ []) :
    ∃ left right, splitTopFrom (first :: tail) before depth (text ++ (first :: tail ++ rest)) =
      .parts left right := by
  have hpositive := List.length_pos_iff.mpr hrest
  induction text generalizing depth before with
  | nil =>
      obtain rfl : depth = 0 := by simpa [balancedFrom] using hbalanced
      rw [List.nil_append, List.cons_append]
      refine ⟨_, _, splitTopFrom_found hopen hclose ?_ (fun h => absurd h hdifferent) hbefore ?_⟩
      · exact List.isPrefixOf_iff_prefix.mpr (List.prefix_append _ _)
      · rw [List.length_append]
        omega
  | cons c text ih =>
      rw [List.cons_append]
      rcases balancedFrom_cons_cases hbalanced with
        ⟨rfl, hnext⟩ | ⟨below, rfl, rfl, hnext⟩ | ⟨hc, hc', hnext⟩
      · rw [splitTopFrom_open]
        exact ih hnext (List.cons_ne_nil _ _)
      · have hdepth : ((below + 1 : Nat) : Int) - 1 = below := by omega
        rw [splitTopFrom_close, hdepth]
        exact ih hnext (List.cons_ne_nil _ _)
      · by_cases hbegins :
            (first :: tail).isPrefixOf (c :: (text ++ (first :: tail ++ rest))) = true
        · rcases Nat.eq_zero_or_pos depth with rfl | hdepth
          · obtain ⟨rfl, -⟩ := List.cons_prefix_cons.mp (List.isPrefixOf_iff_prefix.mp hbegins)
            refine ⟨_, _, splitTopFrom_found hopen hclose hbegins
              (fun h => absurd h hdifferent) hbefore ?_⟩
            simp only [List.length_append, List.length_cons]
            omega
          · rw [splitTopFrom_other hc hc' (Or.inl (by omega))]
            exact ih hnext (List.cons_ne_nil _ _)
        · rw [splitTopFrom_other hc hc' (Or.inr (Bool.eq_false_iff.mpr hbegins))]
          exact ih hnext (List.cons_ne_nil _ _)

theorem isSome_splitTop? {first : Char} {tail text rest : List Char} (hopen : first ≠ '(')
    (hclose : first ≠ ')') (hdifferent : first :: tail ≠ arrow) (hsome : text ≠ [])
    (hhead : text.head? ≠ some first) (hbalanced : isBalanced text = true) (hrest : rest ≠ []) :
    (splitTop? (text ++ (first :: tail ++ rest)) (first :: tail)).isSome = true := by
  cases text with
  | nil => exact absurd rfl hsome
  | cons c text =>
      have hc : c ≠ first := by simpa using hhead
      have hstep : ∃ depth : Nat, balancedFrom depth text = true ∧
          splitTopFrom (first :: tail) [] 0 (c :: (text ++ (first :: tail ++ rest))) =
            splitTopFrom (first :: tail) [c] depth (text ++ (first :: tail ++ rest)) := by
        rcases balancedFrom_cons_cases hbalanced with
          ⟨rfl, hnext⟩ | ⟨below, _, habsurd, _⟩ | ⟨hc', hc'', hnext⟩
        · exact ⟨1, hnext, splitTopFrom_open _ _ _ _⟩
        · contradiction
        · refine ⟨0, hnext, splitTopFrom_other hc' hc'' (Or.inr ?_)⟩
          simp [List.isPrefixOf, Ne.symm hc]
      obtain ⟨depth, hnext, hsearch⟩ := hstep
      obtain ⟨left, right, hparts⟩ := exists_splitTopFrom hopen hclose hdifferent hrest hnext
        (List.cons_ne_nil c [])
      rw [splitTop?, splitTop, List.cons_append, if_neg (by simp), hsearch, hparts]
      rfl

/-- Balanced text in which no operator outside parentheses begins with one of these characters. -/
structure IsClear (signs : List Char) (text : List Char) : Prop where
  isBalanced : isBalanced text = true
  passesOver : ∀ first ∈ signs, ∀ tail, PassesOver (first :: tail) text

namespace IsClear

variable {signs signs' : List Char} {text text' : List Char}

theorem mono (hclear : IsClear signs text) (hsubset : signs' ⊆ signs) : IsClear signs' text :=
  ⟨hclear.isBalanced, fun first hfirst => hclear.passesOver first (hsubset hfirst)⟩

theorem append (hclear : IsClear signs text) (hclear' : IsClear signs text') :
    IsClear signs (text ++ text') :=
  ⟨isBalanced_append hclear.isBalanced hclear'.isBalanced, fun first hfirst tail =>
    (hclear.passesOver first hfirst tail).append (hclear'.passesOver first hfirst tail)⟩

theorem of_forall (htext : ∀ c ∈ text, c ∉ signs ∧ c ≠ '(' ∧ c ≠ ')') : IsClear signs text := by
  refine ⟨isBalanced_of_no_parens fun c hc => (htext c hc).2, ?_⟩
  intro first hfirst tail
  refine passesOver_of_forall ?_ tail
  intro c hc
  refine ⟨?_, (htext c hc).2⟩
  rintro rfl
  exact (htext c hc).1 hfirst

theorem parenthesized (signs : List Char) (htext : Text.isBalanced text = true) :
    IsClear signs ('(' :: (text ++ [')'])) :=
  ⟨isBalanced_parenthesized htext, fun _ _ _ => passesOver_parenthesized _ htext⟩

end IsClear

section Last

variable {mark : Char} {text text' : List Char}

theorem splitLastFrom_close (mark : Char) (after before : List Char) (depth : Int) :
    splitLastFrom mark after depth (')' :: before) =
      splitLastFrom mark (')' :: after) (depth + 1) before := by
  simp [splitLastFrom]

theorem splitLastFrom_open (mark : Char) (after before : List Char) (depth : Int) :
    splitLastFrom mark after depth ('(' :: before) =
      splitLastFrom mark ('(' :: after) (depth - 1) before := by
  simp [splitLastFrom]

theorem splitLastFrom_other {after before : List Char} {depth : Int} {c : Char} (hopen : c ≠ '(')
    (hclose : c ≠ ')') (hnone : depth ≠ 0 ∨ c ≠ mark) :
    splitLastFrom mark after depth (c :: before) =
      splitLastFrom mark (c :: after) depth before := by
  have hpassed : (depth == 0 && c == mark) = false := by
    rcases hnone with hdepth | hmark
    · simp [hdepth]
    · simp [hmark]
  simp [splitLastFrom, hopen, hclose, hpassed]

/-- The search from the end goes on before these characters as if it had begun there. -/
def PassesBack (mark : Char) (text : List Char) : Prop :=
  ∀ after before, splitLastFrom mark after 0 (text.reverse ++ before) =
    splitLastFrom mark (text ++ after) 0 before

theorem passesBack_nil (mark : Char) : PassesBack mark [] := fun _ _ => rfl

theorem PassesBack.append (hfirst : PassesBack mark text) (hsecond : PassesBack mark text') :
    PassesBack mark (text ++ text') := by
  intro after before
  rw [List.reverse_append, List.append_assoc, hsecond, hfirst, List.append_assoc]

theorem passesBack_singleton {c : Char} (hmark : c ≠ mark) (hopen : c ≠ '(') (hclose : c ≠ ')') :
    PassesBack mark [c] :=
  fun _ _ => splitLastFrom_other hopen hclose (Or.inr hmark)

theorem passesBack_of_forall (htext : ∀ c ∈ text, c ≠ mark ∧ c ≠ '(' ∧ c ≠ ')') :
    PassesBack mark text := by
  induction text with
  | nil => exact passesBack_nil mark
  | cons c text ih =>
      obtain ⟨hmark, hopen, hclose⟩ := htext c List.mem_cons_self
      exact (passesBack_singleton hmark hopen hclose).append
        (ih fun d hd => htext d (List.mem_cons_of_mem c hd))

theorem splitLastFrom_balanced (mark : Char) {depth : Nat} {text : List Char}
    (hbalanced : balancedFrom depth text = true) (after before : List Char) :
    splitLastFrom mark after 1 (text.reverse ++ before) =
      splitLastFrom mark (text ++ after) (depth + 1) before := by
  induction text generalizing depth before with
  | nil =>
      obtain rfl : depth = 0 := by simpa [balancedFrom] using hbalanced
      rfl
  | cons c text ih =>
      rw [List.reverse_cons, List.append_assoc, List.singleton_append]
      rcases balancedFrom_cons_cases hbalanced with
        ⟨rfl, hnext⟩ | ⟨below, rfl, rfl, hnext⟩ | ⟨hopen, hclose, hnext⟩
      · rw [ih hnext, splitLastFrom_open]
        simp
      · rw [ih hnext, splitLastFrom_close]
        simp
      · rw [ih hnext, splitLastFrom_other hopen hclose (Or.inl (by omega))]
        rfl

theorem passesBack_parenthesized (mark : Char) (htext : isBalanced text = true) :
    PassesBack mark ('(' :: (text ++ [')'])) := by
  intro after before
  have hinside := splitLastFrom_balanced mark htext (')' :: after) ('(' :: before)
  rw [splitLastFrom_open] at hinside
  simpa [splitLastFrom_close] using hinside

theorem PassesBack.splitLast?_eq_none (hpasses : PassesBack mark text) :
    splitLast? text mark = none := by
  have hsearch := hpasses [] []
  rwa [List.append_nil] at hsearch

theorem splitLastFrom_found {after before : List Char} (hopen : mark ≠ '(') (hclose : mark ≠ ')')
    (hbefore : before ≠ []) (hafter : after ≠ []) :
    splitLastFrom mark after 0 (mark :: before) = some (before.reverse, after) := by
  simp [splitLastFrom, hopen, hclose, hbefore, hafter]

theorem PassesBack.splitLast?_eq_some (hpasses : PassesBack mark text') (hopen : mark ≠ '(')
    (hclose : mark ≠ ')') (hleft : text ≠ []) (hright : text' ≠ []) :
    splitLast? (text ++ mark :: text') mark = some (text, text') := by
  have hsearch := hpasses [] (mark :: text.reverse)
  rw [List.append_nil, splitLastFrom_found hopen hclose (by simpa using hleft) hright,
    List.reverse_reverse] at hsearch
  rw [splitLast?, List.reverse_append, List.reverse_cons, List.append_assoc]
  exact hsearch

/-- The character stands somewhere outside parentheses. -/
def StandsOutside (mark : Char) (text : List Char) : Prop :=
  ∃ before after, text = before ++ mark :: after ∧ isBalanced before = true ∧
    isBalanced after = true

/-- In balanced text the search from the end finds the last place outside parentheses, or passes
over all of it. -/
theorem passesBack_or_exists_last (mark : Char) (htext : isBalanced text = true) :
    PassesBack mark text ∨ ∃ before after, text = before ++ mark :: after ∧
      isBalanced before = true ∧ isBalanced after = true ∧ PassesBack mark after := by
  refine balancedInduction ?nil ?other ?group htext
  case nil => exact Or.inl (passesBack_nil mark)
  case other =>
      intro c rest hopen hclose hrest ih
      rcases ih with hpasses | ⟨before, after, rfl, hbefore, hafter, hpasses⟩
      · by_cases hmark : c = mark
        · subst hmark
          exact Or.inr ⟨[], rest, rfl, rfl, hrest, hpasses⟩
        · exact Or.inl ((passesBack_singleton hmark hopen hclose).append hpasses)
      · refine Or.inr ⟨c :: before, after, rfl, ?_, hafter, hpasses⟩
        have hsingle : isBalanced [c] = true := isBalanced_of_no_parens (by simp [hopen, hclose])
        exact isBalanced_append hsingle hbefore
  case group =>
      intro inner rest hinner _ ih
      rcases ih with hpasses | ⟨before, after, rfl, hbefore, hafter, hpasses⟩
      · exact Or.inl ((passesBack_parenthesized mark hinner).append hpasses)
      · refine Or.inr ⟨'(' :: (inner ++ [')']) ++ before, after, by simp, ?_, hafter, hpasses⟩
        exact isBalanced_append (isBalanced_parenthesized hinner) hbefore

theorem PassesBack.not_standsOutside (hpasses : PassesBack mark text) (hopen : mark ≠ '(')
    (hclose : mark ≠ ')') : ¬ StandsOutside mark text := by
  rintro ⟨before, after, rfl, -, hafter⟩
  -- With one character more on each side, the last place would be found.
  have hlast : ∃ before' after', before ++ mark :: after = before' ++ mark :: after' ∧
      PassesBack mark after' := by
    rcases passesBack_or_exists_last mark hafter with hall | ⟨first, last, rfl, -, -, hlast⟩
    · exact ⟨before, after, rfl, hall⟩
    · exact ⟨before ++ mark :: first, last, by simp, hlast⟩
  obtain ⟨before', after', heq, hlast⟩ := hlast
  have hnone := hpasses ['('] ['(']
  rw [heq, List.reverse_append, List.reverse_cons, List.append_assoc, List.append_assoc, hlast,
    List.singleton_append, splitLastFrom_found hopen hclose (by simp) (by simp)] at hnone
  simp [splitLastFrom] at hnone

/-- A balanced text with something on both sides is split if the character stands outside
parentheses, and only then. -/
theorem isSome_splitLast?_iff (hopen : mark ≠ '(') (hclose : mark ≠ ')')
    (htext : isBalanced text = true) (hhead : text.head? ≠ some mark)
    (hlast : text.getLast? ≠ some mark) :
    (splitLast? text mark).isSome = true ↔ StandsOutside mark text := by
  rcases passesBack_or_exists_last mark htext with
    hpasses | ⟨before, after, rfl, hbefore, hafter, hpasses⟩
  · simp [hpasses.splitLast?_eq_none, hpasses.not_standsOutside hopen hclose]
  · have hsomeBefore : before ≠ [] := by
      rintro rfl
      exact hhead rfl
    have hsomeAfter : after ≠ [] := by
      rintro rfl
      exact hlast (by simp)
    rw [hpasses.splitLast?_eq_some hopen hclose hsomeBefore hsomeAfter]
    exact iff_of_true rfl ⟨before, after, rfl, hbefore, hafter⟩

end Last

end Deduction.Text
