import Deduction.Text.Parens

namespace Deduction.Text

theorem balancedFrom_cons_cases {depth : Nat} {c : Char} {text : List Char}
    (hbalanced : balancedFrom depth (c :: text) = true) :
    c = '(' ∧ balancedFrom (depth + 1) text = true ∨
    (∃ below, c = ')' ∧ depth = below + 1 ∧ balancedFrom below text = true) ∨
    c ≠ '(' ∧ c ≠ ')' ∧ balancedFrom depth text = true := by
  unfold balancedFrom at hbalanced
  by_cases hopen : c = '('
  · exact Or.inl ⟨hopen, by simpa [hopen] using hbalanced⟩
  · by_cases hclose : c = ')'
    · subst hclose
      cases depth with
      | zero => simp at hbalanced
      | succ below => exact Or.inr (Or.inl ⟨below, rfl, rfl, by simpa using hbalanced⟩)
    · exact Or.inr (Or.inr ⟨hopen, hclose, by simpa [hopen, hclose] using hbalanced⟩)

theorem balancedFrom_append {depth : Nat} {text : List Char}
    (hbalanced : balancedFrom depth text = true) (extra : Nat) (rest : List Char) :
    balancedFrom (depth + extra) (text ++ rest) = balancedFrom extra rest := by
  induction text generalizing depth with
  | nil =>
      have hzero : depth = 0 := by simpa [balancedFrom] using hbalanced
      rw [hzero, Nat.zero_add, List.nil_append]
  | cons c text ih =>
      rcases balancedFrom_cons_cases hbalanced with
        ⟨rfl, hnext⟩ | ⟨below, rfl, rfl, hnext⟩ | ⟨hopen, hclose, hnext⟩
      · rw [← ih hnext, Nat.add_right_comm]
        simp [balancedFrom]
      · rw [← ih hnext, Nat.add_right_comm]
        simp [balancedFrom]
      · rw [← ih hnext]
        simp [balancedFrom, hopen, hclose]

theorem isBalanced_append {text rest : List Char} (htext : isBalanced text = true)
    (hrest : isBalanced rest = true) : isBalanced (text ++ rest) = true := by
  rw [isBalanced, ← hrest]
  exact balancedFrom_append htext 0 rest

theorem isBalanced_parenthesized {text : List Char} (htext : isBalanced text = true) :
    isBalanced ('(' :: (text ++ [')'])) = true := by
  change balancedFrom (0 + 1) (text ++ [')']) = true
  rw [balancedFrom_append htext]
  rfl

theorem balancedFrom_of_no_parens {text : List Char}
    (htext : ∀ c ∈ text, c ≠ '(' ∧ c ≠ ')') (depth : Nat) :
    balancedFrom depth text = (depth == 0) := by
  induction text with
  | nil => rfl
  | cons c text ih =>
      obtain ⟨hopen, hclose⟩ := htext c (List.mem_cons_self ..)
      simp only [balancedFrom, beq_iff_eq, hopen, hclose, if_false]
      exact ih fun c hc => htext c (List.mem_cons_of_mem _ hc)

theorem isBalanced_of_no_parens {text : List Char} (htext : ∀ c ∈ text, c ≠ '(' ∧ c ≠ ')') :
    isBalanced text = true :=
  balancedFrom_of_no_parens htext 0

/-- The end of a text that closes the open parentheses is fixed by the parenthesis after it. -/
theorem balancedFrom_close_unique {depth : Nat} {first second : List Char}
    (hfirst : balancedFrom depth first = true) (hsecond : balancedFrom depth second = true)
    {rest rest' : List Char} (heq : first ++ ')' :: rest = second ++ ')' :: rest') :
    first = second ∧ rest = rest' := by
  have hstop : ∀ {depth : Nat} {tail : List Char},
      balancedFrom depth [] = true → balancedFrom depth (')' :: tail) = false := by
    intro depth tail hnil
    have hzero : depth = 0 := by simpa [balancedFrom] using hnil
    rw [hzero]
    rfl
  induction first generalizing depth second with
  | nil =>
      cases second with
      | nil => simpa using heq
      | cons c second =>
          obtain ⟨rfl, -⟩ := List.cons.inj heq
          rw [hstop hfirst] at hsecond
          contradiction
  | cons c first ih =>
      cases second with
      | nil =>
          obtain ⟨rfl, -⟩ := List.cons.inj heq
          rw [hstop hsecond] at hfirst
          contradiction
      | cons c' second =>
          obtain ⟨rfl, htails⟩ := List.cons.inj heq
          have hnext : ∃ next, balancedFrom next first = true ∧
              balancedFrom next second = true := by
            rcases balancedFrom_cons_cases hfirst with
              ⟨rfl, hnext⟩ | ⟨below, rfl, rfl, hnext⟩ | ⟨hopen, hclose, hnext⟩
            · exact ⟨depth + 1, hnext, by simpa [balancedFrom] using hsecond⟩
            · exact ⟨below, hnext, by simpa [balancedFrom] using hsecond⟩
            · exact ⟨depth, hnext, by simpa [balancedFrom, hopen, hclose] using hsecond⟩
          obtain ⟨next, hfirstNext, hsecondNext⟩ := hnext
          obtain ⟨rfl, hrest⟩ := ih hfirstNext hsecondNext htails
          exact ⟨rfl, hrest⟩

theorem exists_close_of_balancedFrom {inside depth : Nat} {text : List Char}
    (hbalanced : balancedFrom (inside + 1 + depth) text = true) :
    ∃ first rest, text = first ++ ')' :: rest ∧ balancedFrom inside first = true ∧
      balancedFrom depth rest = true := by
  induction text generalizing inside with
  | nil => simp [balancedFrom] at hbalanced
  | cons c text ih =>
      rcases balancedFrom_cons_cases hbalanced with
        ⟨rfl, hnext⟩ | ⟨below, rfl, hbelow, hnext⟩ | ⟨hopen, hclose, hnext⟩
      · rw [Nat.add_right_comm] at hnext
        obtain ⟨first, rest, rfl, hfirst, hrest⟩ := ih hnext
        exact ⟨'(' :: first, rest, rfl, by simpa [balancedFrom] using hfirst, hrest⟩
      · cases inside with
        | zero =>
            obtain rfl : below = depth := by omega
            exact ⟨[], text, rfl, rfl, hnext⟩
        | succ inside =>
            obtain rfl : below = inside + 1 + depth := by omega
            obtain ⟨first, rest, rfl, hfirst, hrest⟩ := ih hnext
            exact ⟨')' :: first, rest, rfl, by simpa [balancedFrom] using hfirst, hrest⟩
      · obtain ⟨first, rest, rfl, hfirst, hrest⟩ := ih hnext
        exact ⟨c :: first, rest, rfl, by simpa [balancedFrom, hopen, hclose] using hfirst, hrest⟩

/-- Balanced texts are built of texts in parentheses and of characters between them. -/
@[elab_as_elim]
theorem balancedInduction {motive : List Char → Prop} (nil : motive [])
    (other : ∀ c rest, c ≠ '(' → c ≠ ')' → isBalanced rest = true → motive rest →
      motive (c :: rest))
    (group : ∀ inner rest, isBalanced inner = true → isBalanced rest = true → motive rest →
      motive ('(' :: (inner ++ [')']) ++ rest))
    {text : List Char} (htext : isBalanced text = true) : motive text := by
  induction hlength : text.length using Nat.strongRecOn generalizing text with
  | _ length ih =>
      cases text with
      | nil => exact nil
      | cons c text =>
          rw [List.length_cons] at hlength
          rcases balancedFrom_cons_cases htext with
            ⟨rfl, hnext⟩ | ⟨below, rfl, habsurd, hnext⟩ | ⟨hopen, hclose, hnext⟩
          · have hopened : balancedFrom (0 + 1 + 0) text = true := hnext
            obtain ⟨inner, rest, rfl, hinner, hrest⟩ := exists_close_of_balancedFrom hopened
            rw [List.length_append, List.length_cons] at hlength
            have hgroup := group inner rest hinner hrest (ih rest.length (by omega) hrest rfl)
            rwa [List.cons_append, List.append_assoc] at hgroup
          · contradiction
          · exact other c text hopen hclose hnext (ih text.length (by omega) hnext rfl)

theorem closesEarly_append {depth : Nat} {text rest : List Char}
    (hbalanced : balancedFrom (depth + 1) text = true) (hrest : rest ≠ []) :
    closesEarly (depth + 1) (text ++ rest) = true := by
  induction text generalizing depth with
  | nil => simp [balancedFrom] at hbalanced
  | cons c text ih =>
      have hmore : (text ++ rest).isEmpty = false := by simp [hrest]
      rw [List.cons_append, closesEarly, hmore]
      rcases balancedFrom_cons_cases hbalanced with
        ⟨rfl, hnext⟩ | ⟨below, rfl, hdepth, hnext⟩ | ⟨hopen, hclose, hnext⟩
      · simpa using ih hnext
      · obtain rfl : depth = below := by omega
        cases depth with
        | zero => simp
        | succ depth => simpa using ih hnext
      · simpa [hopen, hclose] using ih hnext

theorem closesEarly_close {depth : Nat} {text : List Char}
    (hbalanced : balancedFrom depth text = true) :
    closesEarly (depth + 1) (text ++ [')']) = false := by
  induction text generalizing depth with
  | nil => rfl
  | cons c text ih =>
      have hmore : (text ++ [')']).isEmpty = false := by simp
      rw [List.cons_append, closesEarly, hmore]
      rcases balancedFrom_cons_cases hbalanced with
        ⟨rfl, hnext⟩ | ⟨below, rfl, rfl, hnext⟩ | ⟨hopen, hclose, hnext⟩
      · simpa using ih hnext
      · simpa using ih hnext
      · simpa [hopen, hclose] using ih hnext

theorem isEnclosed_parenthesized {text : List Char} (htext : isBalanced text = true) :
    isEnclosed ('(' :: (text ++ [')'])) = true := by
  have hclose : closesEarly 0 ('(' :: (text ++ [')'])) = false := by
    have hmore : (text ++ [')']).isEmpty = false := by simp
    rw [closesEarly, hmore]
    exact closesEarly_close htext
  have hlast : ('(' :: (text ++ [')'])).getLast? = some ')' := by
    rw [← List.cons_append, List.getLast?_concat]
  rw [isEnclosed, hlast, hclose]
  rfl

theorem stripOuter_parenthesized {text : List Char} (htext : isBalanced text = true) :
    stripOuter ('(' :: (text ++ [')'])) = stripOuter text := by
  rw [stripOuter, if_pos (isEnclosed_parenthesized htext), List.tail_cons, List.dropLast_concat]

theorem length_stripOuter_le (text : List Char) : (stripOuter text).length ≤ text.length := by
  fun_induction stripOuter text with
  | case1 text henclosed ih =>
      rw [List.length_dropLast, List.length_tail] at ih
      omega
  | case2 => exact Nat.le_refl _

theorem stripOuter_stripOuter (text : List Char) :
    stripOuter (stripOuter text) = stripOuter text := by
  fun_induction stripOuter text with
  | case1 text henclosed ih => exact ih
  | case2 text hbare => exact stripOuter_of_not_enclosed (Bool.eq_false_iff.mpr hbare)

theorem stripOuter_parenthesized_ne {text : List Char} (htext : isBalanced text = true) :
    stripOuter ('(' :: (text ++ [')'])) ≠ '(' :: (text ++ [')']) := by
  intro hsame
  have hlength := length_stripOuter_le text
  rw [← stripOuter_parenthesized htext, hsame] at hlength
  simp only [List.length_cons, List.length_append, List.length_nil] at hlength
  omega

theorem stripOuter_of_head? {text : List Char} (hhead : text.head? ≠ some '(') :
    stripOuter text = text := by
  apply stripOuter_of_not_enclosed
  simp [isEnclosed, hhead]

/-- No parentheses enclose a balanced text together with what comes after it. -/
theorem stripOuter_append {text rest : List Char} (hsome : text ≠ [])
    (htext : isBalanced text = true) (hrest : rest ≠ []) :
    stripOuter (text ++ rest) = text ++ rest := by
  cases text with
  | nil => exact absurd rfl hsome
  | cons c text =>
      by_cases hopen : c = '('
      · subst hopen
        apply stripOuter_of_not_enclosed
        have hmore : (text ++ rest).isEmpty = false := by simp [hrest]
        have hearly : closesEarly 0 ('(' :: (text ++ rest)) = true := by
          rw [closesEarly, hmore]
          exact closesEarly_append htext hrest
        rw [isEnclosed, List.cons_append, hearly]
        simp
      · apply stripOuter_of_head?
        simpa using hopen

end Deduction.Text
