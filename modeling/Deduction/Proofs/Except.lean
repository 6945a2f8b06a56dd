namespace Deduction

section Steps

variable {ε α β : Type} {read : Except ε α} {next : α → Except ε β}

theorem ok_bind (found : α) : (Except.ok found : Except ε α) >>= next = next found :=
  rfl

theorem exists_of_bind_eq_ok {result : β} (heq : read >>= next = .ok result) :
    ∃ found, read = .ok found ∧ next found = .ok result := by
  cases read with
  | error error => contradiction
  | ok found => exact ⟨found, rfl, heq⟩

theorem bind_eq_error_iff {error : ε} :
    read >>= next = .error error ↔
      read = .error error ∨ ∃ found, read = .ok found ∧ next found = .error error := by
  cases read with
  | error found => simp [bind, Except.bind]
  | ok found => simp [bind, Except.bind]

theorem mapM_eq_error_iff {read : α → Except ε β} {items : List α} {error : ε} :
    items.mapM read = .error error ↔
      ∃ before item after, items = before ++ item :: after ∧
        (∀ other ∈ before, ∀ error, read other ≠ .error error) ∧ read item = .error error := by
  induction items with
  | nil => simp [pure, Except.pure]
  | cons first rest ih =>
      have hpure : ∀ elements : List β, (pure elements : Except ε (List β)) ≠ .error error := nofun
      simp only [List.mapM_cons, bind_eq_error_iff, ih, hpure, and_false, exists_false, or_false]
      constructor
      · rintro (hfirst | ⟨result, hfirst, before, item, after, rfl, hbefore, hitem⟩)
        · exact ⟨[], first, rest, rfl, by simp, hfirst⟩
        · refine ⟨first :: before, item, after, rfl, ?_, hitem⟩
          rw [List.forall_mem_cons]
          exact ⟨by simp [hfirst], hbefore⟩
      · rintro ⟨before, item, after, hitems, hbefore, hitem⟩
        cases before with
        | nil =>
            obtain ⟨rfl, rfl⟩ := List.cons.inj hitems
            exact Or.inl hitem
        | cons other before =>
            obtain ⟨rfl, rfl⟩ := List.cons.inj hitems
            rw [List.forall_mem_cons] at hbefore
            cases hfirst : read first with
            | error found => exact absurd hfirst (hbefore.1 found)
            | ok result =>
                exact Or.inr ⟨result, rfl, before, item, after, rfl, hbefore.2, hitem⟩

end Steps

section Evaluation

variable {ε α : Type} {result : Except ε α}

theorem eq_ok_of_toOption {value : α} (hvalue : result.toOption = some value) :
    result = .ok value := by
  cases result with
  | error error => contradiction
  | ok found => exact congrArg Except.ok (Option.some.inj hvalue)

theorem exists_eq_ok (hsome : result.toOption.isSome = true) : ∃ value, result = .ok value := by
  cases result with
  | error error => contradiction
  | ok value => exact ⟨value, rfl⟩

theorem exists_eq_error (hnone : result.toOption.isSome = false) :
    ∃ error, result = .error error := by
  cases result with
  | error error => exact ⟨error, rfl⟩
  | ok value => contradiction

end Evaluation

end Deduction
