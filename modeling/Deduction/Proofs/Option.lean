namespace Deduction

section Lists

variable {α β : Type} {f : α → Option β} {inputs : List α} {outputs : List β}

theorem mapM_eq_some_iff : inputs.mapM f = some outputs ↔ inputs.map f = outputs.map some := by
  induction inputs generalizing outputs with
  | nil => cases outputs <;> simp
  | cons first rest ih =>
      simp only [List.mapM_cons, Option.pure_def, Option.bind_eq_bind, Option.bind_eq_some_iff,
        Option.some.injEq, ih, List.map_cons]
      constructor
      · rintro ⟨head, hhead, tail, htail, rfl⟩
        simp [hhead, htail]
      · intro hmap
        cases outputs with
        | nil => contradiction
        | cons head tail =>
            rw [List.map_cons, List.cons.injEq] at hmap
            exact ⟨head, hmap.1, tail, hmap.2, rfl⟩

theorem length_of_mapM (houtputs : inputs.mapM f = some outputs) :
    outputs.length = inputs.length := by
  have hlengths := congrArg List.length (mapM_eq_some_iff.mp houtputs)
  rw [List.length_map, List.length_map] at hlengths
  exact hlengths.symm

theorem exists_output_of_mapM (houtputs : inputs.mapM f = some outputs) {input : α}
    (hinput : input ∈ inputs) : ∃ output ∈ outputs, f input = some output := by
  have hmem : f input ∈ inputs.map f := List.mem_map_of_mem hinput
  rw [mapM_eq_some_iff.mp houtputs] at hmem
  obtain ⟨output, houtput, hstep⟩ := List.mem_map.mp hmem
  exact ⟨output, houtput, hstep.symm⟩

theorem exists_input_of_mapM (houtputs : inputs.mapM f = some outputs) {output : β}
    (houtput : output ∈ outputs) : ∃ input ∈ inputs, f input = some output := by
  have hmem : some output ∈ outputs.map some := List.mem_map_of_mem houtput
  rw [← mapM_eq_some_iff.mp houtputs] at hmem
  exact List.mem_map.mp hmem

theorem mapM_congr {g : α → Option β} (hsteps : ∀ input ∈ inputs, f input = g input) :
    inputs.mapM f = inputs.mapM g := by
  apply Option.ext
  intro outputs
  rw [mapM_eq_some_iff, mapM_eq_some_iff, List.map_congr_left hsteps]

theorem isSome_mapM (hsteps : ∀ input ∈ inputs, (f input).isSome = true) :
    (inputs.mapM f).isSome = true := by
  induction inputs with
  | nil => rfl
  | cons first rest ih =>
      obtain ⟨head, hhead⟩ := Option.isSome_iff_exists.mp (hsteps first List.mem_cons_self)
      obtain ⟨tail, htail⟩ := Option.isSome_iff_exists.mp
        (ih fun input hinput => hsteps input (List.mem_cons_of_mem first hinput))
      simp [List.mapM_cons, hhead, htail]

theorem mapM_map_of_step {γ δ : Type} {before : α → γ} {after : β → δ} {g : γ → Option δ}
    (hstep : ∀ input, g (before input) = (f input).map after) (inputs : List α) :
    (inputs.map before).mapM g = (inputs.mapM f).map (List.map after) := by
  induction inputs with
  | nil => rfl
  | cons first rest ih =>
      rw [List.map_cons, List.mapM_cons, List.mapM_cons, hstep, ih]
      cases f first with
      | none => rfl
      | some head => cases rest.mapM f <;> rfl

end Lists

end Deduction
