import Deduction.Proofs.Frame.Scope

namespace Deduction.Frame

def endLevel (lines : List Line) : Nat :=
  levelBefore 0 lines lines.length

theorem levelAt_append {lines : List Line} {position : Nat} (hposition : position < lines.length)
    (more : List Line) : levelAt (lines ++ more) position = levelAt lines position := by
  rw [levelAt, levelAt, List.getElem?_append_left hposition]

theorem levelBefore_append {lines : List Line} {position : Nat}
    (hposition : position ≤ lines.length) (more : List Line) :
    levelBefore 0 (lines ++ more) position = levelBefore 0 lines position := by
  cases position with
  | zero => rfl
  | succ position => exact levelAt_append hposition more

theorem levelAt_snoc (lines : List Line) (line : Line) :
    levelAt (lines ++ [line]) lines.length = line.level :=
  levelAt_of_getElem? List.getElem?_concat_length

theorem endLevel_snoc (lines : List Line) (line : Line) :
    endLevel (lines ++ [line]) = line.level := by
  rw [endLevel, List.length_append, List.length_singleton]
  exact levelAt_snoc lines line

/-- The lines from `start` to `stop` are a subproof one level above `level`, and the line after them
closes it. -/
structure IsSubproof (lines : List Line) (level start stop : Nat) : Prop where
  before : levelBefore 0 lines start = level
  opens : levelAt lines start = level + 1
  run : StaysAbove lines (level + 1) start stop
  closes : levelAt lines (stop + 1) = level

theorem deepest?_eq_none {frames : List Frame} (hnone : deepest? frames = none) : frames = [] := by
  cases frames with
  | nil => rfl
  | cons frame rest =>
      rw [deepest?] at hnone
      split at hnone
      · contradiction
      · split at hnone <;> contradiction

theorem startingAt?_of_unique {frames : List Frame} {frame : Frame} {position : Nat}
    (hmem : frame ∈ frames) (hstart : frame.start = position)
    (hunique : ∀ other ∈ frames, other.start = position → other = frame) :
    startingAt? frames position = some frame := by
  have hall : ∀ other ∈ frames.filter (fun other => (other.start : Int) == position),
      other = frame := by
    intro other hother
    obtain ⟨hother, hposition⟩ := List.mem_filter.mp hother
    exact hunique other hother (Int.ofNat_inj.mp (beq_iff_eq.mp hposition))
  have hsome : frame ∈ frames.filter (fun other => (other.start : Int) == position) :=
    List.mem_filter.mpr ⟨hmem, by simp [hstart]⟩
  cases hdeepest : startingAt? frames position with
  | some found => rw [hall found (deepest?_mem hdeepest)]
  | none =>
      rw [startingAt?] at hdeepest
      rw [deepest?_eq_none hdeepest] at hsome
      contradiction

theorem notMem_dischargedAt_of_startingAt? {lines : List Line} {frame : Frame}
    {position citing level : Nat}
    (hstarting : startingAt? (ofLines lines) position = some frame)
    (hlevel : levelAt lines position ≤ level) :
    frame ∉ dischargedAt (ofLines lines) citing level := by
  intro hdischarged
  obtain ⟨hmem, hdischargeable⟩ := Frame.mem_dischargedAt.mp hdischarged
  have hspans := mem_ofLines_iff.mp hmem
  have hbelow := hspans.level_le ⟨Nat.le_refl _, hspans.run.run.ordered⟩
  have habove := (hspans.isDischargeable_iff_stays.mp hdischargeable).1
  rw [start_of_startingAt? hstarting] at hbelow
  omega

namespace IsSubproof

variable {lines : List Line} {level start stop : Nat}

theorem exists_frame (hsubproof : IsSubproof lines level start stop) :
    ∃ frame, Spans lines frame ∧ frame.level = level + 1 ∧ frame.start = start ∧
      frame.last = stop := by
  apply exists_frame_of_isMaximalRun (Nat.le_add_left 1 level)
  rw [isMaximalRun_iff (Nat.le_add_left 1 level)]
  exact ⟨hsubproof.run, by rw [hsubproof.before]; exact Nat.lt_succ_self level,
    by rw [hsubproof.closes]; exact Nat.lt_succ_self level⟩

theorem startingAt?_eq (hsubproof : IsSubproof lines level start stop) {frame : Frame}
    (hspans : Spans lines frame) (hlevel : frame.level = level + 1) (hstart : frame.start = start) :
    startingAt? (ofLines lines) start = some frame := by
  refine startingAt?_of_unique (mem_ofLines_iff.mpr hspans) hstart ?_
  intro other hother hposition
  have hother := mem_ofLines_iff.mp hother
  refine hother.eq hspans ?_ (hposition.trans hstart.symm)
  have hbefore := ((isMaximalRun_iff hother.positive).mp hother.run).2.1
  have hbelow := hother.level_le ⟨Nat.le_refl _, hother.run.run.ordered⟩
  rw [hposition, hsubproof.before] at hbefore
  rw [hposition, hsubproof.opens] at hbelow
  omega

theorem mem_dischargedAt (hsubproof : IsSubproof lines level start stop) {frame : Frame}
    (hspans : Spans lines frame) (hlevel : frame.level = level + 1) (hstart : frame.start = start)
    (hlast : frame.last = stop) :
    frame ∈ dischargedAt (ofLines lines) (stop + 1 : Nat) level := by
  refine Frame.mem_dischargedAt.mpr ⟨mem_ofLines_iff.mpr hspans, ?_⟩
  refine hspans.isDischargeable_iff_stays.mpr ⟨hlevel, by omega, ?_⟩
  intro between hfrom hto
  rcases Nat.eq_or_lt_of_le hto with rfl | hbefore
  · exact hsubproof.closes.ge
  · have habove := hsubproof.run.above between (by omega) (by omega)
    omega

end IsSubproof

end Deduction.Frame
