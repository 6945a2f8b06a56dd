import Deduction.Proofs.Frame.Scope

namespace Deduction

/-- A line with nothing but its depth. -/
def Line.bare (line : Line) : Line :=
  { label := "", depth := line.depth }

theorem Line.level_bare (line : Line) : line.bare.level = line.level := rfl

namespace Frame

/-- A frame without labels and text. -/
def bare (frame : Frame) : Frame :=
  { level := frame.level
    start := frame.start
    startLabel := ""
    stop := frame.stop
    stopLabel := frame.stopLabel.map fun _ => "" }

@[simp] theorem level_bare (frame : Frame) : frame.bare.level = frame.level := rfl

@[simp] theorem start_bare (frame : Frame) : frame.bare.start = frame.start := rfl

@[simp] theorem stop_bare (frame : Frame) : frame.bare.stop = frame.stop := rfl

@[simp] theorem last_bare (frame : Frame) : frame.bare.last = frame.last := rfl

@[simp] theorem covers_bare (frame : Frame) (position : Int) :
    frame.bare.covers position = frame.covers position := rfl

@[simp] theorem isOpen_bare (frame : Frame) : frame.bare.isOpen = frame.isOpen := rfl

theorem endAt_bare (position : Nat) (label : String) (frame : Frame) :
    frame.bare.endAt position "" = (frame.endAt position label).bare := rfl

theorem openLevels_bare (position : Nat) (line : Line) (previous : Nat) (frames : List Frame) :
    openLevels position line.bare previous (frames.map bare) =
      (openLevels position line previous frames).map bare := by
  rw [openLevels, openLevels, Line.level_bare]
  exact List.foldl_hom (List.map bare) fun _ _ => rfl

theorem closeInnermost_bare (position : Nat) (label : String) (frames : List Frame) :
    closeInnermost position "" (frames.map bare) =
      (closeInnermost position label frames).map bare := by
  induction frames with
  | nil => rfl
  | cons frame rest ih =>
      rw [List.map_cons, closeInnermost, closeInnermost, isOpen_bare]
      split
      · rw [List.map_cons, endAt_bare position label]
      · rw [List.map_cons, ih]

theorem closeLevels_bare (position : Nat) (label : String) (count : Nat) (frames : List Frame) :
    closeLevels position "" count (frames.map bare) =
      (closeLevels position label count frames).map bare := by
  induction count generalizing frames with
  | zero => rfl
  | succ count ih => rw [closeLevels, closeLevels, closeInnermost_bare position label, ih]

theorem closeAll_bare (position : Nat) (label : String) (frames : List Frame) :
    closeAll position "" (frames.map bare) = (closeAll position label frames).map bare := by
  rw [closeAll, closeAll, List.map_map, List.map_map]
  apply List.map_congr_left
  intro frame _
  rw [Function.comp_apply, Function.comp_apply, isOpen_bare, apply_ite bare,
    endAt_bare position label]

theorem advance_bare (position : Nat) (line next : Line) (frames : List Frame) :
    advance position line.bare next.bare (frames.map bare) =
      (advance position line next frames).map bare := by
  rw [advance, advance, Line.level_bare, Line.level_bare]
  split
  · exact openLevels_bare (position + 1) next line.level frames
  · exact closeLevels_bare position line.label (line.level - next.level) frames

theorem advanceThrough_bare (position : Nat) (line : Line) (rest : List Line)
    (frames : List Frame) :
    advanceThrough position line.bare (rest.map Line.bare) (frames.map bare) =
      (advanceThrough position line rest frames).map bare := by
  induction rest generalizing position line frames with
  | nil => exact closeAll_bare position line.label frames
  | cons next rest ih => rw [List.map_cons, advanceThrough, advanceThrough, advance_bare, ih]

theorem ofLines_bare (lines : List Line) :
    ofLines (lines.map Line.bare) = (ofLines lines).map bare := by
  cases lines with
  | nil => rfl
  | cons first rest =>
      have hopened : openLevels 0 first.bare 0 [] = (openLevels 0 first 0 []).map bare :=
        openLevels_bare 0 first 0 []
      rw [List.map_cons, ofLines, ofLines, hopened, advanceThrough_bare, List.map_reverse]

section Scope

variable (frames : List Frame)

theorem around_bare (position : Int) :
    around (frames.map bare) position = (around frames position).map bare := by
  rw [around, around, List.filter_map]
  rfl

theorem isAccessible_bare (cited citing : Int) :
    isAccessible (frames.map bare) cited citing = isAccessible frames cited citing := by
  rw [isAccessible, isAccessible, around_bare, List.all_map]
  rfl

theorem deepest?_bare : deepest? (frames.map bare) = (deepest? frames).map bare := by
  induction frames with
  | nil => rfl
  | cons frame rest ih =>
      rw [List.map_cons, deepest?, deepest?, ih]
      cases deepest? rest with
      | none => rfl
      | some other =>
          dsimp only
          rw [apply_ite (Option.map bare)]
          rfl

theorem startingAt?_bare (position : Int) :
    startingAt? (frames.map bare) position = (startingAt? frames position).map bare := by
  rw [startingAt?, startingAt?, List.filter_map, deepest?_bare]
  rfl

theorem isDischargeable_bare (position depth : Int) (frame : Frame) :
    isDischargeable (frames.map bare) position depth frame.bare =
      isDischargeable frames position depth frame := by
  rw [isDischargeable, isDischargeable, level_bare, start_bare, stop_bare, around_bare]
  cases frame.stop with
  | none => rfl
  | some stop =>
      dsimp only
      rw [List.filter_map, List.all_map]
      rfl

theorem dischargedAt_bare (position depth : Int) :
    dischargedAt (frames.map bare) position depth =
      (dischargedAt frames position depth).map bare := by
  have hfilter : (frames.map bare).filter (isDischargeable (frames.map bare) position depth) =
      (frames.filter (isDischargeable frames position depth)).map bare := by
    rw [List.filter_map]
    congr 1
    apply List.filter_congr
    intro frame _
    exact isDischargeable_bare frames position depth frame
  rw [dischargedAt, dischargedAt, hfilter]
  apply (List.map_mergeSort _).symm
  intro first _ second _
  rfl

theorem isAtLevel_bare (frame : Frame) (position : Int) :
    isAtLevel (frames.map bare) frame.bare position = isAtLevel frames frame position := by
  rw [isAtLevel, isAtLevel, around_bare, List.any_map]
  rfl

theorem contains_dischargedAt_bare {frame : Frame} (hframe : frame ∈ frames)
    (position depth : Int) :
    (dischargedAt (frames.map bare) position depth).contains frame.bare =
      (dischargedAt frames position depth).contains frame := by
  rw [Bool.eq_iff_iff, List.contains_iff_mem, List.contains_iff_mem, mem_dischargedAt,
    mem_dischargedAt, isDischargeable_bare]
  exact and_congr_left' (iff_of_true (List.mem_map_of_mem hframe) hframe)

end Scope

end Frame

end Deduction
