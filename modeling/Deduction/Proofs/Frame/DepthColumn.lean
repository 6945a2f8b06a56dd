import Deduction.Proof.Frame
import Mathlib.Data.Nat.Init

namespace Deduction.Frame

/-- The number of lines at the head of a list that stay at a level or above it. -/
def runLength (level : Nat) (lines : List Line) : Nat :=
  (lines.takeWhile fun line => level ≤ line.level).length

/-- Ends a frame after the run of its level, given a line at a position and the lines after it. -/
def endAfterRun (position : Nat) (line : Line) (rest : List Line) (frame : Frame) : Frame :=
  frame.endAt (position + runLength frame.level rest)
    (((line :: rest)[runLength frame.level rest]?.getD line).label)

/-- Ends a frame after the run of its level if it is still open. -/
def settle (position : Nat) (line : Line) (rest : List Line) (frame : Frame) : Frame :=
  if frame.isOpen then endAfterRun position line rest frame else frame

/-- The frames that open on the lines from a position on, `previous` being the level before. -/
def openedFrom : Nat → Nat → List Line → List Frame
  | _, _, [] => []
  | position, previous, line :: rest =>
      (List.range' (previous + 1) (line.level - previous)).map
          (fun level => endAfterRun position line rest (fresh position line level)) ++
        openedFrom (position + 1) line.level rest

/-- The levels of the open frames, in the order of the frames. -/
def pendingLevels (frames : List Frame) : List Nat :=
  (frames.filter isOpen).map level

theorem mem_pendingLevels {frames : List Frame} {frame : Frame} (hframe : frame ∈ frames)
    (hopen : frame.isOpen = true) : frame.level ∈ pendingLevels frames :=
  List.mem_map_of_mem (List.mem_filter.mpr ⟨hframe, hopen⟩)

@[simp] theorem isOpen_endAt (position : Nat) (label : String) (frame : Frame) :
    (frame.endAt position label).isOpen = false := rfl

theorem openLevels_eq (position : Nat) (line : Line) (previous : Nat) (frames : List Frame) :
    openLevels position line previous frames =
      ((List.range' (previous + 1) (line.level - previous)).map
        (fresh position line)).reverse ++ frames := by
  unfold openLevels
  generalize List.range' (previous + 1) (line.level - previous) = levels
  induction levels generalizing frames with
  | nil => rfl
  | cons level levels ih => simp [ih]

theorem runLength_cons_of_le {level : Nat} {line : Line} (hlevel : level ≤ line.level)
    (rest : List Line) : runLength level (line :: rest) = runLength level rest + 1 := by
  simp [runLength, hlevel]

theorem runLength_cons_of_lt {level : Nat} {line : Line} (hlevel : line.level < level)
    (rest : List Line) : runLength level (line :: rest) = 0 := by
  simp [runLength, hlevel]

theorem runLength_le_length (level : Nat) (lines : List Line) :
    runLength level lines ≤ lines.length :=
  (List.takeWhile_prefix _).length_le

theorem endAfterRun_cons_of_le {frame : Frame} {next : Line} (hlevel : frame.level ≤ next.level)
    (position : Nat) (line : Line) (rest : List Line) :
    endAfterRun position line (next :: rest) frame =
      endAfterRun (position + 1) next rest frame := by
  have hrun := runLength_cons_of_le hlevel rest
  have hbound : runLength frame.level rest < (next :: rest).length :=
    Nat.lt_succ_of_le (runLength_le_length frame.level rest)
  unfold endAfterRun
  rw [hrun, List.getElem?_cons_succ, List.getElem?_eq_getElem hbound]
  simp only [Option.getD_some]
  congr 1
  omega

theorem endAfterRun_cons_of_lt {frame : Frame} {next : Line} (hlevel : next.level < frame.level)
    (position : Nat) (line : Line) (rest : List Line) :
    endAfterRun position line (next :: rest) frame = frame.endAt position line.label := by
  unfold endAfterRun
  rw [runLength_cons_of_lt hlevel rest]
  simp

/-- Ends a frame that is open above a level. -/
def endAbove (bound position : Nat) (label : String) (frame : Frame) : Frame :=
  if frame.isOpen && decide (bound < frame.level) then frame.endAt position label else frame

theorem endAbove_of_le {bound : Nat} {frame : Frame} (hlevel : frame.level ≤ bound)
    (position : Nat) (label : String) : endAbove bound position label frame = frame := by
  simp [endAbove, Nat.not_lt.mpr hlevel]

theorem closeInnermost_eq_map {frames : List Frame} {bound : Nat} {lower : List Nat}
    (hpending : pendingLevels frames = (bound + 1) :: lower)
    (hlower : ∀ level ∈ lower, level ≤ bound) (position : Nat) (label : String) :
    closeInnermost position label frames = frames.map (endAbove bound position label) := by
  induction frames with
  | nil => rfl
  | cons frame rest ih =>
      unfold pendingLevels at hpending
      by_cases hopen : frame.isOpen = true
      · rw [List.filter_cons_of_pos hopen, List.map_cons, List.cons.injEq] at hpending
        obtain ⟨htop, hrest⟩ := hpending
        have hkept : ∀ other ∈ rest, endAbove bound position label other = id other := by
          intro other hother
          by_cases hopenOther : other.isOpen = true
          · apply endAbove_of_le
            apply hlower
            rw [← hrest]
            exact mem_pendingLevels hother hopenOther
          · simp [endAbove, hopenOther]
        rw [closeInnermost, if_pos hopen, List.map_cons, List.map_congr_left hkept]
        simp [endAbove, hopen, htop]
      · rw [List.filter_cons_of_neg hopen] at hpending
        rw [closeInnermost, if_neg hopen, ih hpending]
        simp [endAbove, hopen]

theorem pendingLevels_endAbove (bound position : Nat) (label : String) (frames : List Frame) :
    pendingLevels (frames.map (endAbove bound position label)) =
      (pendingLevels frames).filter fun level => level ≤ bound := by
  induction frames with
  | nil => rfl
  | cons frame rest ih =>
      unfold pendingLevels at ih ⊢
      by_cases hopen : frame.isOpen = true
      · by_cases hlevel : frame.level ≤ bound
        · rw [List.map_cons, endAbove_of_le hlevel, List.filter_cons_of_pos hopen,
            List.filter_cons_of_pos hopen, List.map_cons, List.map_cons,
            List.filter_cons_of_pos (by simpa using hlevel), ih]
        · simp [endAbove, hopen, hlevel, Nat.lt_of_not_le hlevel, ih]
      · simp [endAbove, hopen, ih]

theorem endAbove_endAbove {low high : Nat} (hle : low ≤ high) (position : Nat) (label : String)
    (frame : Frame) :
    endAbove low position label (endAbove high position label frame) =
      endAbove low position label frame := by
  by_cases hopen : frame.isOpen = true
  · by_cases hhigh : high < frame.level
    · simp [endAbove, hopen, hhigh, Nat.lt_of_le_of_lt hle hhigh]
    · rw [endAbove_of_le (Nat.not_lt.mp hhigh)]
  · simp [endAbove, hopen]

/-- The levels from one up to a bound, the highest first. -/
def levelsDownFrom (bound : Nat) : List Nat :=
  (List.range' 1 bound).reverse

theorem levelsDownFrom_succ (bound : Nat) :
    levelsDownFrom (bound + 1) = (bound + 1) :: levelsDownFrom bound := by
  simp [levelsDownFrom, List.range'_concat, Nat.add_comm]

theorem mem_levelsDownFrom {bound level : Nat} :
    level ∈ levelsDownFrom bound ↔ 1 ≤ level ∧ level ≤ bound := by
  simp [levelsDownFrom, List.mem_range'_1]
  omega

theorem filter_levelsDownFrom {low high : Nat} (hle : low ≤ high) :
    (levelsDownFrom high).filter (fun level => level ≤ low) = levelsDownFrom low := by
  induction high, hle using Nat.le_induction with
  | base =>
      apply List.filter_eq_self.mpr
      intro level hlevel
      simpa using (mem_levelsDownFrom.mp hlevel).2
  | succ high hle ih =>
      rw [levelsDownFrom_succ, List.filter_cons_of_neg (by simp; omega), ih]

theorem closeLevels_eq_map {frames : List Frame} {low count : Nat}
    (hpending : pendingLevels frames = levelsDownFrom (low + count)) (position : Nat)
    (label : String) :
    closeLevels position label count frames = frames.map (endAbove low position label) := by
  induction count generalizing frames with
  | zero =>
      have hkept : ∀ frame ∈ frames, endAbove low position label frame = id frame := by
        intro frame hframe
        by_cases hopen : frame.isOpen = true
        · apply endAbove_of_le
          have hmem := mem_pendingLevels hframe hopen
          rw [hpending] at hmem
          exact (mem_levelsDownFrom.mp hmem).2
        · simp [endAbove, hopen]
      rw [closeLevels, List.map_congr_left hkept, List.map_id]
  | succ count ih =>
      have hlower : ∀ level ∈ levelsDownFrom (low + count), level ≤ low + count :=
        fun level hlevel => (mem_levelsDownFrom.mp hlevel).2
      rw [← Nat.add_assoc, levelsDownFrom_succ] at hpending
      have hafter := pendingLevels_endAbove (low + count) position label frames
      rw [hpending, ← levelsDownFrom_succ, filter_levelsDownFrom (Nat.le_succ _)] at hafter
      rw [closeLevels, closeInnermost_eq_map hpending hlower, ih hafter, List.map_map]
      apply List.map_congr_left
      intro frame _
      exact endAbove_endAbove (Nat.le_add_right low count) position label frame

theorem pendingLevels_openLevels {frames : List Frame} {previous : Nat} {line : Line}
    (hpending : pendingLevels frames = levelsDownFrom previous) (hlevel : previous ≤ line.level)
    (position : Nat) :
    pendingLevels (openLevels position line previous frames) = levelsDownFrom line.level := by
  have hfresh : ∀ levels : List Nat,
      (levels.map (fresh position line)).reverse.filter isOpen =
        (levels.map (fresh position line)).reverse := by
    intro levels
    apply List.filter_eq_self.mpr
    intro frame hframe
    obtain ⟨level, _, rfl⟩ := List.mem_map.mp (List.mem_reverse.mp hframe)
    rfl
  have hlevels : ∀ levels : List Nat,
      (levels.map (fresh position line)).map level = levels := by
    intro levels
    simp [Function.comp_def, fresh]
  unfold pendingLevels at hpending ⊢
  rw [openLevels_eq, List.filter_append, hfresh, List.map_append, List.map_reverse, hlevels,
    hpending, levelsDownFrom, levelsDownFrom, ← List.reverse_append]
  rw [Nat.add_comm previous 1, List.range'_append_1, Nat.add_sub_cancel' hlevel]

/-- One step keeps the open frames a stack with one frame for each level down to the first. -/
theorem pendingLevels_advance {frames : List Frame} {line : Line}
    (hpending : pendingLevels frames = levelsDownFrom line.level) (position : Nat) (next : Line) :
    pendingLevels (advance position line next frames) = levelsDownFrom next.level := by
  unfold advance
  by_cases hrise : line.level < next.level
  · rw [if_pos hrise]
    exact pendingLevels_openLevels hpending (Nat.le_of_lt hrise) (position + 1)
  · have hfall : next.level ≤ line.level := Nat.not_lt.mp hrise
    have hsum : pendingLevels frames =
        levelsDownFrom (next.level + (line.level - next.level)) := by
      rw [Nat.add_sub_cancel' hfall]
      exact hpending
    rw [if_neg hrise, closeLevels_eq_map hsum, pendingLevels_endAbove, hpending,
      filter_levelsDownFrom hfall]

/-- One step leaves the end that each frame is to have, and adds the frames that the next line
opens. -/
theorem settle_advance {frames : List Frame} {line : Line}
    (hpending : pendingLevels frames = levelsDownFrom line.level) (position : Nat) (next : Line)
    (rest : List Line) :
    ((advance position line next frames).map (settle (position + 1) next rest)).reverse =
      (frames.map (settle position line (next :: rest))).reverse ++
        (List.range' (line.level + 1) (next.level - line.level)).map fun level =>
          endAfterRun (position + 1) next rest (fresh (position + 1) next level) := by
  have hbound : ∀ frame ∈ frames, frame.isOpen = true → frame.level ≤ line.level := by
    intro frame hframe hopen
    have hmem := mem_pendingLevels hframe hopen
    rw [hpending] at hmem
    exact (mem_levelsDownFrom.mp hmem).2
  unfold advance
  by_cases hrise : line.level < next.level
  · have hkept : ∀ frame ∈ frames,
        settle (position + 1) next rest frame = settle position line (next :: rest) frame := by
      intro frame hframe
      by_cases hopen : frame.isOpen = true
      · have hlevel := Nat.le_trans (hbound frame hframe hopen) (Nat.le_of_lt hrise)
        simp only [settle, if_pos hopen]
        rw [endAfterRun_cons_of_le hlevel]
      · simp [settle, hopen]
    rw [if_pos hrise, openLevels_eq, List.map_append, List.reverse_append,
      List.map_congr_left hkept, List.map_reverse, List.reverse_reverse, List.map_map]
    rfl
  · have hfall : next.level ≤ line.level := Nat.not_lt.mp hrise
    have hsum : pendingLevels frames =
        levelsDownFrom (next.level + (line.level - next.level)) := by
      rw [Nat.add_sub_cancel' hfall]
      exact hpending
    have hkept : ∀ frame ∈ frames,
        settle (position + 1) next rest (endAbove next.level position line.label frame) =
          settle position line (next :: rest) frame := by
      intro frame _
      by_cases hopen : frame.isOpen = true
      · by_cases hlevel : frame.level ≤ next.level
        · rw [endAbove_of_le hlevel]
          simp only [settle, if_pos hopen]
          rw [endAfterRun_cons_of_le hlevel]
        · have hlt : next.level < frame.level := Nat.lt_of_not_le hlevel
          simp [settle, endAbove, hopen, hlt, endAfterRun_cons_of_lt hlt]
      · simp [settle, endAbove, hopen]
    rw [if_neg hrise, closeLevels_eq_map hsum, List.map_map, Nat.sub_eq_zero_of_le hfall]
    simp only [List.range'_zero, List.map_nil, List.append_nil]
    congr 1
    exact List.map_congr_left hkept

/-- Passing through the remaining lines settles the frames at hand and adds those still to open. -/
theorem advanceThrough_reverse {frames : List Frame} {line : Line}
    (hpending : pendingLevels frames = levelsDownFrom line.level) (position : Nat)
    (rest : List Line) :
    (advanceThrough position line rest frames).reverse =
      (frames.map (settle position line rest)).reverse ++
        openedFrom (position + 1) line.level rest := by
  induction rest generalizing position line frames with
  | nil =>
      have hsettle : settle position line [] =
          fun frame => if frame.isOpen then frame.endAt position line.label else frame := by
        funext frame
        simp [settle, endAfterRun, runLength]
      rw [advanceThrough, closeAll, hsettle, openedFrom, List.append_nil]
  | cons next rest ih =>
      rw [advanceThrough, ih (pendingLevels_advance hpending position next),
        settle_advance hpending, openedFrom, List.append_assoc]

section Relined

variable {f : Line → Line} (hlabel : ∀ line, (f line).label = line.label)
  (hformula : ∀ line, (f line).formula = line.formula) (hlevel : ∀ line, (f line).level = line.level)

include hlabel hlevel in
theorem endAfterRun_map (position : Nat) (line : Line) (rest : List Line) (frame : Frame) :
    endAfterRun position (f line) (rest.map f) frame = endAfterRun position line rest frame := by
  have hrun : runLength frame.level (rest.map f) = runLength frame.level rest := by
    simp [runLength, List.takeWhile_map, Function.comp_def, hlevel]
  rw [endAfterRun, endAfterRun, hrun, ← List.map_cons, List.getElem?_map, Option.getD_map, hlabel]

include hlabel hformula hlevel in
theorem openedFrom_map (position previous : Nat) (lines : List Line) :
    openedFrom position previous (lines.map f) = openedFrom position previous lines := by
  induction lines generalizing position previous with
  | nil => rfl
  | cons line rest ih =>
      have hfresh : fresh position (f line) = fresh position line := by
        funext level
        rw [fresh, fresh, hlabel, hformula]
      rw [List.map_cons, openedFrom, openedFrom, ih, hlevel, hfresh]
      simp only [endAfterRun_map hlabel hlevel]

end Relined

theorem ofLines_eq_openedFrom (lines : List Line) : ofLines lines = openedFrom 0 0 lines := by
  cases lines with
  | nil => rfl
  | cons first rest =>
      have hpending : pendingLevels (openLevels 0 first 0 []) = levelsDownFrom first.level :=
        pendingLevels_openLevels rfl (Nat.zero_le _) 0
      rw [ofLines, advanceThrough_reverse hpending, openedFrom, openLevels_eq, List.append_nil,
        List.map_reverse, List.reverse_reverse, List.map_map]
      rfl

theorem ofLines_map {f : Line → Line} (hlabel : ∀ line, (f line).label = line.label)
    (hformula : ∀ line, (f line).formula = line.formula)
    (hlevel : ∀ line, (f line).level = line.level) (lines : List Line) :
    ofLines (lines.map f) = ofLines lines := by
  rw [ofLines_eq_openedFrom, ofLines_eq_openedFrom, openedFrom_map hlabel hformula hlevel]

end Deduction.Frame
