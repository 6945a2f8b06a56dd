import Deduction.Proofs.Frame.DepthColumn
import Mathlib.Data.List.Range
import Mathlib.Data.List.Sort

namespace Deduction.Frame

/-- The level of the line at a position; there is no nesting past the last line. -/
def levelAt (lines : List Line) (position : Nat) : Nat :=
  (lines[position]?.map Line.level).getD 0

/-- The level of the line before a position, `previous` being the one before the first line. -/
def levelBefore (previous : Nat) (lines : List Line) : Nat → Nat
  | 0 => previous
  | position + 1 => levelAt lines position

theorem levelAt_of_getElem? {lines : List Line} {position : Nat} {line : Line}
    (hline : lines[position]? = some line) : levelAt lines position = line.level := by
  simp [levelAt, hline]

theorem levelAt_of_length_le {lines : List Line} {position : Nat}
    (hlength : lines.length ≤ position) : levelAt lines position = 0 := by
  simp [levelAt, List.getElem?_eq_none hlength]

theorem lt_length_of_levelAt_pos {lines : List Line} {position : Nat}
    (hpos : 0 < levelAt lines position) : position < lines.length := by
  by_contra hlength
  rw [levelAt_of_length_le (Nat.not_lt.mp hlength)] at hpos
  exact Nat.lt_irrefl 0 hpos

theorem levelAt_drop (lines : List Line) (count position : Nat) :
    levelAt (lines.drop count) position = levelAt lines (count + position) := by
  simp [levelAt]

theorem le_levelAt_of_lt_runLength {level : Nat} {lines : List Line} {position : Nat}
    (hposition : position < runLength level lines) : level ≤ levelAt lines position := by
  induction lines generalizing position with
  | nil => simp [runLength] at hposition
  | cons line rest ih =>
      by_cases hlevel : level ≤ line.level
      · rw [runLength_cons_of_le hlevel] at hposition
        cases position with
        | zero => exact hlevel
        | succ position => exact ih (Nat.lt_of_succ_lt_succ hposition)
      · rw [runLength_cons_of_lt (Nat.lt_of_not_le hlevel)] at hposition
        exact absurd hposition (Nat.not_lt_zero _)

theorem levelAt_runLength_lt {level : Nat} (hlevel : 1 ≤ level) (lines : List Line) :
    levelAt lines (runLength level lines) < level := by
  induction lines with
  | nil => exact hlevel
  | cons line rest ih =>
      by_cases hline : level ≤ line.level
      · rw [runLength_cons_of_le hline]
        exact ih
      · have hlt := Nat.lt_of_not_le hline
        rw [runLength_cons_of_lt hlt]
        exact hlt

/-- The lines of an interval stay at a level or above it. -/
structure StaysAbove (lines : List Line) (level start stop : Nat) : Prop where
  ordered : start ≤ stop
  bounded : stop < lines.length
  above : ∀ position, start ≤ position → position ≤ stop → level ≤ levelAt lines position

/-- An interval of lines that stay at a level or above it, in no larger one. -/
structure IsMaximalRun (lines : List Line) (level start stop : Nat) : Prop where
  run : StaysAbove lines level start stop
  maximal : ∀ start' stop', start' ≤ start → stop ≤ stop' →
    StaysAbove lines level start' stop' → start' = start ∧ stop' = stop

theorem isMaximalRun_iff {lines : List Line} {level start stop : Nat} (hlevel : 1 ≤ level) :
    IsMaximalRun lines level start stop ↔
      StaysAbove lines level start stop ∧ levelBefore 0 lines start < level ∧
        levelAt lines (stop + 1) < level := by
  constructor
  · rintro ⟨hrun, hmaximal⟩
    refine ⟨hrun, ?_, ?_⟩
    · cases start with
      | zero => exact hlevel
      | succ start =>
          by_contra hbefore
          have hlonger : StaysAbove lines level start stop := by
            refine ⟨Nat.le_of_succ_le hrun.ordered, hrun.bounded, ?_⟩
            intro position hstart hstop
            rcases Nat.eq_or_lt_of_le hstart with rfl | hstart
            · exact Nat.not_lt.mp hbefore
            · exact hrun.above position hstart hstop
          have := (hmaximal start stop (Nat.le_succ start) (Nat.le_refl stop) hlonger).1
          omega
    · by_contra hafter
      have hlonger : StaysAbove lines level start (stop + 1) := by
        refine ⟨Nat.le_succ_of_le hrun.ordered, ?_, ?_⟩
        · apply lt_length_of_levelAt_pos
          omega
        · intro position hstart hstop
          rcases Nat.eq_or_lt_of_le hstop with rfl | hstop
          · exact Nat.not_lt.mp hafter
          · exact hrun.above position hstart (Nat.le_of_lt_succ hstop)
      have := (hmaximal start (stop + 1) (Nat.le_refl start) (Nat.le_succ stop) hlonger).2
      omega
  · rintro ⟨hrun, hbefore, hafter⟩
    refine ⟨hrun, ?_⟩
    intro start' stop' hstart hstop hlonger
    have hordered := hrun.ordered
    constructor
    · rcases Nat.eq_or_lt_of_le hstart with heq | hlt
      · exact heq
      · cases start with
        | zero => omega
        | succ start =>
            have := hlonger.above start (Nat.le_of_lt_succ hlt) (by omega)
            exact absurd hbefore (Nat.not_lt.mpr this)
    · rcases Nat.eq_or_lt_of_le hstop with heq | hlt
      · exact heq.symm
      · have := hlonger.above (stop + 1) (by omega) hlt
        omega

/-- What a frame tells agrees with the lines: it covers a maximal run of its level and carries the
marks of the first and of the last line. -/
structure Spans (lines : List Line) (frame : Frame) : Prop where
  positive : 1 ≤ frame.level
  closed : frame.stop = some frame.last
  run : IsMaximalRun lines frame.level frame.start frame.last
  opens : ∃ line, lines[frame.start]? = some line ∧ frame.startLabel = line.label ∧
    frame.assumption = line.formula
  ends : ∃ line, lines[frame.last]? = some line ∧ frame.stopLabel = some line.label

theorem mem_openedFrom {position previous : Nat} {lines : List Line} {frame : Frame} :
    frame ∈ openedFrom position previous lines ↔
      ∃ offset line level, lines[offset]? = some line ∧
        levelBefore previous lines offset < level ∧ level ≤ line.level ∧
          frame = endAfterRun (position + offset) line (lines.drop (offset + 1))
            (fresh (position + offset) line level) := by
  induction lines generalizing position previous with
  | nil => simp [openedFrom]
  | cons first rest ih =>
      rw [openedFrom, List.mem_append, List.mem_map, ih]
      constructor
      · rintro (⟨level, hlevel, rfl⟩ | ⟨offset, line, level, hline, hbefore, hlevel, rfl⟩)
        · rw [List.mem_range'_1] at hlevel
          exact ⟨0, first, level, rfl, hlevel.1, by omega, rfl⟩
        · refine ⟨offset + 1, line, level, hline, ?_, hlevel, ?_⟩
          · cases offset with
            | zero => exact hbefore
            | succ offset => exact hbefore
          · rw [Nat.add_right_comm position 1 offset, Nat.add_assoc position offset 1]
            rfl
      · rintro ⟨offset, line, level, hline, hbefore, hlevel, rfl⟩
        cases offset with
        | zero =>
            left
            obtain rfl : first = line := by simpa using hline
            have hprevious : previous < level := hbefore
            exact ⟨level, List.mem_range'_1.mpr ⟨hprevious, by omega⟩, rfl⟩
        | succ offset =>
            right
            refine ⟨offset, line, level, hline, ?_, hlevel, ?_⟩
            · cases offset with
              | zero => exact hbefore
              | succ offset => exact hbefore
            · rw [Nat.add_right_comm position 1 offset, Nat.add_assoc position offset 1]
              rfl

theorem spans_endAfterRun {lines : List Line} {start level : Nat} {line : Line}
    (hline : lines[start]? = some line) (hbefore : levelBefore 0 lines start < level)
    (hlevel : level ≤ line.level) :
    Spans lines (endAfterRun start line (lines.drop (start + 1)) (fresh start line level)) := by
  have hpositive : 1 ≤ level := Nat.succ_le_of_lt (Nat.lt_of_le_of_lt (Nat.zero_le _) hbefore)
  have hstart : start < lines.length := (List.getElem?_eq_some_iff.mp hline).1
  have hrun := runLength_le_length level (lines.drop (start + 1))
  rw [List.length_drop] at hrun
  have hlast : start + runLength level (lines.drop (start + 1)) < lines.length := by omega
  have hcons : lines.drop start = line :: lines.drop (start + 1) := by
    rw [List.drop_eq_getElem_cons hstart, (List.getElem?_eq_some_iff.mp hline).2]
  have hmaximal : IsMaximalRun lines level start
      (start + runLength level (lines.drop (start + 1))) := by
    refine (isMaximalRun_iff hpositive).mpr ⟨⟨Nat.le_add_right _ _, hlast, ?_⟩, hbefore, ?_⟩
    · intro position hfrom hto
      rcases Nat.eq_or_lt_of_le hfrom with rfl | hfrom
      · rw [levelAt_of_getElem? hline]
        exact hlevel
      · obtain ⟨offset, rfl⟩ := Nat.exists_eq_add_of_le (show start + 1 ≤ position from hfrom)
        rw [← levelAt_drop]
        exact le_levelAt_of_lt_runLength (by omega)
    · have := levelAt_runLength_lt hpositive (lines.drop (start + 1))
      rw [levelAt_drop] at this
      rwa [Nat.add_right_comm]
  refine ⟨hpositive, rfl, hmaximal, ⟨line, hline, rfl, rfl⟩, ?_⟩
  refine ⟨_, List.getElem?_eq_getElem hlast, ?_⟩
  change some _ = some _
  rw [fresh, ← hcons, List.getElem?_drop, List.getElem?_eq_getElem hlast, Option.getD_some]

theorem Spans.eq {lines : List Line} {frame other : Frame} (hframe : Spans lines frame)
    (hother : Spans lines other) (hlevel : frame.level = other.level)
    (hstart : frame.start = other.start) : frame = other := by
  have hlast : frame.last = other.last := by
    have hrun := hframe.run
    have hrunOther := hother.run
    rw [hlevel, hstart] at hrun
    rcases Nat.le_total frame.last other.last with hle | hle
    · exact (hrun.maximal _ _ (Nat.le_refl _) hle hrunOther.run).2.symm
    · exact (hrunOther.maximal _ _ (Nat.le_refl _) hle hrun.run).2
  obtain ⟨line, hline, hlabel, hformula⟩ := hframe.opens
  obtain ⟨lineOther, hlineOther, hlabelOther, hformulaOther⟩ := hother.opens
  obtain ⟨final, hfinal, hend⟩ := hframe.ends
  obtain ⟨finalOther, hfinalOther, hendOther⟩ := hother.ends
  have hclosed := hframe.closed
  have hclosedOther := hother.closed
  rw [hstart, hlineOther, Option.some.injEq] at hline
  rw [hlast, hfinalOther, Option.some.injEq] at hfinal
  subst hline
  subst hfinal
  rw [hlast] at hclosed
  rcases frame with ⟨level, start, startLabel, assumption, stop, stopLabel⟩
  rcases other with ⟨level', start', startLabel', assumption', stop', stopLabel'⟩
  rw [Frame.mk.injEq]
  exact ⟨hlevel, hstart, hlabel.trans hlabelOther.symm, hformula.trans hformulaOther.symm,
    hclosed.trans hclosedOther.symm, hend.trans hendOther.symm⟩

theorem mem_ofLines_iff {lines : List Line} {frame : Frame} :
    frame ∈ ofLines lines ↔ Spans lines frame := by
  rw [ofLines_eq_openedFrom, mem_openedFrom]
  constructor
  · rintro ⟨start, line, level, hline, hbefore, hlevel, rfl⟩
    rw [Nat.zero_add]
    exact spans_endAfterRun hline hbefore hlevel
  · intro hspans
    obtain ⟨line, hline, -, -⟩ := hspans.opens
    obtain ⟨hrun, hbefore, -⟩ := (isMaximalRun_iff hspans.positive).mp hspans.run
    have hlevel := hrun.above frame.start (Nat.le_refl _) hrun.ordered
    rw [levelAt_of_getElem? hline] at hlevel
    refine ⟨frame.start, line, frame.level, hline, hbefore, hlevel, ?_⟩
    rw [Nat.zero_add]
    exact hspans.eq (spans_endAfterRun hline hbefore hlevel) rfl rfl

/-- The order in which frames are listed: by the first line and, on one line, by level. -/
def Precedes (first second : Frame) : Prop :=
  first.start < second.start ∨ first.start = second.start ∧ first.level < second.level

theorem pairwise_openedFrom (position previous : Nat) (lines : List Line) :
    (openedFrom position previous lines).Pairwise Precedes := by
  induction lines generalizing position previous with
  | nil => exact List.Pairwise.nil
  | cons line rest ih =>
      rw [openedFrom, List.pairwise_append]
      refine ⟨?_, ih (position + 1) line.level, ?_⟩
      · rw [List.pairwise_map]
        apply List.Pairwise.imp _ (List.pairwise_lt_range' _ Nat.zero_lt_one)
        intro first second hlt
        exact Or.inr ⟨rfl, hlt⟩
      · intro first hfirst second hsecond
        obtain ⟨level, _, rfl⟩ := List.mem_map.mp hfirst
        obtain ⟨offset, line', level', _, _, _, rfl⟩ := mem_openedFrom.mp hsecond
        left
        change position < position + 1 + offset
        omega

theorem pairwise_ofLines (lines : List Line) : (ofLines lines).Pairwise Precedes := by
  rw [ofLines_eq_openedFrom]
  exact pairwise_openedFrom 0 0 lines

theorem covers_natCast {frame : Frame} {position : Nat} :
    frame.covers position = true ↔ frame.start ≤ position ∧ position ≤ frame.last := by
  simp [covers]

theorem mem_around {frames : List Frame} {frame : Frame} {position : Nat} :
    frame ∈ around frames position ↔
      frame ∈ frames ∧ frame.start ≤ position ∧ position ≤ frame.last := by
  rw [around, List.mem_filter, covers_natCast]

theorem StaysAbove.union {lines : List Line} {level start stop start' stop' : Nat}
    (hfirst : StaysAbove lines level start stop) (hsecond : StaysAbove lines level start' stop')
    (hoverlap : start ≤ stop') (hoverlap' : start' ≤ stop) :
    StaysAbove lines level (min start start') (max stop stop') := by
  refine ⟨?_, Nat.max_lt.mpr ⟨hfirst.bounded, hsecond.bounded⟩, ?_⟩
  · exact Nat.le_trans (Nat.min_le_left _ _)
      (Nat.le_trans hfirst.ordered (Nat.le_max_left _ _))
  · intro position hstart hstop
    by_cases hwithin : start ≤ position ∧ position ≤ stop
    · exact hfirst.above position hwithin.1 hwithin.2
    · exact hsecond.above position (by omega) (by omega)

theorem StaysAbove.mono {lines : List Line} {low high start stop : Nat} (hle : low ≤ high)
    (hrun : StaysAbove lines high start stop) : StaysAbove lines low start stop :=
  ⟨hrun.ordered, hrun.bounded, fun position hstart hstop =>
    Nat.le_trans hle (hrun.above position hstart hstop)⟩

/-- All lines of the first frame are lines of the second. -/
def Inside (inner outer : Frame) : Prop :=
  outer.start ≤ inner.start ∧ inner.last ≤ outer.last

/-- Two frames share no line. -/
def Apart (first second : Frame) : Prop :=
  first.last < second.start ∨ second.last < first.start

/-- A frame that meets one of its level or above lies inside it. -/
theorem Spans.inside_of_meets {lines : List Line} {inner outer : Frame}
    (hinner : Spans lines inner) (houter : Spans lines outer)
    (hlevel : outer.level ≤ inner.level) (hmeets : ¬ Apart inner outer) :
    Inside inner outer := by
  unfold Apart at hmeets
  have hunion := houter.run.run.union (hinner.run.run.mono hlevel) (by omega) (by omega)
  obtain ⟨hstart, hlast⟩ :=
    houter.run.maximal _ _ (Nat.min_le_left _ _) (Nat.le_max_left _ _) hunion
  exact ⟨by omega, by omega⟩

theorem not_apart_of_covered {first second : Frame} {position : Nat}
    (hfirst : first.start ≤ position ∧ position ≤ first.last)
    (hsecond : second.start ≤ position ∧ position ≤ second.last) : ¬ Apart first second := by
  unfold Apart
  omega

theorem Spans.eq_of_covered {lines : List Line} {frame other : Frame} {position : Nat}
    (hframe : Spans lines frame) (hother : Spans lines other)
    (hlevel : frame.level = other.level)
    (hposition : frame.start ≤ position ∧ position ≤ frame.last)
    (hposition' : other.start ≤ position ∧ position ≤ other.last) : frame = other := by
  have hmeets := not_apart_of_covered hposition hposition'
  have hmeets' := not_apart_of_covered hposition' hposition
  have hinside := hframe.inside_of_meets hother hlevel.ge hmeets
  have hinside' := hother.inside_of_meets hframe hlevel.le hmeets'
  exact hframe.eq hother hlevel (Nat.le_antisymm hinside'.1 hinside.1)

theorem exists_run_start {lines : List Line} {level position : Nat} (hlevel : 1 ≤ level)
    (hposition : level ≤ levelAt lines position) :
    ∃ start ≤ position, levelBefore 0 lines start < level ∧
      ∀ between, start ≤ between → between ≤ position → level ≤ levelAt lines between := by
  induction position with
  | zero =>
      refine ⟨0, Nat.le_refl 0, hlevel, ?_⟩
      intro between _ hbetween
      rw [Nat.le_zero.mp hbetween]
      exact hposition
  | succ position ih =>
      by_cases hbefore : level ≤ levelAt lines position
      · obtain ⟨start, hstart, hbelow, habove⟩ := ih hbefore
        refine ⟨start, Nat.le_succ_of_le hstart, hbelow, ?_⟩
        intro between hfrom hto
        rcases Nat.eq_or_lt_of_le hto with rfl | hto
        · exact hposition
        · exact habove between hfrom (Nat.le_of_lt_succ hto)
      · refine ⟨position + 1, Nat.le_refl _, Nat.lt_of_not_le hbefore, ?_⟩
        intro between hfrom hto
        rw [Nat.le_antisymm hto hfrom]
        exact hposition

theorem exists_frame_of_isMaximalRun {lines : List Line} {level start stop : Nat}
    (hlevel : 1 ≤ level) (hrun : IsMaximalRun lines level start stop) :
    ∃ frame, Spans lines frame ∧ frame.level = level ∧ frame.start = start ∧
      frame.last = stop := by
  obtain ⟨hstays, hbefore, -⟩ := (isMaximalRun_iff hlevel).mp hrun
  have hstart := Nat.lt_of_le_of_lt hstays.ordered hstays.bounded
  have hline := List.getElem?_eq_getElem hstart
  have habove := hstays.above start (Nat.le_refl _) hstays.ordered
  rw [levelAt_of_getElem? hline] at habove
  have hspans := spans_endAfterRun hline hbefore habove
  refine ⟨_, hspans, rfl, rfl, ?_⟩
  rcases Nat.le_total (start + runLength level (lines.drop (start + 1))) stop with hle | hle
  · exact (hspans.run.maximal _ _ (Nat.le_refl _) hle hstays).2.symm
  · exact (hrun.maximal _ _ (Nat.le_refl _) hle hspans.run.run).2

theorem exists_frame_around {lines : List Line} {level position : Nat} (hlevel : 1 ≤ level)
    (hposition : level ≤ levelAt lines position) :
    ∃ frame, Spans lines frame ∧ frame.level = level ∧ frame.start ≤ position ∧
      position ≤ frame.last := by
  obtain ⟨start, hstart, hbefore, habove⟩ := exists_run_start hlevel hposition
  have hbound : start < lines.length := by
    apply lt_length_of_levelAt_pos
    exact Nat.lt_of_lt_of_le hlevel (habove start (Nat.le_refl _) hstart)
  have hline := List.getElem?_eq_getElem hbound
  have hopens := habove start (Nat.le_refl _) hstart
  rw [levelAt_of_getElem? hline] at hopens
  have hspans := spans_endAfterRun hline hbefore hopens
  refine ⟨_, hspans, rfl, hstart, ?_⟩
  by_contra hlast
  have hafter := ((isMaximalRun_iff hlevel).mp hspans.run).2.2
  have := habove _ (Nat.le_succ_of_le hspans.run.run.ordered) (Nat.lt_of_not_le hlast)
  exact absurd hafter (Nat.not_lt.mpr this)

theorem Spans.level_le {lines : List Line} {frame : Frame} {position : Nat}
    (hframe : Spans lines frame) (hposition : frame.start ≤ position ∧ position ≤ frame.last) :
    frame.level ≤ levelAt lines position :=
  hframe.run.run.above position hposition.1 hposition.2

theorem pairwise_around (lines : List Line) (position : Nat) :
    (around (ofLines lines) position).Pairwise fun outer inner => outer.level < inner.level := by
  have hordered : (around (ofLines lines) position).Pairwise Precedes :=
    (pairwise_ofLines lines).sublist List.filter_sublist
  apply hordered.imp_of_mem
  intro outer inner houter hinner hprecedes
  obtain ⟨hmem, hcovers⟩ := mem_around.mp houter
  obtain ⟨hmem', hcovers'⟩ := mem_around.mp hinner
  by_contra hlevel
  have hinside := (mem_ofLines_iff.mp hmem).inside_of_meets (mem_ofLines_iff.mp hmem')
    (Nat.not_lt.mp hlevel) (not_apart_of_covered hcovers hcovers')
  have hstart := hinside.1
  unfold Precedes at hprecedes
  omega

theorem map_level_around (lines : List Line) (position : Nat) :
    (around (ofLines lines) position).map level = List.range' 1 (levelAt lines position) := by
  have hsorted : ((around (ofLines lines) position).map level).Pairwise (· < ·) :=
    List.pairwise_map.mpr (pairwise_around lines position)
  apply hsorted.eq_of_mem_iff (List.pairwise_lt_range' _ Nat.zero_lt_one)
  intro level
  rw [List.mem_map, List.mem_range'_1]
  constructor
  · rintro ⟨frame, hframe, rfl⟩
    obtain ⟨hmem, hcovers⟩ := mem_around.mp hframe
    have hspans := mem_ofLines_iff.mp hmem
    have hle := hspans.level_le hcovers
    exact ⟨hspans.positive, by omega⟩
  · rintro ⟨hlevel, hbound⟩
    have hle : level ≤ levelAt lines position := by omega
    obtain ⟨frame, hspans, hframe, hcovers⟩ := exists_frame_around hlevel hle
    exact ⟨frame, mem_around.mpr ⟨mem_ofLines_iff.mpr hspans, hcovers⟩, hframe⟩

/-- The frames of a proof are, each once and in order, the maximal runs of lines at each level or
above it. So one frame of each level up to that of a line lies around it, and two frames are apart
or the deeper one is inside the other. -/
theorem ofLines_isLevelSetDecomposition (lines : List Line) :
    (∀ level start stop,
      (∃ frame ∈ ofLines lines,
          frame.level = level ∧ frame.start = start ∧ frame.stop = some stop) ↔
        1 ≤ level ∧ IsMaximalRun lines level start stop) ∧
    ((ofLines lines).map fun frame => (frame.level, frame.start, frame.stop)).Nodup ∧
    (∀ frame ∈ ofLines lines, ∃ stop first last,
      frame.stop = some stop ∧ frame.start ≤ stop ∧ stop < lines.length ∧
        lines[frame.start]? = some first ∧ frame.startLabel = first.label ∧
          frame.assumption = first.formula ∧
        lines[stop]? = some last ∧ frame.stopLabel = some last.label) ∧
    (ofLines lines).Pairwise (fun first second =>
      first.start < second.start ∨ first.start = second.start ∧ first.level < second.level) ∧
    (∀ (position : Nat) line, lines[position]? = some line →
      (around (ofLines lines) position).map level = List.range' 1 line.level) ∧
    (∀ first ∈ ofLines lines, ∀ second ∈ ofLines lines,
      first = second ∨ Apart first second ∨
        first.level < second.level ∧ Inside second first ∨
        second.level < first.level ∧ Inside first second) := by
  refine ⟨?_, ?_, ?_, pairwise_ofLines lines, ?_, ?_⟩
  · intro level start stop
    constructor
    · rintro ⟨frame, hframe, rfl, rfl, hstop⟩
      have hspans := mem_ofLines_iff.mp hframe
      have hlast : frame.last = stop := by
        rw [last, hstop, Option.getD_some]
      exact ⟨hspans.positive, hlast ▸ hspans.run⟩
    · rintro ⟨hlevel, hrun⟩
      obtain ⟨frame, hspans, rfl, rfl, rfl⟩ := exists_frame_of_isMaximalRun hlevel hrun
      exact ⟨frame, mem_ofLines_iff.mpr hspans, rfl, rfl, hspans.closed⟩
  · apply List.pairwise_map.mpr
    apply (pairwise_ofLines lines).imp
    intro first second hprecedes heq
    rw [Prod.mk.injEq, Prod.mk.injEq] at heq
    unfold Precedes at hprecedes
    omega
  · intro frame hframe
    have hspans := mem_ofLines_iff.mp hframe
    obtain ⟨first, hfirst, hlabel, hformula⟩ := hspans.opens
    obtain ⟨last, hlast, hend⟩ := hspans.ends
    exact ⟨frame.last, first, last, hspans.closed, hspans.run.run.ordered,
      hspans.run.run.bounded, hfirst, hlabel, hformula, hlast, hend⟩
  · intro position line hline
    rw [map_level_around, levelAt_of_getElem? hline]
  · intro first hfirst second hsecond
    have hspans := mem_ofLines_iff.mp hfirst
    have hspans' := mem_ofLines_iff.mp hsecond
    by_cases hapart : Apart first second
    · exact Or.inr (Or.inl hapart)
    · have hapart' : ¬ Apart second first := fun h => hapart (Or.symm h)
      rcases Nat.lt_trichotomy first.level second.level with hlevel | hlevel | hlevel
      · exact Or.inr (Or.inr (Or.inl
          ⟨hlevel, hspans'.inside_of_meets hspans hlevel.le hapart'⟩))
      · have hinside := hspans.inside_of_meets hspans' hlevel.ge hapart
        have hinside' := hspans'.inside_of_meets hspans hlevel.le hapart'
        exact Or.inl (hspans.eq hspans' hlevel (Nat.le_antisymm hinside'.1 hinside.1))
      · exact Or.inr (Or.inr (Or.inr
          ⟨hlevel, hspans.inside_of_meets hspans' hlevel.le hapart⟩))

end Deduction.Frame
