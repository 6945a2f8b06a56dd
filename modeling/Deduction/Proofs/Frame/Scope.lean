import Deduction.Proofs.Frame.LevelSet

/-!
Scope by frames: which frames lie around a line that may be cited.

An accessible line lies in no frame that the citing line has left, which the depth column tells by
not falling below the line in between. A line at the level of a subproof that is closed lies in one
frame more, the subproof itself. The subproofs that a line may discharge are the closed ones, one
level down, since whose first line the depth column has not fallen below the level of the line.
-/

namespace Deduction.Frame

theorem isAccessible_iff {frames : List Frame} {cited citing : Nat} :
    isAccessible frames cited citing = true ↔
      ∀ frame ∈ around frames cited, frame ∈ around frames citing := by
  rw [isAccessible, List.all_eq_true]
  constructor
  · intro haccessible frame hframe
    exact List.mem_filter.mpr ⟨(List.mem_filter.mp hframe).1, haccessible frame hframe⟩
  · intro hsubset frame hframe
    exact (List.mem_filter.mp (hsubset frame hframe)).2

theorem Spans.covers_of_stays {lines : List Line} {frame : Frame} {first last : Nat}
    (hspans : Spans lines frame) (hcovers : frame.start ≤ first ∧ first ≤ frame.last)
    (hle : first ≤ last)
    (hstays : ∀ between, first ≤ between → between ≤ last → frame.level ≤ levelAt lines between) :
    frame.start ≤ last ∧ last ≤ frame.last := by
  have hrun : StaysAbove lines frame.level first last := by
    refine ⟨hle, ?_, hstays⟩
    apply lt_length_of_levelAt_pos
    exact Nat.lt_of_lt_of_le hspans.positive (hstays last hle (Nat.le_refl last))
  have hunion := hspans.run.run.union hrun (Nat.le_trans hcovers.1 hle) hcovers.2
  have hlast := (hspans.run.maximal _ _ (Nat.min_le_left _ _) (Nat.le_max_left _ _) hunion).2
  refine ⟨Nat.le_trans hcovers.1 hle, ?_⟩
  rw [← hlast]
  exact Nat.le_max_right _ _

/-- A line is accessible from a later one exactly when the depth column does not fall below it in
between. -/
theorem isAccessible_ofLines_iff {lines : List Line} {cited citing : Nat} (hle : cited ≤ citing) :
    isAccessible (ofLines lines) cited citing = true ↔
      ∀ between, cited ≤ between → between ≤ citing →
        levelAt lines cited ≤ levelAt lines between := by
  rw [isAccessible_iff]
  constructor
  · intro haccessible between hfrom hto
    rcases Nat.eq_zero_or_pos (levelAt lines cited) with htop | hpositive
    · rw [htop]
      exact Nat.zero_le _
    · -- The innermost frame around the cited line reaches the citing one.
      obtain ⟨frame, hspans, hlevel, hcovers⟩ :=
        exists_frame_around hpositive (Nat.le_refl (levelAt lines cited))
      have hciting := haccessible frame (mem_around.mpr ⟨mem_ofLines_iff.mpr hspans, hcovers⟩)
      have hlast := (mem_around.mp hciting).2.2
      rw [← hlevel]
      exact hspans.level_le ⟨Nat.le_trans hcovers.1 hfrom, Nat.le_trans hto hlast⟩
  · intro hstays frame hframe
    obtain ⟨hmem, hcovers⟩ := mem_around.mp hframe
    have hspans := mem_ofLines_iff.mp hmem
    have hlevel := hspans.level_le hcovers
    refine mem_around.mpr ⟨hmem, hspans.covers_of_stays hcovers hle ?_⟩
    intro between hfrom hto
    exact Nat.le_trans hlevel (hstays between hfrom hto)

theorem mem_dischargedAt {frames : List Frame} {position depth : Int} {frame : Frame} :
    frame ∈ dischargedAt frames position depth ↔
      frame ∈ frames ∧ isDischargeable frames position depth frame = true := by
  rw [dischargedAt, List.mem_mergeSort, List.mem_filter]

theorem isDischargeable_iff {frames : List Frame} {position : Nat} {depth : Int} {frame : Frame}
    (hclosed : frame.stop = some frame.last) :
    isDischargeable frames position depth frame = true ↔
      (frame.level : Int) = depth + 1 ∧ frame.last < position ∧
        ∀ outer ∈ around frames frame.start, (outer.level : Int) ≤ depth →
          outer ∈ around frames position := by
  rw [isDischargeable, hclosed]
  simp only [Bool.and_eq_true, beq_iff_eq, decide_eq_true_eq, Int.ofNat_lt, List.all_eq_true,
    List.mem_filter, and_imp]
  constructor
  · rintro ⟨hlevel, hlast, hscope⟩
    refine ⟨hlevel, hlast, ?_⟩
    intro outer houter hle
    exact List.mem_filter.mpr ⟨(List.mem_filter.mp houter).1, hscope outer houter hle⟩
  · rintro ⟨hlevel, hlast, hscope⟩
    refine ⟨hlevel, hlast, ?_⟩
    intro outer houter hle
    exact (List.mem_filter.mp (hscope outer houter hle)).2

theorem isAtLevel_iff {frames : List Frame} {frame : Frame} {position : Nat} :
    isAtLevel frames frame position = true ↔
      (frame.start ≤ position ∧ position ≤ frame.last) ∧
        ∀ other ∈ around frames position, other.level ≤ frame.level := by
  rw [isAtLevel, Bool.and_eq_true, covers_natCast]
  simp only [Bool.not_eq_true', List.any_eq_false, decide_eq_true_eq, Nat.not_lt]

/-- A closed subproof one level down may be discharged exactly when the depth column has not fallen
below the discharging level since the subproof opened. -/
theorem Spans.isDischargeable_iff_stays {lines : List Line} {frame : Frame}
    (hspans : Spans lines frame) {position level : Nat} :
    isDischargeable (ofLines lines) position level frame = true ↔
      frame.level = level + 1 ∧ frame.last < position ∧
        ∀ between, frame.start ≤ between → between ≤ position →
          level ≤ levelAt lines between := by
  have hordered := hspans.run.run.ordered
  rw [isDischargeable_iff hspans.closed]
  constructor
  · rintro ⟨hlevel, hlast, hscope⟩
    refine ⟨by omega, hlast, ?_⟩
    intro between hfrom hto
    rcases Nat.eq_zero_or_pos level with rfl | hpositive
    · exact Nat.zero_le _
    · -- The frame of the discharging level around the first line reaches the discharging one.
      have hopens := hspans.level_le ⟨Nat.le_refl _, hordered⟩
      have hfirst : level ≤ levelAt lines frame.start := by omega
      obtain ⟨outer, houter, hequal, hcovers⟩ := exists_frame_around hpositive hfirst
      have hreaches := hscope outer
        (mem_around.mpr ⟨mem_ofLines_iff.mpr houter, hcovers⟩) (by omega)
      have hend := (mem_around.mp hreaches).2.2
      rw [← hequal]
      exact houter.level_le ⟨hcovers.1.trans hfrom, hto.trans hend⟩
  · rintro ⟨hlevel, hlast, hstays⟩
    refine ⟨by omega, hlast, ?_⟩
    intro outer houter hle
    obtain ⟨hmem, hcovers⟩ := mem_around.mp houter
    refine mem_around.mpr ⟨hmem, (mem_ofLines_iff.mp hmem).covers_of_stays hcovers (by omega) ?_⟩
    intro between hfrom hto
    have hbetween := hstays between hfrom hto
    omega

theorem pairwise_dischargedAt (lines : List Line) (position level : Nat) :
    (dischargedAt (ofLines lines) position level).Pairwise fun first second =>
      second.last < first.last := by
  have hsorted : (dischargedAt (ofLines lines) position level).Pairwise fun first second =>
      decide (second.last ≤ first.last) = true := by
    apply List.pairwise_mergeSort
    · intro first second third hfirst hsecond
      rw [decide_eq_true_eq] at hfirst hsecond ⊢
      exact hsecond.trans hfirst
    · intro first second
      rw [Bool.or_eq_true, decide_eq_true_eq, decide_eq_true_eq]
      exact Nat.le_total _ _
  have hnodup : (dischargedAt (ofLines lines) position level).Nodup := by
    apply (List.mergeSort_perm _ _).nodup_iff.mpr
    apply List.Nodup.filter
    apply (pairwise_ofLines lines).imp
    rintro first _ hprecedes rfl
    unfold Precedes at hprecedes
    omega
  apply (hsorted.and hnodup).imp_of_mem
  rintro first second hfirst hsecond ⟨hle, hne⟩
  obtain ⟨hmem, hdischargeable⟩ := mem_dischargedAt.mp hfirst
  obtain ⟨hmem', hdischargeable'⟩ := mem_dischargedAt.mp hsecond
  have hspans := mem_ofLines_iff.mp hmem
  have hspans' := mem_ofLines_iff.mp hmem'
  have hlevel := (hspans.isDischargeable_iff_stays.mp hdischargeable).1
  have hlevel' := (hspans'.isDischargeable_iff_stays.mp hdischargeable').1
  refine Nat.lt_of_le_of_ne (of_decide_eq_true hle) fun hend => hne ?_
  exact hspans.eq_of_covered hspans' (hlevel.trans hlevel'.symm)
    ⟨hspans.run.run.ordered, Nat.le_refl _⟩ (hend ▸ ⟨hspans'.run.run.ordered, Nat.le_refl _⟩)

theorem isAtLevel_of_levelAt {lines : List Line} {frame : Frame} {position : Nat}
    (hcovers : frame.start ≤ position ∧ position ≤ frame.last)
    (hposition : levelAt lines position = frame.level) :
    isAtLevel (ofLines lines) frame position = true := by
  refine isAtLevel_iff.mpr ⟨hcovers, ?_⟩
  intro other hother
  obtain ⟨hmem, hcovers'⟩ := mem_around.mp hother
  rw [← hposition]
  exact (mem_ofLines_iff.mp hmem).level_le hcovers'

theorem Spans.isAtLevel_iff_levelAt {lines : List Line} {frame : Frame}
    (hspans : Spans lines frame) {position : Nat} :
    isAtLevel (ofLines lines) frame position = true ↔
      (frame.start ≤ position ∧ position ≤ frame.last) ∧
        levelAt lines position = frame.level := by
  constructor
  · intro hatLevel
    obtain ⟨hcovers, hdeepest⟩ := isAtLevel_iff.mp hatLevel
    refine ⟨hcovers, ?_⟩
    have hbelow := hspans.level_le hcovers
    obtain ⟨innermost, hinnermost, hequal, hcovers'⟩ :=
      exists_frame_around (Nat.le_trans hspans.positive hbelow) (Nat.le_refl _)
    have habove := hdeepest innermost
      (mem_around.mpr ⟨mem_ofLines_iff.mpr hinnermost, hcovers'⟩)
    omega
  · rintro ⟨hcovers, hlevel⟩
    exact isAtLevel_of_levelAt hcovers hlevel

theorem deepest?_mem {frames : List Frame} {frame : Frame}
    (hdeepest : deepest? frames = some frame) : frame ∈ frames := by
  induction frames with
  | nil => contradiction
  | cons first rest ih =>
      rw [deepest?] at hdeepest
      split at hdeepest
      · exact Option.some.inj hdeepest ▸ List.mem_cons_self
      · rename_i other hother
        split at hdeepest
        · obtain rfl := Option.some.inj hdeepest
          exact List.mem_cons_of_mem first (ih hother)
        · exact Option.some.inj hdeepest ▸ List.mem_cons_self

theorem start_of_startingAt? {frames : List Frame} {position : Nat} {frame : Frame}
    (hstarting : startingAt? frames position = some frame) : frame.start = position := by
  have hstart := (List.mem_filter.mp (deepest?_mem hstarting)).2
  exact Int.ofNat_inj.mp (beq_iff_eq.mp hstart)

/-- A line at the level of a closed subproof comes before the line that closes it, and every other
frame around it is also around that line. -/
theorem around_of_isAtLevel {lines : List Line} {frame : Frame} {position closing : Nat}
    {depth : Int} (hframe : frame ∈ dischargedAt (ofLines lines) closing depth)
    (hposition : isAtLevel (ofLines lines) frame position = true) :
    position < closing ∧
      ∀ other ∈ around (ofLines lines) position,
        other = frame ∨ other ∈ around (ofLines lines) closing := by
  obtain ⟨hmem, hdischargeable⟩ := mem_dischargedAt.mp hframe
  have hspans := mem_ofLines_iff.mp hmem
  obtain ⟨hlevel, hlast, hscope⟩ := (isDischargeable_iff hspans.closed).mp hdischargeable
  obtain ⟨hcovers, hdeepest⟩ := isAtLevel_iff.mp hposition
  refine ⟨Nat.lt_of_le_of_lt hcovers.2 hlast, ?_⟩
  intro other hother
  obtain ⟨hmem', hcovers'⟩ := mem_around.mp hother
  have hspans' := mem_ofLines_iff.mp hmem'
  rcases Nat.eq_or_lt_of_le (hdeepest other hother) with heq | hlt
  · exact Or.inl (hspans'.eq_of_covered hspans heq hcovers' hcovers)
  · -- A frame of a lower level that meets the subproof holds all of it, its first line included.
    right
    have hinside := hspans.inside_of_meets hspans' (Nat.le_of_lt hlt)
      (not_apart_of_covered hcovers hcovers')
    have hordered := hspans.run.run.ordered
    have hfirst : other ∈ around (ofLines lines) frame.start :=
      mem_around.mpr ⟨hmem', hinside.1, Nat.le_trans hordered hinside.2⟩
    exact hscope other hfirst (by omega)

theorem around_eq_nil_of_level_eq_zero {lines : List Line} {position : Nat} {line : Line}
    (hline : lines[position]? = some line) (hlevel : line.level = 0) :
    around (ofLines lines) position = [] := by
  have hlevels := map_level_around lines position
  rw [levelAt_of_getElem? hline, hlevel] at hlevels
  exact List.map_eq_nil_iff.mp hlevels

/-- The frames that may be discharged at a position, from a level, are the closed subproofs one
level down since whose first line the depth column has stayed at the level. Each is listed once, the
later ended first. A line is at the level of a subproof when the depth column says so. -/
theorem dischargedAt_isClosedSubproofs (lines : List Line) (position level : Nat) :
    (∀ frame, frame ∈ dischargedAt (ofLines lines) position level ↔
      frame ∈ ofLines lines ∧ frame.level = level + 1 ∧
        (∃ stop, frame.stop = some stop ∧ stop < position) ∧
        ∀ between, frame.start ≤ between → between ≤ position →
          level ≤ levelAt lines between) ∧
    (dischargedAt (ofLines lines) position level).Nodup ∧
    (dischargedAt (ofLines lines) position level).Pairwise (fun first second =>
      ∃ stop stop', first.stop = some stop ∧ second.stop = some stop' ∧ stop' < stop) ∧
    ∀ frame ∈ ofLines lines, ∀ inner : Nat,
      isAtLevel (ofLines lines) frame inner = true ↔
        (frame.start ≤ inner ∧ ∃ stop, frame.stop = some stop ∧ inner ≤ stop) ∧
          levelAt lines inner = frame.level := by
  refine ⟨?_, ?_, ?_, ?_⟩
  · intro frame
    rw [mem_dischargedAt]
    refine and_congr_right fun hmem => ?_
    have hspans := mem_ofLines_iff.mp hmem
    simp only [hspans.isDischargeable_iff_stays, hspans.closed, Option.some.injEq,
      exists_eq_left']
  · apply (pairwise_dischargedAt lines position level).imp
    rintro first _ hends rfl
    exact Nat.lt_irrefl _ hends
  · apply (pairwise_dischargedAt lines position level).imp_of_mem
    intro first second hfirst hsecond hends
    exact ⟨first.last, second.last, (mem_ofLines_iff.mp (mem_dischargedAt.mp hfirst).1).closed,
      (mem_ofLines_iff.mp (mem_dischargedAt.mp hsecond).1).closed, hends⟩
  · intro frame hmem inner
    have hspans := mem_ofLines_iff.mp hmem
    simp only [hspans.isAtLevel_iff_levelAt, hspans.closed, Option.some.injEq, exists_eq_left']

/-- Lines of which the second climbs two levels at once. -/
def climbing : List Line :=
  [⟨"1", "A", "", [], 1⟩, ⟨"2", "B", "", [], 3⟩, ⟨"3", "C", "", [], 2⟩, ⟨"4", "D", "", [], 1⟩]

/-- Of the two frames that open on one line the outer is discharged, from within an assumption; the
line itself is not at its level. -/
theorem climbing_subproof_isClosed :
    ∃ frame ∈ dischargedAt (ofLines climbing) (3 : Nat) (1 : Nat), frame.start = 1 ∧
      isAtLevel (ofLines climbing) frame (2 : Nat) = true ∧
      ¬ isAtLevel (ofLines climbing) frame (1 : Nat) = true := by
  have hmem : ⟨2, 1, "2", "B", some 2, some "3"⟩ ∈ ofLines climbing := by decide
  have hstays : ∀ between < 4, 1 ≤ levelAt climbing between := by decide
  obtain ⟨hdischarged, -, -, hatLevel⟩ := dischargedAt_isClosedSubproofs climbing 3 1
  refine ⟨_, (hdischarged _).mpr ⟨hmem, rfl, ⟨2, rfl, by decide⟩, ?_⟩, rfl, ?_, ?_⟩
  · intro between _ hto
    exact hstays between (Nat.lt_succ_of_le hto)
  · exact (hatLevel _ hmem 2).mpr ⟨⟨by decide, 2, rfl, by decide⟩, rfl⟩
  · rw [hatLevel _ hmem 1]
    rintro ⟨-, hlevel⟩
    contradiction

end Deduction.Frame
