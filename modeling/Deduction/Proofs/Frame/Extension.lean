import Deduction.Proofs.Frame.Scope
import Mathlib.Data.List.Forall2

namespace Deduction.Frame

/-- How a frame may change when a proof of `bound` lines goes on: it keeps what it opened with, and
only one that reached the last line ends later. -/
structure Prolongs (bound : Nat) (frame longer : Frame) : Prop where
  level_eq : longer.level = frame.level
  start_eq : longer.start = frame.start
  startLabel_eq : longer.startLabel = frame.startLabel
  assumption_eq : longer.assumption = frame.assumption
  ordered : frame.start ≤ frame.last
  bounded : frame.last < bound
  ends : longer = frame ∨ frame.last + 1 = bound ∧ bound ≤ longer.last + 1

/-- How the frames may change when a proof of `bound` lines goes on: each is kept or prolonged, and
all others open later. -/
def GoesOn (bound : Nat) (frames longer : List Frame) : Prop :=
  ∃ kept later, longer = kept ++ later ∧ List.Forall₂ (Prolongs bound) frames kept ∧
    ∀ frame ∈ later, bound ≤ frame.start ∧ frame.start ≤ frame.last

/-- A run that stops short of the end stays as it is when lines are appended. -/
theorem runLength_append (level : Nat) (lines extra : List Line) :
    runLength level (lines ++ extra) =
      if runLength level lines = lines.length then lines.length + runLength level extra
      else runLength level lines := by
  unfold runLength
  rw [List.takeWhile_append]
  split
  · rw [List.length_append]
  · rfl

theorem prolongs_endAfterRun (position level : Nat) (line : Line) (rest extra : List Line) :
    Prolongs (position + (rest.length + 1))
      (endAfterRun position line rest (fresh position line level))
      (endAfterRun position line (rest ++ extra) (fresh position line level)) := by
  have hrun := runLength_append level rest extra
  have hbound := runLength_le_length level rest
  have hlast : ∀ lines, (endAfterRun position line lines (fresh position line level)).last =
      position + runLength level lines := fun _ => rfl
  refine ⟨rfl, rfl, rfl, rfl, ?_, ?_, ?_⟩
  · rw [hlast]
    exact Nat.le_add_right position _
  · rw [hlast]
    omega
  · by_cases hend : runLength level rest = rest.length
    · rw [if_pos hend] at hrun
      rw [hlast, hlast]
      exact Or.inr ⟨by omega, by omega⟩
    · rw [if_neg hend] at hrun
      have hshort : runLength level rest < (line :: rest).length := Nat.lt_succ_of_le hbound
      left
      unfold endAfterRun
      rw [show (fresh position line level).level = level from rfl, hrun, ← List.cons_append,
        List.getElem?_append_left hshort]

theorem le_start_of_mem_openedFrom {position previous : Nat} {lines : List Line} {frame : Frame}
    (hframe : frame ∈ openedFrom position previous lines) :
    position ≤ frame.start ∧ frame.start ≤ frame.last := by
  obtain ⟨offset, line, level, _, _, _, rfl⟩ := mem_openedFrom.mp hframe
  exact ⟨Nat.le_add_right _ _, Nat.le_add_right _ _⟩

theorem goesOn_openedFrom (position previous : Nat) (lines extra : List Line) :
    GoesOn (position + lines.length) (openedFrom position previous lines)
      (openedFrom position previous (lines ++ extra)) := by
  induction lines generalizing position previous with
  | nil =>
      exact ⟨[], _, rfl, List.Forall₂.nil, fun frame hframe => le_start_of_mem_openedFrom hframe⟩
  | cons line rest ih =>
      obtain ⟨kept, later, heq, hkept, hlater⟩ := ih (position + 1) line.level
      have hlength : position + 1 + rest.length = position + (line :: rest).length := by
        rw [List.length_cons]
        omega
      rw [hlength] at hkept hlater
      refine ⟨(List.range' (previous + 1) (line.level - previous)).map (fun level =>
        endAfterRun position line (rest ++ extra) (fresh position line level)) ++ kept, later,
        ?_, ?_, hlater⟩
      · rw [List.cons_append, openedFrom, heq, List.append_assoc]
      · apply List.rel_append ?_ hkept
        rw [List.forall₂_map_left_iff, List.forall₂_map_right_iff, List.forall₂_same]
        intro level _
        exact prolongs_endAfterRun position level line rest extra

theorem goesOn_ofLines (lines extra : List Line) :
    GoesOn lines.length (ofLines lines) (ofLines (lines ++ extra)) := by
  rw [ofLines_eq_openedFrom, ofLines_eq_openedFrom]
  simpa using goesOn_openedFrom 0 0 lines extra

variable {bound : Nat} {frame prolonged : Frame} {frames longer : List Frame} {position : Nat}

theorem Prolongs.covers_eq (hprolongs : Prolongs bound frame prolonged)
    (hposition : position < bound) : prolonged.covers position = frame.covers position := by
  rw [Bool.eq_iff_iff, covers_natCast, covers_natCast, hprolongs.start_eq]
  rcases hprolongs.ends with rfl | ⟨hlast, hlast'⟩
  · rfl
  · omega

theorem GoesOn.exists_prolonged (hgoes : GoesOn bound frames longer) (hframe : frame ∈ frames) :
    ∃ prolonged, Prolongs bound frame prolonged := by
  obtain ⟨kept, later, rfl, hkept, _⟩ := hgoes
  induction hkept with
  | nil => contradiction
  | cons hhead _ ih =>
      rcases List.mem_cons.mp hframe with rfl | hframe
      · exact ⟨_, hhead⟩
      · exact ih hframe

theorem GoesOn.exists_kept {keep : Frame → Bool} (hgoes : GoesOn bound frames longer)
    (hlater : ∀ frame, bound ≤ frame.start → frame.start ≤ frame.last → keep frame = false) :
    ∃ kept, List.Forall₂ (Prolongs bound) frames kept ∧ longer.filter keep = kept.filter keep := by
  obtain ⟨kept, later, rfl, hkept, hbound⟩ := hgoes
  have hnone : later.filter keep = [] := by
    rw [List.filter_eq_nil_iff]
    intro frame hframe
    rw [hlater frame (hbound frame hframe).1 (hbound frame hframe).2]
    exact Bool.false_ne_true
  refine ⟨kept, hkept, ?_⟩
  rw [List.filter_append, hnone, List.append_nil]

theorem forall₂_filter {keep keep' : Frame → Bool}
    (hframes : List.Forall₂ (Prolongs bound) frames longer)
    (hkeep : ∀ frame prolonged, Prolongs bound frame prolonged → keep' prolonged = keep frame) :
    List.Forall₂ (Prolongs bound) (frames.filter keep) (longer.filter keep') :=
  List.rel_filter (fun frame prolonged h => iff_of_eq (congrArg (· = true)
    (hkeep frame prolonged h).symm)) hframes

theorem GoesOn.around (hgoes : GoesOn bound frames longer) (hposition : position < bound) :
    List.Forall₂ (Prolongs bound) (around frames position) (around longer position) := by
  have hlater : ∀ frame : Frame, bound ≤ frame.start → frame.start ≤ frame.last →
      frame.covers position = false := by
    intro frame hstart _
    rw [Bool.eq_false_iff, Ne, covers_natCast]
    omega
  obtain ⟨kept, hkept, hfilter⟩ := hgoes.exists_kept hlater
  rw [Frame.around, Frame.around, hfilter]
  exact forall₂_filter hkept fun _ _ hprolongs => hprolongs.covers_eq hposition

theorem all_eq_of_forall₂ {α β : Type} {related : α → β → Prop} {test : α → Bool}
    {test' : β → Bool} {items : List α} {items' : List β}
    (hitems : List.Forall₂ related items items')
    (htest : ∀ a b, related a b → test a = test' b) : items.all test = items'.all test' := by
  induction hitems with
  | nil => rfl
  | cons hhead _ ih => rw [List.all_cons, List.all_cons, htest _ _ hhead, ih]

theorem GoesOn.isAccessible_eq {cited citing : Nat} (hgoes : GoesOn bound frames longer)
    (hcited : cited < bound) (hciting : citing < bound) :
    isAccessible longer cited citing = isAccessible frames cited citing :=
  (all_eq_of_forall₂ (hgoes.around hcited) fun _ _ hprolongs =>
    (hprolongs.covers_eq hciting).symm).symm

theorem GoesOn.isAtLevel_eq (hgoes : GoesOn bound frames longer)
    (hprolongs : Prolongs bound frame prolonged) (hposition : position < bound) :
    isAtLevel longer prolonged position = isAtLevel frames frame position := by
  have hlevels := all_eq_of_forall₂ (hgoes.around hposition) fun other other' hother =>
    show (!decide (frame.level < other.level)) = !decide (prolonged.level < other'.level) by
      rw [hother.level_eq, hprolongs.level_eq]
  rw [isAtLevel, isAtLevel, hprolongs.covers_eq hposition, List.not_any_eq_all_not,
    List.not_any_eq_all_not, hlevels]

theorem forall₂_deepest? (hframes : List.Forall₂ (Prolongs bound) frames longer) :
    deepest? frames = none ∧ deepest? longer = none ∨
      ∃ frame prolonged, deepest? frames = some frame ∧ deepest? longer = some prolonged ∧
        Prolongs bound frame prolonged := by
  induction hframes with
  | nil => exact Or.inl ⟨rfl, rfl⟩
  | @cons frame prolonged frames longer hhead _ ih =>
      right
      rw [deepest?, deepest?]
      rcases ih with ⟨hnone, hnone'⟩ | ⟨other, other', hsome, hsome', hother⟩
      · rw [hnone, hnone']
        exact ⟨frame, prolonged, rfl, rfl, hhead⟩
      · simp only [hsome, hsome', hhead.level_eq, hother.level_eq]
        split
        · exact ⟨other, other', rfl, rfl, hother⟩
        · exact ⟨frame, prolonged, rfl, rfl, hhead⟩

/-- Where a frame opens it still opens, and no other opens there. -/
theorem GoesOn.startingAt? (hgoes : GoesOn bound frames longer) (hposition : position < bound) :
    startingAt? frames position = none ∧ startingAt? longer position = none ∨
      ∃ frame prolonged, startingAt? frames position = some frame ∧
        startingAt? longer position = some prolonged ∧ Prolongs bound frame prolonged := by
  have hlater : ∀ frame : Frame, bound ≤ frame.start → frame.start ≤ frame.last →
      ((frame.start : Int) == position) = false := by
    intro frame hstart _
    rw [beq_eq_false_iff_ne]
    omega
  obtain ⟨kept, hkept, hfilter⟩ := hgoes.exists_kept hlater
  rw [Frame.startingAt?, Frame.startingAt?, hfilter]
  apply forall₂_deepest?
  exact forall₂_filter hkept fun _ _ hprolongs => by rw [hprolongs.start_eq]

theorem last_lt_of_isDischargeable {depth : Int}
    (hdischargeable : isDischargeable frames position depth frame = true) :
    frame.last < position := by
  unfold isDischargeable at hdischargeable
  rw [Bool.and_eq_true] at hdischargeable
  cases hstop : frame.stop with
  | none =>
      rw [hstop] at hdischargeable
      exact absurd hdischargeable.2 Bool.false_ne_true
  | some stop =>
      rw [hstop] at hdischargeable
      dsimp only at hdischargeable
      rw [Bool.and_eq_true, decide_eq_true_eq] at hdischargeable
      rw [last, hstop]
      exact Int.ofNat_lt.mp hdischargeable.2.1

theorem isDischargeable_eq_false {depth : Int} (hlast : position ≤ frame.last) :
    isDischargeable frames position depth frame = false := by
  rw [Bool.eq_false_iff]
  intro hdischargeable
  exact Nat.not_lt.mpr hlast (last_lt_of_isDischargeable hdischargeable)

theorem notMem_dischargedAt {depth : Int} (hlast : position ≤ frame.last) :
    frame ∉ dischargedAt frames position depth := by
  intro hmem
  exact Nat.not_lt.mpr hlast (last_lt_of_isDischargeable (mem_dischargedAt.mp hmem).2)

theorem GoesOn.isDischargeable_eq {depth : Int} (hgoes : GoesOn bound frames longer)
    (hprolongs : Prolongs bound frame prolonged) (hposition : position < bound) :
    isDischargeable longer position depth prolonged =
      isDischargeable frames position depth frame := by
  rcases hprolongs.ends with heq | ⟨hlast, hlast'⟩
  · subst heq
    have hstart := Nat.lt_of_le_of_lt hprolongs.ordered hprolongs.bounded
    have hscope := all_eq_of_forall₂
      (forall₂_filter (hgoes.around hstart) fun outer outer' houter =>
        show decide ((outer'.level : Int) ≤ depth) = decide ((outer.level : Int) ≤ depth) by
          rw [houter.level_eq])
      fun outer outer' houter => (houter.covers_eq hposition).symm
    simp only [isDischargeable, hscope]
  · -- Neither of the two has ended before the line.
    rw [isDischargeable_eq_false (by omega), isDischargeable_eq_false (by omega)]

theorem filter_eq_of_forall₂ {α : Type} {related : α → α → Prop} {keep keep' : α → Bool}
    {items items' : List α} (hitems : List.Forall₂ related items items')
    (hkeep : ∀ a b, related a b → keep' b = keep a)
    (hsame : ∀ a b, related a b → keep a = true → b = a) :
    items'.filter keep' = items.filter keep := by
  induction hitems with
  | nil => rfl
  | @cons head head' tail tail' hhead _ ih =>
      rw [List.filter_cons, List.filter_cons, hkeep head head' hhead, ih]
      split
      · rename_i hkept
        rw [hsame head head' hhead hkept]
      · rfl

theorem GoesOn.dischargedAt_eq {depth : Int} (hgoes : GoesOn bound frames longer)
    (hposition : position < bound) :
    dischargedAt longer position depth = dischargedAt frames position depth := by
  obtain ⟨kept, hkept, hfilter⟩ := hgoes.exists_kept fun frame hstart hlast =>
    @isDischargeable_eq_false frame longer position depth (by omega)
  rw [dischargedAt, dischargedAt, hfilter]
  congr 1
  apply filter_eq_of_forall₂ hkept
  · intro frame prolonged hprolongs
    exact hgoes.isDischargeable_eq hprolongs hposition
  · intro frame prolonged hprolongs hdischargeable
    have := last_lt_of_isDischargeable hdischargeable
    rcases hprolongs.ends with heq | ⟨hlast, _⟩
    · exact heq
    · omega

end Deduction.Frame
