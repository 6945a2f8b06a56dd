import Deduction.Proof.Document

/-!
Subproof frames, and the questions of scope that they answer.

A frame is one level of nesting over a run of lines: it opens where the depth column first reaches
the level and lasts until the depth falls below it. A line that climbs several levels at once
opens a frame for each. Frames are listed by their first line and, on one line, by level.

Positions in questions are integers; a position before the first line lies in no frame.
-/

namespace Deduction

/-- A subproof over the lines from `start` to `stop`, both included. A frame without an end covers
its first line only. -/
structure Frame where
  level : Nat
  start : Nat
  startLabel : String
  assumption : String := ""
  stop : Option Nat := none
  stopLabel : Option String := none
  deriving DecidableEq, Repr

namespace Frame

def last (frame : Frame) : Nat :=
  frame.stop.getD frame.start

def covers (frame : Frame) (position : Int) : Bool :=
  (frame.start : Int) ≤ position && position ≤ (frame.last : Int)

def isOpen (frame : Frame) : Bool :=
  frame.stop.isNone

/-- Ends a frame at a position, on the line with this label. -/
def endAt (position : Nat) (label : String) (frame : Frame) : Frame :=
  { frame with stop := some position, stopLabel := some label }

/-- The frame of a level as it opens on a line. -/
def fresh (position : Nat) (line : Line) (level : Nat) : Frame :=
  { level, start := position, startLabel := line.label, assumption := line.formula }

/-- Opens a frame for each level above `previous` up to that of the line. The frame opened last
comes first. -/
def openLevels (position : Nat) (line : Line) (previous : Nat) (frames : List Frame) :
    List Frame :=
  (List.range' (previous + 1) (line.level - previous)).foldl
    (fun opened level => fresh position line level :: opened) frames

/-- Ends the innermost open frame, the first of those that have no end. Where no frame is open,
nothing changes. -/
def closeInnermost (position : Nat) (label : String) : List Frame → List Frame
  | [] => []
  | frame :: rest =>
      if frame.isOpen then frame.endAt position label :: rest
      else frame :: closeInnermost position label rest

/-- Ends a number of open frames, from the innermost on. -/
def closeLevels (position : Nat) (label : String) : Nat → List Frame → List Frame
  | 0, frames => frames
  | count + 1, frames => closeLevels position label count (closeInnermost position label frames)

def closeAll (position : Nat) (label : String) (frames : List Frame) : List Frame :=
  frames.map fun frame => if frame.isOpen then frame.endAt position label else frame

/-- Passes from a line at a position to the next one: a rise of the level opens frames on the next
line, a fall ends frames on this one. -/
def advance (position : Nat) (line next : Line) (frames : List Frame) : List Frame :=
  if line.level < next.level then openLevels (position + 1) next line.level frames
  else closeLevels position line.label (line.level - next.level) frames

/-- Goes through the lines after one at a position. What is open after the last line ends there. -/
def advanceThrough : Nat → Line → List Line → List Frame → List Frame
  | position, line, [], frames => closeAll position line.label frames
  | position, line, next :: rest, frames =>
      advanceThrough (position + 1) next rest (advance position line next frames)

def ofLines : List Line → List Frame
  | [] => []
  | first :: rest => (advanceThrough 0 first rest (openLevels 0 first 0 [])).reverse

/-- The frames around a position, outermost first. -/
def around (frames : List Frame) (position : Int) : List Frame :=
  frames.filter fun frame => frame.covers position

/-- The first of the deepest frames. -/
def deepest? : List Frame → Option Frame
  | [] => none
  | frame :: rest =>
      match deepest? rest with
      | none => some frame
      | some other => if frame.level < other.level then some other else some frame

/-- The innermost frame that opens at a position. -/
def startingAt? (frames : List Frame) (position : Int) : Option Frame :=
  deepest? (frames.filter fun frame => (frame.start : Int) == position)

/-- A line is accessible from another when every frame around it is also around the other. -/
def isAccessible (frames : List Frame) (cited citing : Int) : Bool :=
  (around frames cited).all fun frame => frame.covers citing

/-- A frame that a line at this position and depth may close: one level deeper, ended before the
line, and in the scope that the line belongs to. -/
def isDischargeable (frames : List Frame) (position depth : Int) (frame : Frame) : Bool :=
  (frame.level : Int) == depth + 1 &&
    match frame.stop with
    | none => false
    | some stop =>
        (stop : Int) < position &&
          ((around frames frame.start).filter fun outer => (outer.level : Int) ≤ depth).all
            fun outer => outer.covers position

/-- The frames that a line may close, the most recently ended first. -/
def dischargedAt (frames : List Frame) (position depth : Int) : List Frame :=
  (frames.filter (isDischargeable frames position depth)).mergeSort
    fun first second => second.last ≤ first.last

/-- A position lies in a frame and in none that is nested deeper. -/
def isAtLevel (frames : List Frame) (frame : Frame) (position : Int) : Bool :=
  frame.covers position && !(around frames position).any fun other => frame.level < other.level

end Frame

end Deduction
