import FrameRelay.Stage.Outlet
import FrameRelay.Store.Folder

/-! A sink that counts frames and writes the first few as images. -/

namespace FrameRelay

structure TallyStats where
  frames : Nat
  ends : Nat
  firstPts : Option Int
  lastPts : Option Int
  outOfOrder : Nat
  width : Nat
  height : Nat
  dumped : Nat
  deriving Repr, DecidableEq, Inhabited

/-- At most `dumpLimit` images go to `dumpTo`, if that is set. -/
structure Tally where
  stats : TallyStats
  dumpTo : Option String
  dumpLimit : Nat
  folder : Folder
  deriving Inhabited

namespace Tally

def start (dumpTo : Option String) (dumpLimit : Nat) (folder : Folder) : Tally :=
  ⟨⟨0, 0, none, none, 0, 0, 0, 0⟩, dumpTo, dumpLimit, folder⟩

/-- The file name of a frame: its pts with at least eight characters, the sign first. -/
def imageName (pts : Int) : String :=
  let digits := toString pts.natAbs
  "frame_" ++ (if pts < 0 then "-" ++ Number.padZeros 7 digits else Number.padZeros 8 digits) ++
    ".png"

/-- Exchanges the first and the third channel of every pixel. -/
def swapChannels (samples : Array UInt16) : Array UInt16 :=
  Array.ofFn fun i : Fin samples.size => samples.getD (i / 3 * 3 + (2 - i % 3)) 0

def inRgbOrder (format : PixelFormat) (samples : Array UInt16) : Array UInt16 :=
  match format with
  | .rgb48 => samples
  | .bgr48 => swapChannels samples

/-- An image needs a size; without one only an empty file comes about. -/
def imageEntry (width height : Nat) (samples : Array UInt16) : Entry :=
  if width = 0 ∨ height = 0 then .text "" else .image width height samples

def count (frame : Frame) (stats : TallyStats) : TallyStats :=
  { stats with
    frames := stats.frames + 1
    firstPts := some (stats.firstPts.getD frame.pts)
    lastPts := some frame.pts
    outOfOrder := match stats.lastPts with
      | some last => if frame.pts < last then stats.outOfOrder + 1 else stats.outOfOrder
      | none => stats.outOfOrder
    width := frame.width
    height := frame.height }

/-- Writes the image of a frame and says whether that went well. None if the frame's samples do
not reach to its last row. -/
def dump? (frame : Frame) (directory : String) (folder : Folder) : Option (Bool × Folder) :=
  match folder.makeDirectory directory with
  | (.error _, folder) => some (false, folder)
  | (.ok (), folder) =>
    frame.packed?.map fun samples =>
      let entry := imageEntry frame.width frame.height (inRgbOrder frame.format samples)
      let path := joinPath directory (imageName frame.pts)
      match folder.write path entry with
      | .error _ => (false, folder)
      | .ok folder => (decide (0 < frame.width ∧ 0 < frame.height), folder)

/-- Counts a frame, and writes its image while the limit is not reached. -/
def accept? (frame : Frame) (tally : Tally) : Option Tally :=
  let counted := { tally with stats := count frame tally.stats }
  match tally.dumpTo with
  | none => some counted
  | some directory =>
    if counted.stats.dumped < tally.dumpLimit then
      (dump? frame directory tally.folder).map fun (written, folder) =>
        let dumped := if written then counted.stats.dumped + 1 else counted.stats.dumped
        { counted with stats := { counted.stats with dumped }, folder }
    else some counted

/-- Frames are counted and let go. One that is shorter than it says is refused. -/
instance : Sink Tally where
  accept frame tally :=
    match tally.accept? frame with
    | some tally => (.consumed, tally)
    | none => (.refused ("frame " ++ toString frame.pts ++ " has too few samples"), tally)
  finish tally :=
    (.ok (), { tally with stats := { tally.stats with ends := tally.stats.ends + 1 } })

end Tally

end FrameRelay
