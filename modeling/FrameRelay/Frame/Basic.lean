import FrameRelay.Number.Ratio
import FrameRelay.Number.Word

/-! Video frames with interleaved 16-bit samples, and the pool that counts those alive. -/

namespace FrameRelay

/-- The order of the three channels of a pixel. -/
inductive PixelFormat where
  | rgb48
  | bgr48
  deriving Repr, DecidableEq, Inhabited

namespace PixelFormat

def text : PixelFormat → String
  | .rgb48 => "rgb48"
  | .bgr48 => "bgr48"

def title : PixelFormat → String
  | .rgb48 => "Rgb48"
  | .bgr48 => "Bgr48"

end PixelFormat

/-- A decoded frame. Row `y` starts at sample `y * lineSize`; what follows its `3 * width`
samples up to the next row is padding. -/
structure Frame where
  width : Nat
  height : Nat
  format : PixelFormat
  pts : Int
  aspect : Ratio
  lineSize : Nat
  samples : Array UInt16
  pooled : Bool
  deriving Repr, DecidableEq, Inhabited

/-- `count` samples from `start`, none if the buffer ends before. -/
def slice? (samples : Array UInt16) (start count : Nat) : Option (Array UInt16) :=
  if start + count ≤ samples.size then some (samples.extract start (start + count)) else none

/-- The same with the fault that it is if the buffer ends before, or if the words do. -/
def slice (samples : Array UInt16) (start count : Nat) : Except Fault (Array UInt16) :=
  match slice? samples start count with
  | some part => .ok part
  | none => .error (if Number.sizeLimit ≤ start + count then .overflow else .outOfRange)

namespace Frame

/-- A tightly packed frame outside any pool. -/
def unpooled (width height : Nat) (format : PixelFormat) (samples : Array UInt16) : Frame :=
  { width, height, format, pts := 0, aspect := .one, lineSize := 3 * width, samples,
    pooled := false }

/-- Samples of a row without padding. -/
def rowSize (frame : Frame) : Nat := 3 * frame.width

/-- Takes over the timing and geometry of `other`, not its pixels. -/
def withPropsOf (frame other : Frame) : Frame :=
  { frame with pts := other.pts, aspect := other.aspect }

/-- The channels of one pixel, none if they lie outside the buffer. -/
def pixel? (frame : Frame) (x y : Nat) : Option (UInt16 × UInt16 × UInt16) := do
  let offset := y * frame.lineSize + 3 * x
  let first ← frame.samples[offset]?
  let second ← frame.samples[offset + 1]?
  let third ← frame.samples[offset + 2]?
  return (first, second, third)

/-- All rows without padding. A frame without padding is taken in one piece. -/
def packed (frame : Frame) : Except Fault (Array UInt16) :=
  if frame.lineSize = frame.rowSize then slice frame.samples 0 (frame.rowSize * frame.height)
  else
    (List.range frame.height).foldlM (fun packed y =>
      (slice frame.samples (y * frame.lineSize) frame.rowSize).map (packed ++ ·)) #[]

/-- The same, none where packing comes to no result. -/
def packed? (frame : Frame) : Option (Array UInt16) := frame.packed.toOption

def summary (frame : Frame) : String :=
  "Frame \x7b width: " ++ toString frame.width ++ ", height: " ++ toString frame.height ++
    ", format: " ++ frame.format.title ++ ", pts: " ++ toString frame.pts ++
    ", line_size: " ++ toString frame.lineSize ++ ", pooled: " ++ toString frame.pooled ++ " \x7d"

end Frame

/-- Counts the pooled frames that are alive. A frame released twice would push the count below
the truth, and below zero in the end. -/
structure Pool where
  live : Int
  deriving Repr, DecidableEq, Inhabited

namespace Pool

def empty : Pool := ⟨0⟩

def adopt (pool : Pool) (frame : Frame) : Frame × Pool :=
  ({ frame with pooled := true }, ⟨pool.live + 1⟩)

/-- A pooled, tightly packed frame of the given samples. -/
def wrap (pool : Pool) (width height : Nat) (format : PixelFormat) (samples : Array UInt16) :
    Frame × Pool :=
  pool.adopt (.unpooled width height format samples)

def alloc (pool : Pool) (width height : Nat) (format : PixelFormat) : Frame × Pool :=
  pool.wrap width height format (Array.replicate (3 * width * height) 0)

def release (pool : Pool) (frame : Frame) : Pool :=
  if frame.pooled then ⟨pool.live - 1⟩ else pool

def retain (pool : Pool) (frame : Frame) : Pool :=
  if frame.pooled then ⟨pool.live + 1⟩ else pool

/-- Lets go of the frame in a slot, if there is one. -/
def releaseSlot (pool : Pool) : Option Frame → Pool
  | some frame => pool.release frame
  | none => pool

def releaseAll (pool : Pool) (frames : List Frame) : Pool :=
  frames.foldl release pool

end Pool

end FrameRelay
