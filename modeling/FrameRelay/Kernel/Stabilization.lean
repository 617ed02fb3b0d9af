import FrameRelay.Engine.Model
import FrameRelay.Kernel.Picture

/-! Stabilization: a look-ahead window that gives back each picture in order, whole or cut to
its centre. -/

namespace FrameRelay.Kernel
open Number

/-- The pictures held back, oldest first, and the size to cut to. -/
structure Stabilization where
  window : Nat
  crop : Option (Nat × Nat)
  held : List Picture
  deriving Repr, DecidableEq, Inhabited

namespace Stabilization

/-- The part of a length that is kept, from 0.84 to 1. -/
def keptPart (smoothness : Float) : Float := 1.0 - clamp 0.0 0.16 (smoothness / 100.0)

/-- The even length nearest below the kept part, at least two where the length allows it. -/
def cropLength (part : Float) (length : Nat) : Nat :=
  let rounded := nearestNat 4294967295 (Float.ofNat length * part)
  min (max (rounded - rounded % 2) 2) length

/-- The size of the cut; none in full-frame mode. -/
def cropOf? (spec : ProcessorSpec) : Option (Nat × Nat) :=
  if spec.kind ≠ .stabilization ∨ 0 < spec.index then none
  else
    let smoothness := (spec.parameters.head?.map widen).getD 0.0
    let part := keptPart smoothness
    some (cropLength part spec.width, cropLength part spec.height)

/-- The centre of a picture, row by row. None if it is smaller than the cut or its samples do
not fill it. -/
def cut? (width height : Nat) (picture : Picture) : Option (Array UInt16) :=
  if picture.width < width ∨ picture.height < height then none
  else
    let left := (picture.width - width) / 2
    let top := (picture.height - height) / 2
    (List.range height).foldlM (fun rows y =>
      (slice? picture.samples ((top + y) * picture.rowSize + 3 * left) (3 * width)).map
        (rows ++ ·)) #[]

def emit? (crop : Option (Nat × Nat)) (picture : Picture) : Option Output :=
  match crop with
  | none => some picture.output
  | some (width, height) =>
    (cut? width height picture).map fun samples => ⟨width, height, picture.pts, some samples⟩

/-- Takes a picture in and gives out the oldest ones beyond the window. -/
def push? (state : Stabilization) (picture : Picture) : Option (Stabilization × List Output) := do
  let held := state.held ++ [picture]
  let surplus := held.length - state.window
  let outputs ← (held.take surplus).mapM (emit? state.crop)
  return ({ state with held := held.drop surplus }, outputs)

def finish? (state : Stabilization) : Option (Stabilization × List Output) := do
  let outputs ← state.held.mapM (emit? state.crop)
  return ({ state with held := [] }, outputs)

end Stabilization

end FrameRelay.Kernel
