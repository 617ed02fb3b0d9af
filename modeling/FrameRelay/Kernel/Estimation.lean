import FrameRelay.Kernel.Picture
import FrameRelay.Number.Decimal

/-! Parameter estimation: the average brightness of a clip and how far its samples spread. -/

namespace FrameRelay.Kernel
open Number

/-- The number of pictures with the sums of their means and deviations, as parts of the
largest sample. -/
structure Estimation where
  pictures : Nat
  means : Float
  deviations : Float
  deriving Inhabited

namespace Estimation

def empty : Estimation := ⟨0, 0.0, 0.0⟩

def count (samples : Array UInt16) : Float := Float.ofNat (max samples.size 1)

def mean (samples : Array UInt16) : Float :=
  samples.foldl (fun sum v => sum + v.toFloat) 0.0 / count samples

def variance (samples : Array UInt16) (center : Float) : Float :=
  samples.foldl (fun sum v =>
    let distance := v.toFloat - center
    sum + distance * distance) 0.0 / count samples

def push (state : Estimation) (picture : Picture) : Estimation :=
  let center := mean picture.samples
  { pictures := state.pictures + 1
    means := state.means + center / 65535.0
    deviations := state.deviations + (variance picture.samples center).sqrt / 65535.0 }

/-- The line that sums up a clip, none for an empty one. -/
def report? (state : Estimation) : Option String :=
  if state.pictures = 0 then none
  else
    let n := Float.ofNat state.pictures
    some ("Parameter estimation over " ++ toString state.pictures ++ " frames: mean " ++
      fixedText 4 (state.means / n) ++ ", deviation " ++ fixedText 4 (state.deviations / n))

end Estimation

end FrameRelay.Kernel
