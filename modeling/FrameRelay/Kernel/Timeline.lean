import FrameRelay.Number.Binary

/-! The numbers on which positions in a stream are measured. A kernel runs on doubles; on exact
ratios the same kernel shows its schedule free of rounding. -/

namespace FrameRelay.Kernel

/-- What is needed beside arithmetic and order. `reach step limit` is a count from which on no
multiple of `step` lies at or below `limit`. -/
class Timeline (α : Type) where
  ofInt : Int → α
  slack : α
  nearest : α → Int
  mix : UInt16 → UInt16 → α → UInt16
  reach : α → α → Nat

namespace Timeline

/-- The sample at `t` on the way from `a` to `b`. -/
def mixDouble (a b : UInt16) (t : Float) : UInt16 :=
  Number.nearestSample (a.toFloat + (b.toFloat - a.toFloat) * t)

/-- The quotient of two positive doubles without its fraction, and two more. -/
def reachDouble (step limit : Float) : Nat :=
  match Number.Parts.ofDouble step, Number.Parts.ofDouble limit with
  | .finite false stepMantissa stepExponent, .finite false limitMantissa limitExponent =>
    if stepMantissa = 0 then 0
    else
      limitMantissa * Number.twoTo limitExponent.toNat * Number.twoTo (-stepExponent).toNat /
        (stepMantissa * Number.twoTo stepExponent.toNat * Number.twoTo (-limitExponent).toNat) + 2
  | _, _ => 0

instance : Timeline Float where
  ofInt := Float.ofInt
  slack := 1e-9
  nearest := Number.nearestWord
  mix := mixDouble
  reach := reachDouble

end Timeline

end FrameRelay.Kernel
