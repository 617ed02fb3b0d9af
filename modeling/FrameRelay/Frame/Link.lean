import FrameRelay.Frame.Basic

/-! The negotiated shape of a link between two nodes. -/

namespace FrameRelay

structure Link where
  width : Nat
  height : Nat
  format : PixelFormat
  timeBase : Ratio
  frameRate : Ratio
  aspect : Ratio
  deriving Repr, DecidableEq, Inhabited

/-- The size fits the words that links have for it. -/
def Link.InWords (link : Link) : Prop :=
  link.width < Number.shortLimit ∧ link.height < Number.shortLimit

instance (link : Link) : Decidable link.InWords :=
  inferInstanceAs (Decidable (link.width < Number.shortLimit ∧ link.height < Number.shortLimit))

/-- What one pull through a stage brought. -/
inductive Flow where
  | more
  | ended
  deriving Repr, DecidableEq

end FrameRelay
