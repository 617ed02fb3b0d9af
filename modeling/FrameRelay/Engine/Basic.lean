import FrameRelay.Engine.Verify

/-! What a stage asks of an engine. An engine `ε` hands out processors `π`; each call may change
both, and all work that a call sets off is finished when it returns. -/

namespace FrameRelay

/-- Where a pulled output is written: rows start `lineSize` samples apart. -/
structure Buffer where
  samples : Array UInt16
  lineSize : Nat
  deriving Repr, DecidableEq, Inhabited

class Engine (ε : Type) (π : outParam Type) where
  offer : ε → Offer
  create : ProcessorSpec → ε → Except EngineError π × ε
  /-- Submits one frame. -/
  process : Frame → π → ε → Except EngineError Unit × π × ε
  /-- Outputs that can be pulled now. -/
  ready : π → ε → Nat × π × ε
  /-- Takes the next output without its pixels and gives its pts. -/
  discard : π → ε → Except EngineError Int × π × ε
  /-- Takes the next output and gives its pts and the buffer with its pixels. -/
  pull : Buffer → π → ε → Except EngineError (Int × Array UInt16) × π × ε
  /-- No more submissions follow. -/
  endStream : π → ε → π × ε
  /-- Outputs not pulled yet, those still in the making included. -/
  remaining : π → ε → Nat × π × ε
  /-- The size of outputs where it differs from the link's. -/
  outputSize : π → ε → Option (Nat × Nat)
  /-- The processor is gone. -/
  release : π → ε → ε

end FrameRelay
