import FrameRelay.Stage.Error

/-! The downstream side of a stage: sinks, and the outlet that owns one together with the pool
of output frames. -/

namespace FrameRelay

/-- What a sink did with a frame: it keeps it, it is through with it, or it refuses it. -/
inductive Receipt where
  | kept
  | consumed
  | refused (reason : String)
  deriving Repr, DecidableEq

class Sink (σ : Type) where
  accept : Frame → σ → Receipt × σ
  /-- Takes note of the end of the stream, or refuses it. -/
  finish : σ → Except String Unit × σ

/-- What a recorder saw. -/
inductive Event where
  | frame (frame : Frame)
  | ended
  deriving Repr, DecidableEq, Inhabited

/-- A sink that records what it accepts and refuses what it is told to. -/
structure Recorder where
  refusedPts : List Int
  refusesEnd : Bool
  keeps : Bool
  events : List Event
  held : List Frame
  deriving Repr, DecidableEq, Inhabited

namespace Recorder

def empty : Recorder := ⟨[], false, false, [], []⟩

def accept (frame : Frame) (r : Recorder) : Receipt × Recorder :=
  if frame.pts ∈ r.refusedPts then (.refused ("frame " ++ toString frame.pts ++ " refused"), r)
  else
    let r := { r with events := r.events ++ [Event.frame frame] }
    if r.keeps then (.kept, { r with held := r.held ++ [frame] }) else (.consumed, r)

def finish (r : Recorder) : Except String Unit × Recorder :=
  if r.refusesEnd then (.error "eof refused", r)
  else (.ok (), { r with events := r.events ++ [Event.ended] })

instance : Sink Recorder := ⟨accept, finish⟩

end Recorder

/-- `pushed` counts the frames that the sink took, `endSent` is set once the end of the stream
went out on the present link. -/
structure Outlet (σ : Type) where
  link : Option Link
  sink : σ
  pool : Pool
  pushed : Nat
  endSent : Bool

namespace Outlet
variable {σ : Type}

def start (sink : σ) (pool : Pool) : Outlet σ := ⟨none, sink, pool, 0, false⟩

def setLink (link : Link) (o : Outlet σ) : Outlet σ :=
  { o with link := some link, endSent := false }

def release (frame : Frame) (o : Outlet σ) : Outlet σ := { o with pool := o.pool.release frame }

def releaseSlot (slot : Option Frame) (o : Outlet σ) : Outlet σ :=
  { o with pool := o.pool.releaseSlot slot }

/-- A frame of zeros of the size of the link. -/
def buffer (o : Outlet σ) : Outcome Frame × Outlet σ :=
  match o.link with
  | none => (.error .notConfigured, o)
  | some link =>
    let (frame, pool) := o.pool.alloc link.width link.height link.format
    (.ok frame, { o with pool })

variable [Sink σ]

/-- Hands a frame to the sink. It is given away in any case. -/
def push (frame : Frame) (o : Outlet σ) : Outcome Unit × Outlet σ :=
  match Sink.accept frame o.sink with
  | (.kept, sink) => (.ok (), { o with sink, pushed := o.pushed + 1 })
  | (.consumed, sink) => (.ok (), { o with sink, pushed := o.pushed + 1 }.release frame)
  | (.refused reason, sink) =>
    (.error (.downstream frame.pts reason), { o with sink }.release frame)

/-- Tells the sink that the stream has ended; only the first call does. -/
def endStream (o : Outlet σ) : Outcome Unit × Outlet σ :=
  if o.endSent then (.ok (), o)
  else
    match Sink.finish o.sink with
    | (.ok (), sink) => (.ok (), { o with sink, endSent := true })
    | (.error reason, sink) => (.error (.downstream (-1) reason), { o with sink, endSent := true })

end Outlet

end FrameRelay
