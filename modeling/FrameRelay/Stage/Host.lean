import FrameRelay.Stage.Basic

/-! The host of one stage: it negotiates the links and pulls frames from a source through the
stage until the stream has ended. -/

namespace FrameRelay

/-- Where frames come from, one at a time until none is left. -/
class Source (ρ : Type) where
  next : ρ → Pool → Outcome (Option Frame) × ρ × Pool
  /-- A bound on the frames still to come. -/
  left : ρ → Nat

/-- `drained` is the report of a drain that succeeded and `failure` the message of one that
failed, repeated on every later pull. -/
structure Host (ε π σ : Type) where
  stage : Stage ε π σ
  state : StreamState
  framesIn : Nat
  submissionFailures : Nat
  drained : Option DrainReport
  failure : Option String

structure HostStats where
  state : StreamState
  framesIn : Nat
  framesOut : Nat
  submissionFailures : Nat
  endSent : Bool
  drainPolls : Nat
  deriving Repr, DecidableEq, Inhabited

namespace Host
variable {ε π σ ρ : Type}

def start (stage : Stage ε π σ) : Host ε π σ := ⟨stage, .streaming, 0, 0, none, none⟩

def out (h : Host ε π σ) : Outlet σ := h.stage.station.out

def withOut (out : Outlet σ) (h : Host ε π σ) : Host ε π σ :=
  { h with stage := { h.stage with station := { h.stage.station with out } } }

def stats (h : Host ε π σ) : HostStats where
  state := h.state
  framesIn := h.framesIn
  framesOut := h.out.pushed
  submissionFailures := h.submissionFailures
  endSent := h.out.endSent
  drainPolls := (h.drained.map DrainReport.polls).getD 0

variable [Engine ε π]

/-- Configures the stage for a new stream. One that is open is retired first, but not for an
input of the wrong format. -/
def configure (link : Link) (h : Host ε π σ) : Outcome Link × Host ε π σ :=
  if link.format ≠ h.stage.options.format then
    (.error (.formatMismatch h.stage.options.format link.format), h)
  else
    match h.stage.configure link with
    | (.error cause, stage) => (.error cause, { h with stage })
    | (.ok outLink, stage) =>
      let h := { h with stage, state := .streaming, drained := none, failure := none }
      (.ok outLink, h.withOut (h.out.setLink outLink))

def close (h : Host ε π σ) : Host ε π σ := { h with stage := h.stage.close }

variable [Sink σ]

/-- Sends one frame of the source through the stage. -/
def takeFrame (frame : Frame) (h : Host ε π σ) : Outcome Flow × Host ε π σ :=
  let h := { h with framesIn := h.framesIn + 1 }
  match h.stage.accept frame with
  | (.ok (), stage) => (.ok .more, { h with stage })
  | (.error cause, stage) =>
    let failures :=
      if cause.kind = .submission then h.submissionFailures + 1 else h.submissionFailures
    (.error cause, { h with stage, submissionFailures := failures })

/-- Drains the stage after the last frame. Only a drain that succeeds lets the end of the stream
through. -/
def finish (h : Host ε π σ) : Outcome Flow × Host ε π σ :=
  match h.stage.drain with
  | (.error cause, stage) =>
    let cause := cause.intoDrain
    (.error cause, { h with stage, state := .failed, failure := some cause.message })
  | (.ok report, stage) =>
    let h := { h with stage, state := .closed, drained := some report }
    let (result, out) := h.out.endStream
    (result.map fun _ => .ended, h.withOut out)

variable [Source ρ]

/-- Pulls one frame from the source through the stage. A stream that has ended or failed answers
without touching anything. -/
def request (h : Host ε π σ) (source : ρ) : Outcome Flow × Host ε π σ × ρ :=
  match h.state with
  | .closed => (.ok .ended, h, source)
  | .failed => (.error (.streamFailed (h.failure.getD "")), h, source)
  | .streaming | .draining =>
    match Source.next source h.out.pool with
    | (.error cause, source, pool) => (.error cause, h.withOut { h.out with pool }, source)
    | (.ok (some frame), source, pool) =>
      let (result, h) := (h.withOut { h.out with pool }).takeFrame frame
      (result, h, source)
    | (.ok none, source, pool) =>
      let (result, h) := (h.withOut { h.out with pool }).finish
      (result, h, source)

end Host

end FrameRelay
