import FrameRelay.Stage.Exchange

/-! A station: an engine, the session of one stage on it, the last frame submitted, and the
outlet. The session owns at most one handle. -/

namespace FrameRelay

structure Session (π : Type) where
  handle : Option (Handle π)
  settings : Option StreamSettings
  policy : DrainPolicy

def Session.start {π : Type} (policy : DrainPolicy) : Session π := ⟨none, none, policy⟩

/-- `previous` holds the last submitted frame, the reference for outputs to come. -/
structure Station (ε π σ : Type) where
  engine : ε
  session : Session π
  previous : Option Frame
  out : Outlet σ

namespace Station
variable {ε π σ : Type}

def start (engine : ε) (policy : DrainPolicy) (sink : σ) (pool : Pool) : Station ε π σ :=
  ⟨engine, .start policy, none, .start sink pool⟩

def clearPrevious (s : Station ε π σ) : Station ε π σ :=
  { s with previous := none, out := s.out.releaseSlot s.previous }

def keepPrevious (frame : Frame) (s : Station ε π σ) : Station ε π σ :=
  { s with previous := some frame, out := s.out.releaseSlot s.previous }

/-- Puts a lease back after a call on the open handle. -/
def withLease (l : Lease ε π) (s : Station ε π σ) : Station ε π σ :=
  { s with engine := l.engine, session := { s.session with handle := some l.handle } }

variable [Engine ε π]

/-- Retires the handle if one is open. -/
def close (s : Station ε π σ) : Station ε π σ :=
  match s.session.handle with
  | none => s
  | some handle =>
    { s with
      engine := Lease.retire s.session.policy ⟨s.engine, handle⟩
      session := { s.session with handle := none } }

/-- Retires what is open, then creates a processor for the settings. -/
def openStream (settings : StreamSettings) (link : Link) (s : Station ε π σ) :
    Outcome Link × Station ε π σ :=
  let s := s.close
  let s := { s with session := { s.session with settings := none } }
  match settings.resolve (Engine.offer s.engine) link with
  | .error cause => (.error cause, s)
  | .ok (spec, outLink) =>
    match Engine.create spec s.engine with
    | (.error cause, engine) => (.error (.create cause), { s with engine })
    | (.ok processor, engine) =>
      (.ok outLink, { s with
        engine
        session := { s.session with
          handle := some (.start processor spec.name), settings := some settings } })

/-- Submits a frame. It comes back for the caller on success and is let go on failure. -/
def submit (frame : Frame) (s : Station ε π σ) : Outcome Unit × Station ε π σ :=
  match s.session.handle with
  | none => (.error .notConfigured, { s with out := s.out.release frame })
  | some handle =>
    match Lease.submit frame ⟨s.engine, handle⟩ with
    | (.ok (), l) => (.ok (), s.withLease l)
    | (.error cause, l) => (.error cause, { s.withLease l with out := s.out.release frame })

def ignoreOutput (s : Station ε π σ) : Station ε π σ :=
  match s.session.handle with
  | none => s
  | some handle => s.withLease (Lease.ignoreOutput ⟨s.engine, handle⟩).2

/-- Takes the handle out for a drain and destroys it afterwards, also when the drain fails. -/
def drainAndDestroy
    (run : DrainPolicy → Lease ε π → Outlet σ → Outcome DrainReport × Lease ε π × Outlet σ)
    (s : Station ε π σ) : Outcome DrainReport × Station ε π σ :=
  match s.session.handle with
  | none => (.error .notConfigured, s)
  | some handle =>
    let (result, l, out) := run s.session.policy ⟨s.engine, handle⟩ s.out
    (result, { s with engine := l.destroy, session := { s.session with handle := none }, out })

def drainWith (step : Lease ε π → Outlet σ → Outcome Unit × Lease ε π × Outlet σ)
    (s : Station ε π σ) : Outcome DrainReport × Station ε π σ :=
  s.drainAndDestroy fun policy => drain policy step

def drainIgnoring (s : Station ε π σ) : Outcome DrainReport × Station ε π σ :=
  s.drainWith fun l out => (.ok (), l.ignoreOutput.2, out)

variable [Sink σ]

/-- Passes on what is ready, anchored on `reference`. -/
def addOutput (reference : Frame) (s : Station ε π σ) : Outcome Nat × Station ε π σ :=
  match s.session.handle with
  | none => (.error .notConfigured, s)
  | some handle =>
    let (result, l, out) := Lease.addOutput reference ⟨s.engine, handle⟩ s.out
    (result, { s.withLease l with out })

/-- Drains with the last frame as the reference. -/
def postflight (s : Station ε π σ) : Outcome DrainReport × Station ε π σ :=
  s.drainAndDestroy fun policy => Lease.postflight policy s.previous

/-- The step of a stage that synthesizes: submit, keep the frame, pass on what is ready. -/
def synthesize (frame : Frame) (s : Station ε π σ) : Outcome Nat × Station ε π σ :=
  match s.submit frame with
  | (.error cause, s) => (.error cause, s)
  | (.ok (), s) => (s.keepPrevious frame).addOutput frame

/-- The drain of a stage that synthesizes. The last frame is let go when the processor is. -/
def finishSynthesis (s : Station ε π σ) : Outcome DrainReport × Station ε π σ :=
  let (result, s) := s.postflight
  (result, s.clearPrevious)

/-- The step of a stage that estimates: submit, throw outputs away, hand the frame on. -/
def passThrough (frame : Frame) (s : Station ε π σ) : Outcome Unit × Station ε π σ :=
  match s.submit frame with
  | (.error cause, s) => (.error cause, s)
  | (.ok (), s) =>
    let s := s.ignoreOutput
    let (result, out) := s.out.push frame
    (result, { s with out })

end Station

end FrameRelay
