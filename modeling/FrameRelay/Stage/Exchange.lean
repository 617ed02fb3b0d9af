import FrameRelay.Stage.Drain

/-! The exchange of frames with a processor: submit one, pass outputs on, throw outputs away. -/

namespace FrameRelay
variable {ε π σ τ : Type} [Engine ε π]

namespace Lease

/-- Submits a frame. A rejected frame is for the caller to let go. -/
def submit (frame : Frame) (l : Lease ε π) : Outcome Unit × Lease ε π :=
  match l.process frame with
  | (.ok (), l) => (.ok (), l)
  | (.error cause, l) => (.error (.submission frame.pts cause), l)

def discardMany : Nat → Lease ε π → Lease ε π
  | 0, l => l
  | count + 1, l => discardMany count l.discard.2

/-- Discards every ready output and says how many there were. -/
def ignoreOutput (l : Lease ε π) : Nat × Lease ε π :=
  let (count, l) := l.ready
  (count, l.discardMany count)

/-- Drains a processor whose outputs nobody wants. -/
def drainIgnoring (policy : DrainPolicy) (l : Lease ε π) (t : τ) :
    Outcome DrainReport × Lease ε π × τ :=
  drain policy (fun l t => (.ok (), l.ignoreOutput.2, t)) l t

/-- Ends, drains and destroys a handle that will not be used again. -/
def retire (policy : DrainPolicy) (l : Lease ε π) : ε :=
  (l.drainIgnoring policy ()).2.1.destroy

variable [Sink σ]

/-- Passes on the outputs from `index` to `count`, `left` of them, after `pushed` others. -/
def addFrom (reference : Frame) (count : Nat) :
    (left index pushed : Nat) → Lease ε π → Outlet σ → Outcome Nat × Lease ε π × Outlet σ
  | 0, _, pushed, l, out => (.ok pushed, l, out)
  | left + 1, index, pushed, l, out =>
    match out.buffer with
    | (.error cause, out) => (.error cause, l, out)
    | (.ok frame, out) =>
      match l.pull ⟨frame.samples, frame.lineSize⟩ with
      | (.error cause, l) => (.error (.output index count cause), l, out.release frame)
      | (.ok (pts, samples), l) =>
        let frame := { frame.withPropsOf reference with pts, samples }
        if pts < 0 then addFrom reference count left (index + 1) pushed l (out.release frame)
        else
          match out.push frame with
          | (.error cause, out) => (.error cause, l, out)
          | (.ok (), out) => addFrom reference count left (index + 1) (pushed + 1) l out

/-- Passes every ready output on with the properties of `reference` and the processor's pts.
An output with a negative pts is dropped. Says how many frames went out. -/
def addOutput (reference : Frame) (l : Lease ε π) (out : Outlet σ) :
    Outcome Nat × Lease ε π × Outlet σ :=
  let (count, l) := l.ready
  addFrom reference count count 0 0 l out

def pass (reference : Frame) (l : Lease ε π) (out : Outlet σ) :
    Outcome Unit × Lease ε π × Outlet σ :=
  let (result, l, out) := l.addOutput reference out
  (result.map fun _ => (), l, out)

/-- Drains while passing outputs on; without a frame to anchor them they are discarded. -/
def postflight (policy : DrainPolicy) (previous : Option Frame) (l : Lease ε π) (out : Outlet σ) :
    Outcome DrainReport × Lease ε π × Outlet σ :=
  match previous with
  | some reference => drain policy (pass reference) l out
  | none => l.drainIgnoring policy out

end Lease

end FrameRelay
