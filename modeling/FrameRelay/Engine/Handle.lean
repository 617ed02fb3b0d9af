import FrameRelay.Engine.Basic

/-! A handle owns one processor for one stream. It refuses submissions once the stream has
ended and counts what goes in and out. -/

namespace FrameRelay

inductive HandleState where
  | streaming
  | draining
  | closed
  deriving Repr, DecidableEq, Inhabited

structure Handle (π : Type) where
  processor : π
  model : String
  state : HandleState
  submitted : Nat
  emitted : Nat
  deriving Inhabited

def Handle.start {π : Type} (processor : π) (model : String) : Handle π :=
  ⟨processor, model, .streaming, 0, 0⟩

/-- An engine together with the handle in use. -/
structure Lease (ε π : Type) where
  engine : ε
  handle : Handle π

namespace Lease
variable {ε π : Type} [Engine ε π]

def withProcessor (l : Lease ε π) (processor : π) (engine : ε) : Lease ε π :=
  { engine, handle := { l.handle with processor } }

def process (frame : Frame) (l : Lease ε π) : Except EngineError Unit × Lease ε π :=
  if l.handle.state ≠ .streaming then (.error .streamEnded, l)
  else
    match Engine.process frame l.handle.processor l.engine with
    | (.ok (), processor, engine) =>
      (.ok (), ⟨engine, { l.handle with processor, submitted := l.handle.submitted + 1 }⟩)
    | (.error cause, processor, engine) => (.error cause, l.withProcessor processor engine)

def ready (l : Lease ε π) : Nat × Lease ε π :=
  let (count, processor, engine) := Engine.ready l.handle.processor l.engine
  (count, l.withProcessor processor engine)

def discard (l : Lease ε π) : Except EngineError Int × Lease ε π :=
  match Engine.discard l.handle.processor l.engine with
  | (.ok pts, processor, engine) =>
    (.ok pts, ⟨engine, { l.handle with processor, emitted := l.handle.emitted + 1 }⟩)
  | (.error cause, processor, engine) => (.error cause, l.withProcessor processor engine)

def pull (buffer : Buffer) (l : Lease ε π) :
    Except EngineError (Int × Array UInt16) × Lease ε π :=
  match Engine.pull buffer l.handle.processor l.engine with
  | (.ok output, processor, engine) =>
    (.ok output, ⟨engine, { l.handle with processor, emitted := l.handle.emitted + 1 }⟩)
  | (.error cause, processor, engine) => (.error cause, l.withProcessor processor engine)

/-- Ends the processor's stream; only the first call does. -/
def endStream (l : Lease ε π) : Lease ε π :=
  if l.handle.state = .streaming then
    let (processor, engine) := Engine.endStream l.handle.processor l.engine
    ⟨engine, { l.handle with processor, state := .draining }⟩
  else l

def remaining (l : Lease ε π) : Nat × Lease ε π :=
  let (count, processor, engine) := Engine.remaining l.handle.processor l.engine
  (count, l.withProcessor processor engine)

def close (l : Lease ε π) : Lease ε π :=
  let l := l.endStream
  { l with handle := { l.handle with state := .closed } }

def outputSize (l : Lease ε π) : Option (Nat × Nat) :=
  Engine.outputSize l.handle.processor l.engine

/-- Lets the processor go without a word. -/
def drop (l : Lease ε π) : ε := Engine.release l.handle.processor l.engine

/-- Asks once more what remains, then lets the processor go. -/
def destroy (l : Lease ε π) : ε := l.remaining.2.drop

end Lease

end FrameRelay
