import FrameRelay.Proofs.Parametricity

/-! Engines and sinks that note the calls they get. Notes change nothing, so they say what the
engine and the sink of any host get to see. -/

namespace FrameRelay

/-- What an engine is asked, as far as the life of its processors goes. A creation that is refused
makes no processor and is not noted. -/
inductive ProcessorCall where
  | created
  | processed (frame : Frame) (taken : Bool)
  | asked
  | ended
  | released
  deriving DecidableEq

inductive SinkCall where
  | offered (frame : Frame)
  | ended
  deriving DecidableEq

/-- A thing with notes on the calls it got so far. -/
structure Noted (α κ : Type) where
  inner : α
  notes : List κ

namespace Noted
variable {ε π σ : Type}

def add {α κ : Type} (s : Noted α κ) (inner : α) (note : κ) : Noted α κ :=
  ⟨inner, s.notes ++ [note]⟩

instance [Engine ε π] : Engine (Noted ε ProcessorCall) π where
  offer s := Engine.offer s.inner
  create spec s :=
    match Engine.create spec s.inner with
    | (.ok p, inner) => (.ok p, s.add inner .created)
    | (.error cause, inner) => (.error cause, { s with inner })
  process frame p s :=
    match Engine.process frame p s.inner with
    | (.ok (), p, inner) => (.ok (), p, s.add inner (.processed frame true))
    | (.error cause, p, inner) => (.error cause, p, s.add inner (.processed frame false))
  ready p s :=
    let (count, p, inner) := Engine.ready p s.inner
    (count, p, s.add inner .asked)
  discard p s :=
    let (result, p, inner) := Engine.discard p s.inner
    (result, p, s.add inner .asked)
  pull buffer p s :=
    let (result, p, inner) := Engine.pull buffer p s.inner
    (result, p, s.add inner .asked)
  endStream p s :=
    let (p, inner) := Engine.endStream p s.inner
    (p, s.add inner .ended)
  remaining p s :=
    let (count, p, inner) := Engine.remaining p s.inner
    (count, p, s.add inner .asked)
  outputSize p s := Engine.outputSize p s.inner
  release p s := s.add (Engine.release p s.inner) .released

instance [Sink σ] : Sink (Noted σ SinkCall) where
  accept frame s :=
    let (receipt, inner) := Sink.accept frame s.inner
    (receipt, s.add inner (.offered frame))
  finish s :=
    let (result, inner) := Sink.finish s.inner
    (result, s.add inner .ended)

/-- Without its notes the engine is the one it was. -/
def engine (ε π : Type) [Engine ε π] : EngineMap (Noted ε ProcessorCall) ε π where
  map := inner
  offer _ := rfl
  create spec s := by
    simp only [Engine.create]
    rcases Engine.create spec s.inner with ⟨_ | _, e⟩ <;> rfl
  process frame p s := by
    simp only [Engine.process]
    rcases Engine.process frame p s.inner with ⟨_ | _, p, e⟩ <;> rfl
  ready _ _ := rfl
  discard _ _ := rfl
  pull _ _ _ := rfl
  endStream _ _ := rfl
  remaining _ _ := rfl
  outputSize _ _ := rfl
  release _ _ := rfl

/-- Without its notes the sink is the one it was. -/
def sink (σ : Type) [Sink σ] : SinkMap (Noted σ SinkCall) σ where
  map := inner
  accept _ _ := rfl
  finish _ := rfl

end Noted

namespace World
variable {ε π σ ρ κ : Type}

/-- The same world where engine and sink start to take notes. -/
def noted (w : World ε π σ ρ) :
    World (Noted ε ProcessorCall) π (Noted σ SinkCall) ρ :=
  let station := w.host.stage.station
  let out := station.out
  let notedOut := ⟨out.link, ⟨out.sink, []⟩, out.pool, out.pushed, out.endSent⟩
  let notedStation := ⟨⟨station.engine, []⟩, station.session, station.previous, notedOut⟩
  let stage := ⟨w.host.stage.options, notedStation, w.host.stage.retiming⟩
  ⟨⟨stage, w.host.state, w.host.framesIn, w.host.submissionFailures, w.host.drained,
    w.host.failure⟩, w.source⟩

/-- An event outside leaves the notes as they are. -/
def besideNotes (act : κ → Surroundings ε σ ρ → Surroundings ε σ ρ) (event : κ)
    (s : Surroundings (Noted ε ProcessorCall) (Noted σ SinkCall) ρ) :
    Surroundings (Noted ε ProcessorCall) (Noted σ SinkCall) ρ :=
  let after := act event ⟨s.engine.inner, s.sink.inner, s.pool, s.source⟩
  ⟨⟨after.engine, s.engine.notes⟩, ⟨after.sink, s.sink.notes⟩, after.pool, after.source⟩

variable [Engine ε π] [Sink σ] [Source ρ] (act : κ → Surroundings ε σ ρ → Surroundings ε σ ρ)

/-- What is left of a call when the notes are thrown away is the call. -/
theorem map_noted_perform (w : World ε π σ ρ) (call : Call κ) :
    w.perform act call =
      Prod.map id (map (Noted.engine ε π) (Noted.sink σ))
        (w.noted.perform (besideNotes act) call) :=
  map_perform (Noted.engine ε π) (Noted.sink σ) (fun _ _ => rfl) w.noted call

/-- What the engine is asked during one call. -/
def processorCalls (w : World ε π σ ρ) (call : Call κ) : List ProcessorCall :=
  (w.noted.perform (besideNotes act) call).2.host.stage.station.engine.notes

/-- What the sink is asked during one call. -/
def sinkCalls (w : World ε π σ ρ) (call : Call κ) : List SinkCall :=
  (w.noted.perform (besideNotes act) call).2.host.out.sink.notes

/-- What the engine is asked during a history. -/
def processorHistory (w : World ε π σ ρ) : List (Call κ) → List ProcessorCall
  | [] => []
  | call :: rest => w.processorCalls act call ++ (w.perform act call).2.processorHistory rest

/-- What the sink has been asked since the last configuration that succeeded, `before` being what
it was asked since then up to now. -/
def sinkHistory (w : World ε π σ ρ) (before : List SinkCall) : List (Call κ) → List SinkCall
  | [] => before
  | call :: rest =>
    let (answer, after) := w.perform act call
    after.sinkHistory (if answer.opens then [] else before ++ w.sinkCalls act call) rest

end World

end FrameRelay
