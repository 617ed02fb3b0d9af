import FrameRelay.Proofs.Likeness

/-! Images of engines and sinks. Where one engine is the image of another and one sink the image of
another, no call tells them apart, so a host's answers agree and its state after each call is the
image of the other's. An engine or a sink may keep notes about the calls it gets without changing
what happens. -/

namespace FrameRelay

/-- The second engine does to the image what the first one does. -/
structure EngineMap (ε ε' π : Type) [Engine ε π] [Engine ε' π] where
  map : ε → ε'
  offer (e : ε) : Engine.offer (map e) = Engine.offer e
  create (spec : ProcessorSpec) (e : ε) :
    Engine.create spec (map e) = Prod.map id map (Engine.create spec e)
  process (frame : Frame) (p : π) (e : ε) :
    Engine.process frame p (map e) = Prod.map id (Prod.map id map) (Engine.process frame p e)
  ready (p : π) (e : ε) :
    Engine.ready p (map e) = Prod.map id (Prod.map id map) (Engine.ready p e)
  discard (p : π) (e : ε) :
    Engine.discard p (map e) = Prod.map id (Prod.map id map) (Engine.discard p e)
  pull (buffer : Buffer) (p : π) (e : ε) :
    Engine.pull buffer p (map e) = Prod.map id (Prod.map id map) (Engine.pull buffer p e)
  endStream (p : π) (e : ε) :
    Engine.endStream p (map e) = Prod.map id map (Engine.endStream p e)
  remaining (p : π) (e : ε) :
    Engine.remaining p (map e) = Prod.map id (Prod.map id map) (Engine.remaining p e)
  outputSize (p : π) (e : ε) : Engine.outputSize p (map e) = Engine.outputSize p e
  release (p : π) (e : ε) : Engine.release p (map e) = map (Engine.release p e)

/-- The second sink does to the image what the first one does. -/
structure SinkMap (σ σ' : Type) [Sink σ] [Sink σ'] where
  map : σ → σ'
  accept (frame : Frame) (s : σ) :
    Sink.accept frame (map s) = Prod.map id map (Sink.accept frame s)
  finish (s : σ) : Sink.finish (map s) = Prod.map id map (Sink.finish s)

theorem Agree.of_map {α β β' : Type} (image : β → β') (x : α × β) :
    Agree (fun left right => right = image left) x (Prod.map id image x) := ⟨_, _, _, rfl⟩

theorem Agree.eq_map {α β β' : Type} {Related : β → β' → Prop} {image : β → β'}
    (graph : ∀ left right, Related left right → right = image left) {x : α × β} {y : α × β'}
    (agree : Agree Related x y) : y = Prod.map id image x := by
  obtain ⟨answer, left, right, related⟩ := agree
  rw [graph left right related]
  rfl

/-- An engine and its image with the same processor. -/
def EngineMap.bisimulation {ε ε' π : Type} [Engine ε π] [Engine ε' π] (f : EngineMap ε ε' π) :
    EngineBisimulation ε π ε' π where
  Vacant e e' := e' = f.map e
  Serving _ x y := y = Prod.map id f.map x
  process frame alike := by
    obtain ⟨rfl, rfl⟩ := Prod.mk.inj alike
    exact f.process frame _ _ ▸ .of_map _ _
  ready alike := by
    obtain ⟨rfl, rfl⟩ := Prod.mk.inj alike
    exact f.ready _ _ ▸ .of_map _ _
  discard alike := by
    obtain ⟨rfl, rfl⟩ := Prod.mk.inj alike
    exact f.discard _ _ ▸ .of_map _ _
  pull buffer alike := by
    obtain ⟨rfl, rfl⟩ := Prod.mk.inj alike
    exact f.pull buffer _ _ ▸ .of_map _ _
  remaining alike := by
    obtain ⟨rfl, rfl⟩ := Prod.mk.inj alike
    exact f.remaining _ _ ▸ .of_map _ _
  endStream alike := by
    obtain ⟨rfl, rfl⟩ := Prod.mk.inj alike
    exact f.endStream _ _
  outputSize alike := by
    obtain ⟨rfl, rfl⟩ := Prod.mk.inj alike
    exact (f.outputSize _ _).symm
  release alike := by
    obtain ⟨rfl, rfl⟩ := Prod.mk.inj alike
    exact f.release _ _
  offer alike := alike ▸ (f.offer _).symm
  create {e e'} spec alike := by
    subst alike
    rw [f.create]
    rcases Engine.create spec e with ⟨cause | p, e⟩
    · exact .refused cause rfl
    · exact .created rfl

/-- A sink and its image. -/
def SinkMap.bisimulation {σ σ' : Type} [Sink σ] [Sink σ'] (g : SinkMap σ σ') :
    SinkBisimulation σ σ' where
  Related s s' := s' = g.map s
  accept frame related := by
    subst related
    exact g.accept frame _ ▸ .of_map _ _
  finish related := by
    subst related
    exact g.finish _ ▸ .of_map _ _

section
variable {ε ε' π σ σ' ρ κ : Type} [Engine ε π] [Engine ε' π] [Sink σ] [Sink σ']
  (f : EngineMap ε ε' π) (g : SinkMap σ σ')

def Lease.map (l : Lease ε π) : Lease ε' π := ⟨f.map l.engine, l.handle⟩

theorem Lease.alike_iff_map {stopped : Bool} {l : Lease ε π} {l' : Lease ε' π} :
    l.Alike f.bisimulation.toServiceBisimulation stopped l' ↔
      (l.handle.state != .streaming) = stopped ∧ l' = l.map f := by
  constructor
  · rintro ⟨model, state, submitted, emitted, ends, serving⟩
    obtain ⟨rfl, rfl⟩ := Prod.mk.inj serving
    exact ⟨ends, rfl⟩
  · rintro ⟨ends, rfl⟩
    exact ⟨_, _, _, _, ends, rfl⟩

namespace Outlet

def map (o : Outlet σ) : Outlet σ' := ⟨o.link, g.map o.sink, o.pool, o.pushed, o.endSent⟩

theorem alike_iff_map {o : Outlet σ} {o' : Outlet σ'} :
    o.Alike g.bisimulation {} o' ↔ o' = o.map g := by
  constructor
  · rintro ⟨link, sink, live, pushed, endSent⟩
    rcases o with ⟨_, s, ⟨live₁⟩, pushed₁, _⟩
    rcases o' with ⟨_, s', ⟨live₂⟩, pushed₂, _⟩
    cases link
    cases endSent
    obtain rfl : live₁ = live₂ := by simpa using live
    obtain rfl : pushed₁ = pushed₂ := pushed
    rw [show s' = g.map s from sink]
    rfl
  · rintro rfl
    exact ⟨rfl, rfl, (Int.add_zero _).symm, rfl, rfl⟩

end Outlet

namespace Station

def map (s : Station ε π σ) : Station ε' π σ' :=
  ⟨f.map s.engine, s.session, s.previous, s.out.map g⟩

theorem alike_iff_map {s : Station ε π σ} {s' : Station ε' π σ'} :
    s.Alike f.bisimulation.toServiceBisimulation g.bisimulation {} s' ↔ s' = s.map f g := by
  constructor
  · rintro (⟨settings, policy, previous, outs, engines⟩ |
      ⟨settings, policy, previous, outs, stopped, leases⟩)
    · obtain rfl := (Outlet.alike_iff_map g).mp outs
      rw [show _ = f.map _ from engines]
      rfl
    · obtain rfl := (Outlet.alike_iff_map g).mp outs
      obtain ⟨_, same⟩ := (Lease.alike_iff_map f).mp leases
      cases same
      rfl
  · rintro rfl
    have outs := (Outlet.alike_iff_map g).mpr (rfl : s.out.map g = _)
    rcases s with ⟨engine, ⟨_ | handle, settings, policy⟩, previous, out⟩
    · exact .vacant _ _ _ outs rfl
    · exact .held _ _ _ outs _ ((Lease.alike_iff_map f).mpr ⟨rfl, rfl⟩)

end Station

namespace Stage

def map (stage : Stage ε π σ) : Stage ε' π σ' :=
  ⟨stage.options, stage.station.map f g, stage.retiming⟩

theorem alike_iff_map {stage : Stage ε π σ} {stage' : Stage ε' π σ'} :
    stage.Alike f.bisimulation.toServiceBisimulation g.bisimulation {} stage' ↔
      stage' = stage.map f g := by
  constructor
  · rintro ⟨options, retiming, stations⟩
    rw [(Station.alike_iff_map f g).mp stations]
    rfl
  · rintro rfl
    exact ⟨_, _, (Station.alike_iff_map f g).mpr rfl⟩

theorem map_drain (stage : Stage ε π σ) :
    (stage.map f g).drain = Prod.map id (map f g) stage.drain := by
  have drained := alike_drain ((alike_iff_map f g).mpr (rfl : stage.map f g = _))
  refine Agree.eq_map ?_ drained
  exact fun _ _ alike => (alike_iff_map f g).mp alike

end Stage

namespace Host

def map (h : Host ε π σ) : Host ε' π σ' :=
  ⟨h.stage.map f g, h.state, h.framesIn, h.submissionFailures, h.drained, h.failure⟩

theorem alike_iff_map {h : Host ε π σ} {h' : Host ε' π σ'} :
    h.Alike f.bisimulation.toServiceBisimulation g.bisimulation {} h' ↔ h' = h.map f g := by
  constructor
  · rintro ⟨stages, state, framesIn, failures, drained, failure⟩
    have stage := (Stage.alike_iff_map f g).mp stages
    rcases h with ⟨_, _, _, _, _, _⟩
    rcases h' with ⟨_, _, _, _, _, _⟩
    cases stage
    cases state
    cases framesIn
    cases failures
    cases drained
    cases failure
    rfl
  · rintro rfl
    exact ⟨(Stage.alike_iff_map f g).mpr rfl, rfl, rfl, rfl, rfl, rfl⟩

end Host

namespace World

def map (w : World ε π σ ρ) : World ε' π σ' ρ := ⟨w.host.map f g, w.source⟩

theorem alike_iff_map {w : World ε π σ ρ} {w' : World ε' π σ' ρ} :
    w.Alike f.bisimulation.toServiceBisimulation g.bisimulation {} w' ↔ w' = w.map f g := by
  constructor
  · rintro ⟨hosts, sources⟩
    rcases w' with ⟨_, _⟩
    cases (Host.alike_iff_map f g).mp hosts
    cases sources
    rfl
  · rintro rfl
    exact ⟨(Host.alike_iff_map f g).mpr rfl, rfl⟩

theorem map_perform [Source ρ] {act : κ → Surroundings ε σ ρ → Surroundings ε σ ρ}
    {act' : κ → Surroundings ε' σ' ρ → Surroundings ε' σ' ρ}
    (alike : ∀ event (w : World ε π σ ρ),
      (w.map f g).withSurroundings (act' event (w.map f g).surroundings) =
        (w.withSurroundings (act event w.surroundings)).map f g)
    (w : World ε π σ ρ) (call : Call κ) :
    (w.map f g).perform act' call = Prod.map id (map f g) (w.perform act call) := by
  have events (event : κ) (w : World ε π σ ρ) (w' : World ε' π σ' ρ)
      (same : w.Alike f.bisimulation.toServiceBisimulation g.bisimulation {} w') :
      (w.withSurroundings (act event w.surroundings)).Alike f.bisimulation.toServiceBisimulation
        g.bisimulation {} (w'.withSurroundings (act' event w'.surroundings)) := by
    obtain rfl := (alike_iff_map f g).mp same
    exact (alike_iff_map f g).mpr (alike event w)
  exact (alike_perform (Source.blind_zero ρ) events ((alike_iff_map f g).mpr rfl) call).eq_map
    fun _ _ => (alike_iff_map f g).mp

end World

end

end FrameRelay
