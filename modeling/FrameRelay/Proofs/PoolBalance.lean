import FrameRelay.Proofs.Slot

/-! The balance of the pool. After each call of a host its count of living frames is that of the
pooled frames which the sink still holds, the source still queues and the slot of the last frame
keeps. So no frame is lost and none is released twice, whatever engine, sink and source do. -/

namespace FrameRelay

/-- What a frame counts in its pool. -/
def Frame.weight (frame : Frame) : Int := if frame.pooled then 1 else 0

def slotWeight (slot : Option Frame) : Int := (slot.map Frame.weight).getD 0

@[simp] theorem slotWeight_none : slotWeight none = 0 := rfl

@[simp] theorem slotWeight_some (frame : Frame) : slotWeight (some frame) = frame.weight := rfl

/-- The pooled frames of a list. -/
def pooledCount (frames : List Frame) : Int := frames.countP (·.pooled)

@[simp] theorem pooledCount_nil : pooledCount [] = 0 := rfl

theorem pooledCount_append (first second : List Frame) :
    pooledCount (first ++ second) = pooledCount first + pooledCount second := by
  simp [pooledCount, List.countP_append]

theorem pooledCount_cons (frame : Frame) (rest : List Frame) :
    pooledCount (frame :: rest) = frame.weight + pooledCount rest := by
  simp only [pooledCount, List.countP_cons, Frame.weight]
  by_cases pooled : frame.pooled = true
  · simp only [pooled, if_true]
    omega
  · rw [if_neg pooled, if_neg pooled]
    omega

/-- A sink that holds the frames it says it keeps, and no others. -/
class Holder (σ : Type) extends Sink σ where
  held : σ → List Frame
  held_accept (frame : Frame) (s : σ) : held (accept frame s).2 =
    if (accept frame s).1 = .kept then held s ++ [frame] else held s
  held_finish (s : σ) : held (finish s).2 = held s

/-- A source that queues frames which the pool counts, or makes them in the pool when asked. -/
class Supplier (ρ : Type) extends Source ρ where
  queued : ρ → List Frame
  next_balance (s : ρ) (pool : Pool) :
    (next s pool).2.2.live - pooledCount (queued (next s pool).2.1) =
      pool.live - pooledCount (queued s) +
        slotWeight (match (next s pool).1 with | .ok frame => frame | .error _ => none)

instance : Holder Recorder where
  held := Recorder.held
  held_accept frame r := by
    simp only [Sink.accept, Recorder.accept]
    split
    · simp
    · by_cases keeps : r.keeps = true <;> simp [keeps]
  held_finish r := by
    simp only [Sink.finish, Recorder.finish]
    split <;> rfl

instance : Supplier Queue where
  queued := Queue.frames
  next_balance queue pool := by
    rcases queue with ⟨frames, _ | reason⟩
    · cases frames with
      | nil => simp [Source.next, Queue.next, slotWeight]
      | cons frame rest =>
        simp only [Source.next, Queue.next, pooledCount_cons, slotWeight, Option.map, Option.getD]
        omega
    · simp [Source.next, Queue.next, slotWeight]

instance : Supplier Clip where
  queued _ := []
  next_balance clip pool := by
    simp only [Source.next, Clip.next]
    split
    · simp [slotWeight]
    · simp [slotWeight, Clip.render, Pool.wrap, Pool.adopt, Frame.weight]

theorem live_release (pool : Pool) (frame : Frame) :
    (pool.release frame).live = pool.live - frame.weight := by
  by_cases pooled : frame.pooled = true <;> simp [Pool.release, Frame.weight, pooled]

theorem live_releaseSlot (pool : Pool) (slot : Option Frame) :
    (pool.releaseSlot slot).live = pool.live - slotWeight slot := by
  cases slot with
  | none => simp [Pool.releaseSlot, slotWeight]
  | some frame => exact live_release pool frame

section surplus
variable {ε π σ ρ : Type} [Holder σ]

namespace Outlet

/-- The living frames that the sink does not hold. -/
def surplus (o : Outlet σ) : Int := o.pool.live - pooledCount (Holder.held o.sink)

theorem surplus_release (frame : Frame) (o : Outlet σ) :
    (o.release frame).surplus = o.surplus - frame.weight := by
  simp only [surplus, release, live_release]
  omega

theorem surplus_releaseSlot (slot : Option Frame) (o : Outlet σ) :
    (o.releaseSlot slot).surplus = o.surplus - slotWeight slot := by
  simp only [surplus, releaseSlot, live_releaseSlot]
  omega

theorem surplus_buffer {o o' : Outlet σ} {frame : Frame} (taken : o.buffer = (.ok frame, o')) :
    o'.surplus = o.surplus + frame.weight := by
  rcases o with ⟨_ | link, sink, pool, pushed, endSent⟩
  · cases taken
  · cases taken
    change pool.live + 1 - pooledCount (Holder.held sink) =
      pool.live - pooledCount (Holder.held sink) + 1
    omega

theorem surplus_push (frame : Frame) (o : Outlet σ) :
    (o.push frame).2.surplus = o.surplus - frame.weight := by
  have held := Holder.held_accept frame o.sink
  unfold push
  generalize Sink.accept frame o.sink = answer at held
  rcases answer with ⟨_ | _ | reason, sink⟩
  · simp only [if_true] at held
    simp only [surplus, held, pooledCount_append, pooledCount_cons, pooledCount_nil]
    omega
  · simp only [reduceCtorEq, if_false] at held
    rw [surplus_release]
    simp only [surplus, held]
  · simp only [reduceCtorEq, if_false] at held
    rw [surplus_release]
    simp only [surplus, held]

theorem surplus_endStream (o : Outlet σ) : o.endStream.2.surplus = o.surplus := by
  have held := Holder.held_finish o.sink
  unfold endStream
  split
  · rfl
  · generalize Sink.finish o.sink = answer at held
    rcases answer with ⟨_ | _, sink⟩ <;> simp only [surplus] <;> rw [held]

theorem surplus_of_emission {o o' : Outlet σ} (emitted : o.Emission o') :
    o'.surplus = o.surplus := by
  induction emitted with
  | refl => rfl
  | tail _ step ih =>
    rw [← ih]
    cases step with
    | dropped taken same =>
      rw [surplus_release, surplus_buffer taken, Frame.weight, Frame.weight, same]
      omega
    | handed taken same =>
      rw [surplus_push, surplus_buffer taken, Frame.weight, Frame.weight, same]
      omega

end Outlet

namespace Station

/-- The living frames that neither the sink holds nor the slot of the last frame keeps. -/
def surplus (s : Station ε π σ) : Int := s.out.surplus - slotWeight s.previous

theorem surplus_clearPrevious (s : Station ε π σ) : s.clearPrevious.surplus = s.surplus := by
  simp only [surplus, clearPrevious, Outlet.surplus_releaseSlot]
  simp [slotWeight]

theorem surplus_keepPrevious (frame : Frame) (s : Station ε π σ) :
    (s.keepPrevious frame).surplus = s.surplus - frame.weight := by
  simp only [surplus, keepPrevious, Outlet.surplus_releaseSlot]
  simp [slotWeight]

theorem surplus_of_emission {s s' : Station ε π σ} (emitted : s.out.Emission s'.out)
    (slot : s'.previous = s.previous) : s'.surplus = s.surplus := by
  rw [surplus, surplus, Outlet.surplus_of_emission emitted, slot]

variable [Engine ε π]

theorem surplus_close (s : Station ε π σ) : s.close.surplus = s.surplus := by
  rcases s with ⟨engine, ⟨_ | handle, settings, policy⟩, previous, out⟩ <;> rfl

theorem surplus_openStream (settings : StreamSettings) (link : Link) (s : Station ε π σ) :
    (s.openStream settings link).2.surplus = s.surplus := by
  obtain ⟨out, previous⟩ := openStream_apart settings link s
  rw [← surplus_close s, surplus, surplus, out, previous]

theorem surplus_configures {link : Link} {succeeds : Bool} {s s' : Station ε π σ}
    (configures : s.Configures link succeeds s') :
    s'.surplus = s.surplus := by
  induction configures with
  | left s => rfl
  | opened settings s => exact surplus_openStream settings link s
  | cleared _ ih => exact ih.trans (surplus_clearPrevious _)

/-- A frame that is rejected is let go; the caller keeps one that is not. -/
theorem surplus_submit (frame : Frame) (s : Station ε π σ) :
    (∃ s', s.submit frame = (.ok (), s') ∧ s'.surplus = s.surplus) ∨
      ∃ cause s', s.submit frame = (.error cause, s') ∧
        s'.surplus = s.surplus - frame.weight := by
  have released : s.out.surplus - frame.weight - slotWeight s.previous =
      s.surplus - frame.weight := by simp only [surplus]; omega
  rcases s with ⟨engine, ⟨_ | handle, settings, policy⟩, previous, out⟩
  · refine .inr ⟨_, _, rfl, ?_⟩
    rw [← released, surplus, Outlet.surplus_release]
  · simp only [submit]
    rcases Lease.submit frame ⟨engine, handle⟩ with ⟨_ | _, l⟩
    · refine .inr ⟨_, _, rfl, Eq.trans ?_ released⟩
      exact congrArg (· - slotWeight previous) (Outlet.surplus_release frame out)
    · exact .inl ⟨_, rfl, rfl⟩

theorem surplus_synthesize (frame : Frame) (s : Station ε π σ) :
    (s.synthesize frame).2.surplus = s.surplus - frame.weight := by
  rcases surplus_submit frame s with ⟨s', answer, kept⟩ | ⟨cause, s', answer, released⟩
  · simp only [synthesize, answer]
    obtain ⟨emitted, slot⟩ := emission_addOutput frame (s'.keepPrevious frame)
    rw [surplus_of_emission emitted slot, surplus_keepPrevious, kept]
  · simp only [synthesize, answer, released]

theorem surplus_finishSynthesis (s : Station ε π σ) :
    s.finishSynthesis.2.surplus = s.surplus := by
  obtain ⟨emitted, slot⟩ := emission_postflight s
  simp only [finishSynthesis, surplus_clearPrevious, surplus_of_emission emitted slot]

theorem surplus_passThrough (frame : Frame) (s : Station ε π σ) :
    (s.passThrough frame).2.surplus = s.surplus - frame.weight := by
  rcases surplus_submit frame s with ⟨s', answer, kept⟩ | ⟨cause, s', answer, released⟩
  · simp only [passThrough, answer]
    obtain ⟨out, previous⟩ := ignoreOutput_apart s'
    rw [surplus, Outlet.surplus_push, out, previous, ← kept, surplus]
    omega
  · simp only [passThrough, answer, released]

end Station

namespace Stage
variable [Engine ε π]

theorem surplus_configure (link : Link) (stage : Stage ε π σ) :
    (stage.configure link).2.station.surplus = stage.station.surplus :=
  Station.surplus_configures (stage.configures_configure link).1

theorem surplus_close (stage : Stage ε π σ) :
    stage.close.station.surplus = stage.station.surplus := by
  simp only [close]
  split
  · rw [Station.surplus_clearPrevious, Station.surplus_close]
  · exact Station.surplus_close _

theorem surplus_accept (frame : Frame) (stage : Stage ε π σ) :
    (stage.accept frame).2.station.surplus = stage.station.surplus - frame.weight := by
  simp only [accept]
  split
  · exact Station.surplus_synthesize frame stage.station
  · exact Station.surplus_passThrough frame stage.station

theorem surplus_drain (stage : Stage ε π σ) :
    stage.drain.2.station.surplus = stage.station.surplus := by
  simp only [drain]
  split
  · exact Station.surplus_finishSynthesis stage.station
  · obtain ⟨out, previous⟩ := Station.drainIgnoring_apart stage.station
    simp only [Station.surplus, out, previous]

end Stage

namespace Host

def surplus (h : Host ε π σ) : Int := h.stage.station.surplus

theorem surplus_withPool (pool : Pool) (h : Host ε π σ) :
    (h.withPool pool).surplus = h.surplus + (pool.live - h.out.pool.live) := by
  simp only [surplus, Station.surplus, Outlet.surplus, withPool, withOut, out]
  omega

variable [Engine ε π]

theorem surplus_configure (link : Link) (h : Host ε π σ) :
    (h.configure link).2.surplus = h.surplus := by
  have kept := Stage.surplus_configure link h.stage
  have links := h.links_configure link
  generalize h.configure link = answer at links ⊢
  cases links with
  | mismatched cause => rfl
  | refused configured =>
    rw [configured] at kept
    exact kept
  | linked configured =>
    rw [configured] at kept
    exact kept

theorem surplus_close (h : Host ε π σ) : h.close.surplus = h.surplus := Stage.surplus_close h.stage

theorem surplus_takeFrame (frame : Frame) (h : Host ε π σ) :
    (h.takeFrame frame).2.surplus = h.surplus - frame.weight := by
  obtain ⟨failures, taken⟩ := takeFrame_eq frame h
  rw [taken]
  exact Stage.surplus_accept frame h.stage

theorem surplus_finish (h : Host ε π σ) : h.finish.2.surplus = h.surplus := by
  have kept := Stage.surplus_drain h.stage
  have finishes := h.finishes_finish
  generalize h.finish = answer at finishes ⊢
  cases finishes with
  | failed drained =>
    rw [drained] at kept
    exact kept
  | @closed report stage drained =>
    rw [drained] at kept
    refine Eq.trans ?_ kept
    exact congrArg (· - slotWeight stage.station.previous)
      (Outlet.surplus_endStream stage.station.out)

variable [Supplier ρ]

theorem surplus_request (h : Host ε π σ) (source : ρ) :
    (h.request source).2.1.surplus - pooledCount (Supplier.queued (h.request source).2.2) =
      h.surplus - pooledCount (Supplier.queued source) := by
  have balance := Supplier.next_balance source h.out.pool
  have pulls := h.pulls_request source
  generalize h.request source = answer at pulls ⊢
  cases pulls with
  | ended state => rfl
  | repeated state => rfl
  | faulted pulling supplied =>
    simp only [supplied, slotWeight_none] at balance
    simp only [surplus_withPool]
    omega
  | took pulling supplied =>
    simp only [supplied, slotWeight_some] at balance
    simp only [surplus_takeFrame, surplus_withPool]
    omega
  | finished pulling supplied =>
    simp only [supplied, slotWeight_none] at balance
    simp only [surplus_finish, surplus_withPool]
    omega

end Host

/-- An engine, a sink and a source in place of the present ones. The pool gets to know of the
frames that come and go with them. -/
structure Visit (ε σ ρ : Type) where
  engine : ε
  sink : σ
  source : ρ

def Visit.apply [Supplier ρ] (visit : Visit ε σ ρ) (s : Surroundings ε σ ρ) :
    Surroundings ε σ ρ where
  engine := visit.engine
  sink := visit.sink
  pool := ⟨s.pool.live +
    (pooledCount (Holder.held visit.sink) - pooledCount (Holder.held s.sink)) +
    (pooledCount (Supplier.queued visit.source) - pooledCount (Supplier.queued s.source))⟩
  source := visit.source

namespace World
variable [Supplier ρ]

/-- The living frames are those that the sink holds, the source queues and the slot keeps. -/
def InBalance (w : World ε π σ ρ) : Prop :=
  w.host.surplus = pooledCount (Supplier.queued w.source)

variable [Engine ε π]

theorem inBalance_perform (w : World ε π σ ρ) (call : Call (Visit ε σ ρ))
    (balance : w.InBalance) : (w.perform Visit.apply call).2.InBalance := by
  unfold InBalance at balance ⊢
  cases call with
  | configure link => exact (Host.surplus_configure link w.host).trans balance
  | request =>
    have moved := Host.surplus_request w.host w.source
    rw [balance, Int.sub_self] at moved
    exact Int.eq_of_sub_eq_zero moved
  | close => exact (Host.surplus_close w.host).trans balance
  | outside visit =>
    simp only [Host.surplus, Station.surplus, Outlet.surplus] at balance ⊢
    simp only [perform, withSurroundings, surroundings, Visit.apply, Host.out]
    omega

/-- After any history of a host, whatever engine, sink and source do in each call and whatever
takes their place between calls, the living frames of the pool are the pooled ones that the sink
holds, the source queues and the slot of the last frame keeps. A drain leaves that slot empty,
whether or not it succeeds, as does giving up the stream, and it stays so until a stream is
configured. -/
theorem live_eq_held_queued_kept (options : StageOptions) (engine : ε) (policy : DrainPolicy)
    (sink : σ) (source : ρ) (calls : List (Call (Visit ε σ ρ))) :
    let live := pooledCount (Holder.held sink) + pooledCount (Supplier.queued source)
    let start : World ε π σ ρ := fresh options engine policy sink ⟨live⟩ source
    let w := start.run Visit.apply calls
    w.host.out.pool.live =
        pooledCount (Holder.held w.host.out.sink) + pooledCount (Supplier.queued w.source) +
          slotWeight w.host.stage.station.previous ∧
      w.host.finish.2.stage.station.previous = none ∧
      ((Source.next w.source w.host.out.pool).1 = .ok none →
        (w.host.request w.source).2.1.stage.station.previous = none) ∧
      w.host.close.stage.station.previous = none ∧
      (w.host.state = .closed ∨ w.host.state = .failed →
        w.host.stage.station.previous = none) := by
  intro live start w
  have balance : w.InBalance := by
    refine run_invariant Visit.apply inBalance_perform ?_ calls
    simp only [InBalance, Host.surplus, Station.surplus, Outlet.surplus]
    change live - pooledCount (Holder.held sink) - 0 = pooledCount (Supplier.queued source)
    omega
  have tidy : w.host.Tidy := tidy_run Visit.apply ⟨fun _ => rfl, fun _ => rfl⟩ calls
  refine ⟨?_, Host.previous_finish tidy, Host.previous_request tidy, ?_, tidy.final⟩
  · simp only [InBalance, Host.surplus, Station.surplus, Outlet.surplus] at balance
    simp only [Host.out]
    omega
  · exact Stage.previous_close tidy.stage

end World

end surplus

end FrameRelay
