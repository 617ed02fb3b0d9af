import FrameRelay.Proofs.Drain

/-! Engines and sinks that no call tells apart. Whatever a stage does with its lease and its outlet,
submitting, passing outputs on, draining or retiring, it does the same on both sides, and what it
leaves is alike again. The counters of one side may be ahead, always by the same amounts. -/

namespace FrameRelay

/-- Two calls with the same answer that leave related things behind. -/
inductive Agree {α β β' : Type} (Related : β → β' → Prop) : α × β → α × β' → Prop where
  | intro (answer : α) (left : β) (right : β') (related : Related left right) :
    Agree Related (answer, left) (answer, right)

/-- Two engines that serve one stream each, their processors included, as no call tells them apart.
The flag says whether the stream is over. -/
structure ServiceBisimulation (ε π ε' π' : Type) [Engine ε π] [Engine ε' π'] where
  Vacant : ε → ε' → Prop
  Serving : (stopped : Bool) → π × ε → π' × ε' → Prop
  process {p : π} {e : ε} {p' : π'} {e' : ε'} (frame : Frame)
    (alike : Serving false (p, e) (p', e')) :
    Agree (Serving false) (Engine.process frame p e) (Engine.process frame p' e')
  ready {stopped : Bool} {p : π} {e : ε} {p' : π'} {e' : ε'}
    (alike : Serving stopped (p, e) (p', e')) :
    Agree (Serving stopped) (Engine.ready p e) (Engine.ready p' e')
  discard {stopped : Bool} {p : π} {e : ε} {p' : π'} {e' : ε'}
    (alike : Serving stopped (p, e) (p', e')) :
    Agree (Serving stopped) (Engine.discard p e) (Engine.discard p' e')
  pull {stopped : Bool} {p : π} {e : ε} {p' : π'} {e' : ε'} (buffer : Buffer)
    (alike : Serving stopped (p, e) (p', e')) :
    Agree (Serving stopped) (Engine.pull buffer p e) (Engine.pull buffer p' e')
  remaining {stopped : Bool} {p : π} {e : ε} {p' : π'} {e' : ε'}
    (alike : Serving stopped (p, e) (p', e')) :
    Agree (Serving stopped) (Engine.remaining p e) (Engine.remaining p' e')
  endStream {p : π} {e : ε} {p' : π'} {e' : ε'} (alike : Serving false (p, e) (p', e')) :
    Serving true (Engine.endStream p e) (Engine.endStream p' e')
  outputSize {stopped : Bool} {p : π} {e : ε} {p' : π'} {e' : ε'}
    (alike : Serving stopped (p, e) (p', e')) : Engine.outputSize p e = Engine.outputSize p' e'
  release {p : π} {e : ε} {p' : π'} {e' : ε'} (alike : Serving true (p, e) (p', e')) :
    Vacant (Engine.release p e) (Engine.release p' e')

/-- The answers of two engines that are asked for a processor. -/
inductive Hired {ε π ε' π' : Type} (Vacant : ε → ε' → Prop) (Serving : π × ε → π' × ε' → Prop) :
    Except EngineError π × ε → Except EngineError π' × ε' → Prop where
  | refused (cause : EngineError) {e : ε} {e' : ε'} (alike : Vacant e e') :
    Hired Vacant Serving (.error cause, e) (.error cause, e')
  | created {p : π} {e : ε} {p' : π'} {e' : ε'} (alike : Serving (p, e) (p', e')) :
    Hired Vacant Serving (.ok p, e) (.ok p', e')

/-- Two engines that no call tells apart, over any number of streams. -/
structure EngineBisimulation (ε π ε' π' : Type) [Engine ε π] [Engine ε' π'] extends
    ServiceBisimulation ε π ε' π' where
  offer {e : ε} {e' : ε'} (alike : Vacant e e') : Engine.offer e = Engine.offer e'
  create {e : ε} {e' : ε'} (spec : ProcessorSpec) (alike : Vacant e e') :
    Hired Vacant (Serving false) (Engine.create spec e) (Engine.create spec e')

/-- Two sinks that no call tells apart. -/
structure SinkBisimulation (σ σ' : Type) [Sink σ] [Sink σ'] where
  Related : σ → σ' → Prop
  accept {s : σ} {s' : σ'} (frame : Frame) (related : Related s s') :
    Agree Related (Sink.accept frame s) (Sink.accept frame s')
  finish {s : σ} {s' : σ'} (related : Related s s') :
    Agree Related (Sink.finish s) (Sink.finish s')

/-- A sink is like itself. -/
def SinkBisimulation.same (σ : Type) [Sink σ] : SinkBisimulation σ σ where
  Related := Eq
  accept _ related := related ▸ ⟨_, _, _, rfl⟩
  finish related := related ▸ ⟨_, _, _, rfl⟩

section lease
variable {ε π ε' π' τ τ' : Type} [Engine ε π] [Engine ε' π']

namespace Lease

/-- The same handle on related processors. -/
inductive Alike (S : ServiceBisimulation ε π ε' π') (stopped : Bool) :
    Lease ε π → Lease ε' π' → Prop where
  | intro {p : π} {e : ε} {p' : π'} {e' : ε'} (model : String) (state : HandleState)
    (submitted emitted : Nat) (ends : (state != .streaming) = stopped)
    (serving : S.Serving stopped (p, e) (p', e')) :
    Alike S stopped ⟨e, ⟨p, model, state, submitted, emitted⟩⟩
      ⟨e', ⟨p', model, state, submitted, emitted⟩⟩

/-- Leases that are alike, each beside something else. -/
def AlikeBeside (S : ServiceBisimulation ε π ε' π') (stopped : Bool) (Other : τ → τ' → Prop)
    (x : Lease ε π × τ) (y : Lease ε' π' × τ') : Prop :=
  Alike S stopped x.1 y.1 ∧ Other x.2 y.2

variable {S : ServiceBisimulation ε π ε' π'} {stopped : Bool} {l : Lease ε π} {l' : Lease ε' π'}

theorem alike_process (frame : Frame) (alike : Alike S stopped l l') :
    Agree (Alike S stopped) (l.process frame) (l'.process frame) := by
  obtain @⟨p, e, p', e', model, state, submitted, emitted, ends, serving⟩ := alike
  unfold process
  by_cases ended : state ≠ .streaming
  · simp only [ended, ne_eq, not_false_eq_true, if_true]
    exact ⟨_, _, _, model, state, submitted, emitted, ends, serving⟩
  · have streaming : stopped = false := by
      rw [← ends]
      simpa using ended
    subst streaming
    have answers := S.process frame serving
    simp only [if_neg ended]
    generalize Engine.process frame p e = answer, Engine.process frame p' e' = answer' at answers ⊢
    rcases answers with ⟨_ | _, _, _, serving⟩
    · exact ⟨_, _, _, model, state, submitted, emitted, ends, serving⟩
    · exact ⟨_, _, _, model, state, submitted + 1, emitted, ends, serving⟩

theorem alike_ready (alike : Alike S stopped l l') :
    Agree (Alike S stopped) l.ready l'.ready := by
  obtain @⟨p, e, p', e', model, state, submitted, emitted, ends, serving⟩ := alike
  have answers := S.ready serving
  simp only [ready]
  generalize Engine.ready p e = answer, Engine.ready p' e' = answer' at answers ⊢
  rcases answers with ⟨count, _, _, serving⟩
  exact ⟨_, _, _, model, state, submitted, emitted, ends, serving⟩

theorem alike_remaining (alike : Alike S stopped l l') :
    Agree (Alike S stopped) l.remaining l'.remaining := by
  obtain @⟨p, e, p', e', model, state, submitted, emitted, ends, serving⟩ := alike
  have answers := S.remaining serving
  simp only [remaining]
  generalize Engine.remaining p e = answer, Engine.remaining p' e' = answer' at answers ⊢
  rcases answers with ⟨count, _, _, serving⟩
  exact ⟨_, _, _, model, state, submitted, emitted, ends, serving⟩

theorem alike_discard (alike : Alike S stopped l l') :
    Agree (Alike S stopped) l.discard l'.discard := by
  obtain @⟨p, e, p', e', model, state, submitted, emitted, ends, serving⟩ := alike
  have answers := S.discard serving
  simp only [discard]
  generalize Engine.discard p e = answer, Engine.discard p' e' = answer' at answers ⊢
  rcases answers with ⟨_ | _, _, _, serving⟩
  · exact ⟨_, _, _, model, state, submitted, emitted, ends, serving⟩
  · exact ⟨_, _, _, model, state, submitted, emitted + 1, ends, serving⟩

theorem alike_pull (buffer : Buffer) (alike : Alike S stopped l l') :
    Agree (Alike S stopped) (l.pull buffer) (l'.pull buffer) := by
  obtain @⟨p, e, p', e', model, state, submitted, emitted, ends, serving⟩ := alike
  have answers := S.pull buffer serving
  simp only [pull]
  generalize Engine.pull buffer p e = answer, Engine.pull buffer p' e' = answer' at answers ⊢
  rcases answers with ⟨_ | _, _, _, serving⟩
  · exact ⟨_, _, _, model, state, submitted, emitted, ends, serving⟩
  · exact ⟨_, _, _, model, state, submitted, emitted + 1, ends, serving⟩

theorem alike_endStream (alike : Alike S stopped l l') :
    Alike S true l.endStream l'.endStream := by
  obtain @⟨p, e, p', e', model, state, submitted, emitted, ends, serving⟩ := alike
  unfold endStream
  by_cases streaming : state = .streaming
  · subst streaming
    cases ends
    simp only [if_true]
    exact ⟨model, .draining, submitted, emitted, rfl, S.endStream serving⟩
  · have ended : stopped = true := by
      rw [← ends]
      simpa using streaming
    subst ended
    simp only [streaming, if_false]
    exact ⟨model, state, submitted, emitted, ends, serving⟩

theorem alike_close (alike : Alike S stopped l l') : Alike S true l.close l'.close := by
  have ended := alike_endStream alike
  unfold close
  generalize l.endStream = l, l'.endStream = l' at ended
  obtain @⟨p, e, p', e', model, state, submitted, emitted, ends, serving⟩ := ended
  exact ⟨model, .closed, submitted, emitted, rfl, serving⟩

theorem outputSize_eq_of_alike (alike : Alike S stopped l l') : l.outputSize = l'.outputSize := by
  obtain @⟨p, e, p', e', model, state, submitted, emitted, ends, serving⟩ := alike
  exact S.outputSize serving

theorem vacant_destroy (alike : Alike S true l l') : S.Vacant l.destroy l'.destroy := by
  have answers := alike_remaining alike
  unfold destroy
  generalize l.remaining = answer, l'.remaining = answer' at answers
  rcases answers with ⟨count, _, _, alike⟩
  obtain @⟨p, e, p', e', model, state, submitted, emitted, ends, serving⟩ := alike
  exact S.release serving

theorem alike_submit (frame : Frame) (alike : Alike S stopped l l') :
    Agree (Alike S stopped) (l.submit frame) (l'.submit frame) := by
  have answers := alike_process frame alike
  unfold submit
  generalize l.process frame = answer, l'.process frame = answer' at answers
  rcases answers with ⟨_ | _, _, _, alike⟩ <;> exact ⟨_, _, _, alike⟩

theorem alike_discardMany (count : Nat) (alike : Alike S stopped l l') :
    Alike S stopped (l.discardMany count) (l'.discardMany count) := by
  induction count generalizing l l' with
  | zero => exact alike
  | succ count ih =>
    have answers := alike_discard alike
    unfold discardMany
    generalize l.discard = answer, l'.discard = answer' at answers
    rcases answers with ⟨_, _, _, alike⟩
    exact ih alike

theorem alike_ignoreOutput (alike : Alike S stopped l l') :
    Agree (Alike S stopped) l.ignoreOutput l'.ignoreOutput := by
  have answers := alike_ready alike
  unfold ignoreOutput
  generalize l.ready = answer, l'.ready = answer' at answers
  rcases answers with ⟨count, _, _, alike⟩
  exact ⟨_, _, _, alike_discardMany count alike⟩

end Lease

open Lease

variable {S : ServiceBisimulation ε π ε' π'} {stopped : Bool} {l : Lease ε π} {l' : Lease ε' π'}
  {Other : τ → τ' → Prop} {t : τ} {t' : τ'}

/-- The same poll of two drains. -/
inductive Polling.Alike (S : ServiceBisimulation ε π ε' π') (Other : τ → τ' → Prop) :
    Polling ε π τ → Polling ε' π' τ' → Prop where
  | intro (polls stalled remaining : Nat) {l : Lease ε π} {l' : Lease ε' π'} {t : τ} {t' : τ'}
    (beside : AlikeBeside S true Other (l, t) (l', t')) :
    Alike S Other ⟨polls, stalled, remaining, l, t⟩ ⟨polls, stalled, remaining, l', t'⟩

/-- Two steps that do the same. -/
def StepsAlike (S : ServiceBisimulation ε π ε' π') (stopped : Bool) (Other : τ → τ' → Prop)
    (step : Lease ε π → τ → Outcome Unit × Lease ε π × τ)
    (step' : Lease ε' π' → τ' → Outcome Unit × Lease ε' π' × τ') : Prop :=
  ∀ l t l' t', AlikeBeside S stopped Other (l, t) (l', t') →
    Agree (AlikeBeside S stopped Other) (step l t) (step' l' t')

variable {step : Lease ε π → τ → Outcome Unit × Lease ε π × τ}
  {step' : Lease ε' π' → τ' → Outcome Unit × Lease ε' π' × τ'} (policy : DrainPolicy)

theorem Polling.alike_poll (steps : StepsAlike S true Other step step') {q : Polling ε π τ}
    {q' : Polling ε' π' τ'} (alike : Polling.Alike S Other q q') :
    Sum.LiftRel (Agree (AlikeBeside S true Other)) (Polling.Alike S Other) (q.poll policy step)
      (q'.poll policy step') := by
  obtain @⟨polls, stalled, remaining, l, l', t, t', beside⟩ := alike
  unfold poll
  dsimp only
  split
  · exact .inl ⟨_, _, _, beside⟩
  split
  · exact .inl ⟨_, _, _, beside⟩
  have answers := steps l t l' t' beside
  generalize step l t = answer, step' l' t' = answer' at answers
  rcases answers with ⟨_ | _, ⟨l, t⟩, ⟨l', t'⟩, beside⟩
  · exact .inl ⟨_, _, _, beside⟩
  · dsimp only
    split
    · exact .inl ⟨_, _, _, beside⟩
    · have counts := alike_remaining beside.1
      dsimp only at counts ⊢
      generalize l.remaining = answer, l'.remaining = answer' at counts
      rcases counts with ⟨now, l, l', alike⟩
      exact .inr ⟨_, _, _, alike, beside.2⟩

theorem Polling.agree_run (steps : StepsAlike S true Other step step') {q : Polling ε π τ}
    {q' : Polling ε' π' τ'} (alike : Polling.Alike S Other q q') :
    Agree (AlikeBeside S true Other) (q.run policy step) (q'.run policy step') := by
  fun_induction run policy step q generalizing q' with
  | case1 q answer polled =>
    have both := alike_poll policy steps alike
    rw [polled] at both
    generalize polled' : q'.poll policy step' = there at both
    cases both with
    | inl agree =>
      rw [run_of_answer polled']
      exact agree
  | case2 q next polled _ ih =>
    have both := alike_poll policy steps alike
    rw [polled] at both
    generalize polled' : q'.poll policy step' = there at both
    cases both with
    | inr alike =>
      rw [run_of_next polled']
      exact ih alike

theorem alike_drain (steps : StepsAlike S true Other step step')
    (beside : AlikeBeside S stopped Other (l, t) (l', t')) :
    Agree (AlikeBeside S true Other) (drain policy step l t) (drain policy step' l' t') := by
  have counts := alike_remaining (alike_endStream beside.1)
  unfold drain
  dsimp only at counts ⊢
  generalize l.endStream.remaining = answer, l'.endStream.remaining = answer' at counts ⊢
  rcases counts with ⟨remaining, l, l', alike⟩
  have polled := Polling.agree_run policy steps
    (Polling.Alike.intro 0 0 remaining ⟨alike, beside.2⟩)
  dsimp only
  generalize Polling.run policy step _ = answer, Polling.run policy step' _ = answer' at polled ⊢
  rcases polled with ⟨_ | polls, ⟨l, t⟩, ⟨l', t'⟩, beside⟩
  · exact ⟨_, _, _, beside⟩
  · exact ⟨_, _, _, alike_close beside.1, beside.2⟩

theorem Lease.alike_drainIgnoring (beside : AlikeBeside S stopped Other (l, t) (l', t')) :
    Agree (AlikeBeside S true Other) (l.drainIgnoring policy t) (l'.drainIgnoring policy t') := by
  refine alike_drain policy (fun l t l' t' beside => ?_) beside
  have answers := alike_ignoreOutput beside.1
  dsimp only at answers ⊢
  generalize l.ignoreOutput = answer, l'.ignoreOutput = answer' at answers ⊢
  rcases answers with ⟨count, l, l', alike⟩
  exact ⟨_, _, _, alike, beside.2⟩

theorem Lease.vacant_retire (alike : Alike S stopped l l') :
    S.Vacant (l.retire policy) (l'.retire policy) := by
  have beside : AlikeBeside S stopped (fun _ _ : Unit => True) (l, ()) (l', ()) := ⟨alike, trivial⟩
  have drained := alike_drainIgnoring policy beside
  unfold retire
  generalize l.drainIgnoring policy () = answer, l'.drainIgnoring policy () = answer' at drained
  rcases drained with ⟨_, ⟨l, _⟩, ⟨l', _⟩, alike, _⟩
  exact vacant_destroy alike

end lease

/-- By how much the counters of one host are ahead of another's. -/
structure Lead where
  framesIn : Nat := 0
  failures : Nat := 0
  pushed : Nat := 0
  live : Int := 0

theorem Pool.live_release_ahead {pool pool' : Pool} {live : Int}
    (ahead : pool.live = pool'.live + live) (frame : Frame) :
    (pool.release frame).live = (pool'.release frame).live + live := by
  unfold Pool.release
  split
  · simp only [ahead]
    omega
  · exact ahead

theorem Pool.live_releaseSlot_ahead {pool pool' : Pool} {live : Int}
    (ahead : pool.live = pool'.live + live) (slot : Option Frame) :
    (pool.releaseSlot slot).live = (pool'.releaseSlot slot).live + live := by
  cases slot with
  | none => exact ahead
  | some frame => exact Pool.live_release_ahead ahead frame

section outlet
variable {σ σ' : Type} [Sink σ] [Sink σ']

namespace Outlet

/-- Outlets on one link with related sinks. -/
structure Alike (G : SinkBisimulation σ σ') (lead : Lead) (o : Outlet σ) (o' : Outlet σ') :
    Prop where
  link : o.link = o'.link
  sink : G.Related o.sink o'.sink
  live : o.pool.live = o'.pool.live + lead.live
  pushed : o.pushed = o'.pushed + lead.pushed
  endSent : o.endSent = o'.endSent

variable {G : SinkBisimulation σ σ'} {lead : Lead} {o : Outlet σ} {o' : Outlet σ'}

theorem Alike.release (alike : o.Alike G lead o') (frame : Frame) :
    (o.release frame).Alike G lead (o'.release frame) :=
  { alike with live := Pool.live_release_ahead alike.live frame }

theorem Alike.releaseSlot (alike : o.Alike G lead o') (slot : Option Frame) :
    (o.releaseSlot slot).Alike G lead (o'.releaseSlot slot) :=
  { alike with live := Pool.live_releaseSlot_ahead alike.live slot }

theorem Alike.setLink (alike : o.Alike G lead o') (link : Link) :
    (o.setLink link).Alike G lead (o'.setLink link) :=
  ⟨rfl, alike.sink, alike.live, alike.pushed, rfl⟩

theorem alike_buffer (alike : o.Alike G lead o') : Agree (Alike G lead) o.buffer o'.buffer := by
  have live := alike.live
  unfold buffer
  rw [alike.link]
  cases o'.link with
  | none => exact ⟨_, _, _, alike⟩
  | some link =>
    refine ⟨_, _, _, rfl, alike.sink, ?_, alike.pushed, alike.endSent⟩
    dsimp only
    omega

theorem alike_push (frame : Frame) (alike : o.Alike G lead o') :
    Agree (Alike G lead) (o.push frame) (o'.push frame) := by
  have answers := G.accept frame alike.sink
  have pushed : o.pushed + 1 = o'.pushed + 1 + lead.pushed := by
    rw [alike.pushed]
    omega
  unfold push
  generalize Sink.accept frame o.sink = answer, Sink.accept frame o'.sink = answer' at answers
  rcases answers with ⟨_ | _ | reason, sink, sink', related⟩
  · exact ⟨_, _, _, alike.link, related, alike.live, pushed, alike.endSent⟩
  · have taken : Alike G lead { o with sink, pushed := o.pushed + 1 }
        { o' with sink := sink', pushed := o'.pushed + 1 } :=
      ⟨alike.link, related, alike.live, pushed, alike.endSent⟩
    exact ⟨_, _, _, taken.release frame⟩
  · have refused : Alike G lead { o with sink } { o' with sink := sink' } :=
      { alike with sink := related }
    exact ⟨_, _, _, refused.release frame⟩

theorem alike_endStream (alike : o.Alike G lead o') :
    Agree (Alike G lead) o.endStream o'.endStream := by
  have answers := G.finish alike.sink
  unfold endStream
  rw [alike.endSent]
  split
  · exact ⟨_, _, _, alike⟩
  · generalize Sink.finish o.sink = answer, Sink.finish o'.sink = answer' at answers
    rcases answers with ⟨_ | _, sink, sink', related⟩ <;>
      exact ⟨_, _, _, alike.link, related, alike.live, alike.pushed, rfl⟩

end Outlet

end outlet

section exchange
variable {ε π ε' π' σ σ' : Type} [Engine ε π] [Engine ε' π'] [Sink σ] [Sink σ']
  {S : ServiceBisimulation ε π ε' π'} {G : SinkBisimulation σ σ'} {lead : Lead}

namespace Lease
variable {stopped : Bool} {l : Lease ε π} {l' : Lease ε' π'} {out : Outlet σ} {out' : Outlet σ'}

theorem alike_addFrom (reference : Frame) (count left index pushed : Nat)
    (beside : AlikeBeside S stopped (Outlet.Alike G lead) (l, out) (l', out')) :
    Agree (AlikeBeside S stopped (Outlet.Alike G lead))
      (addFrom reference count left index pushed l out)
      (addFrom reference count left index pushed l' out') := by
  induction left generalizing index pushed l l' out out' with
  | zero => exact ⟨_, _, _, beside⟩
  | succ left ih =>
    obtain ⟨leases, outs⟩ := beside
    have buffers := Outlet.alike_buffer outs
    simp only [addFrom]
    generalize out.buffer = answer, out'.buffer = answer' at buffers
    rcases buffers with ⟨_ | frame, out, out', outs⟩
    · exact ⟨_, _, _, leases, outs⟩
    have pulls := alike_pull ⟨frame.samples, frame.lineSize⟩ leases
    dsimp only at pulls ⊢
    generalize l.pull ⟨frame.samples, frame.lineSize⟩ = answer,
      l'.pull ⟨frame.samples, frame.lineSize⟩ = answer' at pulls
    rcases pulls with ⟨_ | ⟨pts, samples⟩, l, l', leases⟩
    · exact ⟨_, _, _, leases, outs.release frame⟩
    dsimp only
    split
    · exact ih _ _ ⟨leases, outs.release _⟩
    · have pushes := Outlet.alike_push { frame.withPropsOf reference with pts, samples } outs
      generalize out.push { frame.withPropsOf reference with pts, samples } = answer,
        out'.push { frame.withPropsOf reference with pts, samples } = answer' at pushes
      rcases pushes with ⟨_ | _, out, out', outs⟩
      · exact ⟨_, _, _, leases, outs⟩
      · exact ih _ _ ⟨leases, outs⟩

theorem alike_addOutput (reference : Frame)
    (beside : AlikeBeside S stopped (Outlet.Alike G lead) (l, out) (l', out')) :
    Agree (AlikeBeside S stopped (Outlet.Alike G lead)) (l.addOutput reference out)
      (l'.addOutput reference out') := by
  have counts := alike_ready beside.1
  unfold addOutput
  dsimp only at counts ⊢
  generalize l.ready = answer, l'.ready = answer' at counts
  rcases counts with ⟨count, l, l', leases⟩
  exact alike_addFrom reference count count 0 0 ⟨leases, beside.2⟩

theorem alike_postflight (policy : DrainPolicy) (previous : Option Frame)
    (beside : AlikeBeside S stopped (Outlet.Alike G lead) (l, out) (l', out')) :
    Agree (AlikeBeside S true (Outlet.Alike G lead)) (l.postflight policy previous out)
      (l'.postflight policy previous out') := by
  cases previous with
  | none => exact alike_drainIgnoring policy beside
  | some reference =>
    refine alike_drain policy (fun l out l' out' beside => ?_) beside
    have added := alike_addOutput reference beside
    unfold pass
    generalize l.addOutput reference out = answer, l'.addOutput reference out' = answer' at added
    rcases added with ⟨result, ⟨l, out⟩, ⟨l', out'⟩, beside⟩
    exact ⟨_, _, _, beside⟩

end Lease

end exchange

end FrameRelay
