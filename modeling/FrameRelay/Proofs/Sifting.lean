import FrameRelay.Proofs.Likeness
import FrameRelay.Proofs.Lifecycle
import FrameRelay.Proofs.PoolBalance

/-! Pulling a queue to its end against pulling what is left of it when some frames are sifted out. A
processor that takes all other frames, and is as good as before when it refuses one of these, gives
the same answers, the rejections apart, and leaves the same host: only the frames that came in and
the failures are counted higher. -/

namespace FrameRelay

/-- Whether a step ended in the rejection of a frame at its submission, the one error that is
recoverable. A fault rejects nothing. -/
def Outcome.rejects {α : Type} : Outcome α → Bool
  | .error cause => cause.isRecoverable
  | .ok _ => false

/-- The rejected frames are in the counts of the host and gone from its pool. -/
def Host.charged {ε π σ : Type} (rejected : List Frame) (h : Host ε π σ) : Host ε π σ :=
  { h with
    framesIn := h.framesIn + rejected.length
    submissionFailures := h.submissionFailures + rejected.length }.withPool
      (h.out.pool.releaseAll rejected)

section pulls
variable {ε π σ ρ : Type} [Engine ε π] [Sink σ] [Source ρ]

/-- So many pulls in a row, with their answers. -/
def World.pulls : Nat → World ε π σ ρ → List (Outcome Flow) × World ε π σ ρ
  | 0, w => ([], w)
  | count + 1, w =>
    let (result, host, source) := w.host.request w.source
    let (later, w) := World.pulls count ⟨host, source⟩
    (result :: later, w)

/-- Frames that are refused are as if they had never been in the queue, however often it is pulled
after its end. All frames in the queue have to be `sound`. -/
def Host.Forgets (sound : Frame → Prop) (refused : Frame → Bool) (h : Host ε π σ) : Prop :=
  ∀ (frames : List Frame) (extra : Nat), (∀ frame ∈ frames, sound frame) →
    let kept := frames.filter fun frame => !refused frame
    let whole := World.pulls (frames.length + 1 + extra) ⟨h, Queue.mk frames none⟩
    let sifted := World.pulls (kept.length + 1 + extra) ⟨h, Queue.mk kept none⟩
    whole.1.filter (fun answer => !Outcome.rejects answer) = sifted.1 ∧
      whole.2.host = sifted.2.host.charged (frames.filter refused)

end pulls

/-- Processors that take the sound frames that are not refused, and that are as good as before when
they refuse one. -/
structure ServiceBisimulation.Filters {ε π : Type} [Engine ε π] (S : ServiceBisimulation ε π ε π)
    (sound : Frame → Prop) (refused : Frame → Bool) : Prop where
  takes {p p' : π} {e e' : ε} {frame : Frame} (alike : S.Serving false (p, e) (p', e'))
    (here : sound frame) (fit : refused frame = false) : (Engine.process frame p e).1 = .ok ()
  rejects {p p' : π} {e e' : ε} {frame : Frame} (alike : S.Serving false (p, e) (p', e'))
    (here : sound frame) (unfit : refused frame = true) : ∃ cause q,
      Engine.process frame p e = (.error cause, q) ∧ cause.isFault = false ∧
        S.Serving false q (p', e')
  same {e e' : ε} (alike : S.Vacant e e') : e = e'

/-- The lead after the rejection of a frame. -/
def Lead.after (lead : Lead) (frame : Frame) : Lead :=
  { lead with
    framesIn := lead.framesIn + 1
    failures := lead.failures + 1
    live := lead.live - frame.weight }

section occupied
variable {ε π σ : Type} [Engine ε π]

namespace Station

theorem occupied_submit (frame : Frame) (s : Station ε π σ) :
    (s.submit frame).2.occupied = s.occupied := by
  rcases s with ⟨engine, ⟨_ | handle, settings, policy⟩, previous, out⟩
  · rfl
  · simp only [submit]
    rcases Lease.submit frame ⟨engine, handle⟩ with ⟨_ | _, l⟩ <;> rfl

theorem occupied_ignoreOutput (s : Station ε π σ) : s.ignoreOutput.occupied = s.occupied := by
  rcases s with ⟨engine, ⟨_ | handle, settings, policy⟩, previous, out⟩ <;> rfl

variable [Sink σ]

theorem occupied_addOutput (reference : Frame) (s : Station ε π σ) :
    (s.addOutput reference).2.occupied = s.occupied := by
  rcases s with ⟨engine, ⟨_ | handle, settings, policy⟩, previous, out⟩ <;> rfl

theorem occupied_synthesize (frame : Frame) (s : Station ε π σ) :
    (s.synthesize frame).2.occupied = s.occupied := by
  have submitted := occupied_submit frame s
  unfold synthesize
  generalize s.submit frame = answer at submitted ⊢
  rcases answer with ⟨_ | _, s'⟩
  · exact submitted
  · exact (occupied_addOutput frame (s'.keepPrevious frame)).trans submitted

theorem occupied_passThrough (frame : Frame) (s : Station ε π σ) :
    (s.passThrough frame).2.occupied = s.occupied := by
  have submitted := occupied_submit frame s
  unfold passThrough
  generalize s.submit frame = answer at submitted ⊢
  rcases answer with ⟨_ | _, s'⟩
  · exact submitted
  · exact (occupied_ignoreOutput s').trans submitted

end Station

theorem Stage.occupied_accept [Sink σ] (frame : Frame) (stage : Stage ε π σ) :
    (stage.accept frame).2.station.occupied = stage.station.occupied := by
  unfold accept
  split
  · exact stage.station.occupied_synthesize frame
  · exact stage.station.occupied_passThrough frame

end occupied

theorem Outlet.rejects_buffer {σ : Type} (o : Outlet σ) : Outcome.rejects o.buffer.1 = false := by
  rcases o with ⟨_ | link, sink, pool, pushed, endSent⟩ <;> rfl

section submission
variable {ε π σ : Type} [Engine ε π] [Sink σ] {S : ServiceBisimulation ε π ε π}
  {G : SinkBisimulation σ σ} {lead : Lead} {sound : Frame → Prop} {refused : Frame → Bool}
  {frame : Frame}

theorem Outlet.Alike.release_left {o o' : Outlet σ} (alike : o.Alike G lead o') (frame : Frame) :
    (o.release frame).Alike G (lead.after frame) o' := by
  refine ⟨alike.link, alike.sink, ?_, alike.pushed, alike.endSent⟩
  have live := alike.live
  simp only [Outlet.release, live_release, Lead.after]
  omega

theorem Lease.submit_of_refused (filters : S.Filters sound refused) {l l' : Lease ε π}
    (alike : l.Alike S false l') (here : sound frame) (unfit : refused frame = true) :
    ∃ cause l₁, l.submit frame = (.error (.submission frame.pts cause), l₁) ∧
      cause.isFault = false ∧ l₁.Alike S false l' := by
  obtain @⟨p, e, p', e', model, state, submitted, emitted, ends, serving⟩ := alike
  have streaming : state = .streaming := by simpa using ends
  obtain ⟨cause, ⟨q, e₁⟩, answer, orderly, serving'⟩ := filters.rejects serving here unfit
  refine ⟨cause, _, ?_, orderly, model, state, submitted, emitted, ends, serving'⟩
  simp only [submit, process, streaming, answer, ne_eq, not_true_eq_false, if_false,
    withProcessor]

theorem Lease.submit_of_fit (filters : S.Filters sound refused) {l l' : Lease ε π}
    (alike : l.Alike S false l') (here : sound frame) (fit : refused frame = false) :
    (l.submit frame).1 = .ok () := by
  obtain @⟨p, e, p', e', model, state, submitted, emitted, ends, serving⟩ := alike
  have streaming : state = .streaming := by simpa using ends
  have taken := filters.takes serving here fit
  simp only [submit, process, streaming, ne_eq, not_true_eq_false, if_false]
  generalize Engine.process frame p e = answer at taken ⊢
  rcases answer with ⟨_ | _, q, e₁⟩
  · cases taken
  · rfl

namespace Station
variable {s s' : Station ε π σ}

theorem Alike.leases (alike : s.Alike S G lead s') (steady : s.Steady)
    (occupied : s.occupied = true) : ∃ handle handle', s.session.handle = some handle ∧
      s'.session.handle = some handle' ∧
      Lease.Alike S false ⟨s.engine, handle⟩ ⟨s'.engine, handle'⟩ := by
  cases alike with
  | vacant settings policy previous outs engines => cases occupied
  | held settings policy previous outs stopped leases =>
    have streaming := steady _ rfl
    obtain @⟨p, e, p', e', model, state, submitted, emitted, ends, serving⟩ := leases
    obtain rfl : stopped = false := by
      rw [← ends]
      simpa using streaming
    exact ⟨_, _, rfl, rfl, model, state, submitted, emitted, ends, serving⟩

theorem submit_of_refused (filters : S.Filters sound refused) (alike : s.Alike S G lead s')
    (steady : s.Steady) (occupied : s.occupied = true) (here : sound frame)
    (unfit : refused frame = true) :
    ∃ cause t, s.submit frame = (.error (.submission frame.pts cause), t) ∧
      cause.isFault = false ∧ t.Alike S G (lead.after frame) s' := by
  obtain ⟨handle, handle', there, there', leases⟩ := alike.leases steady occupied
  obtain ⟨cause, l, answer, orderly, leases'⟩ := Lease.submit_of_refused filters leases here unfit
  have outs := alike.out.release_left frame
  cases alike with
  | vacant settings policy previous _ engines => cases there
  | held settings policy previous _ stopped _ =>
    cases there
    cases there'
    simp only [submit, answer]
    exact ⟨cause, _, rfl, orderly, .held _ _ _ outs false leases'⟩

theorem submit_of_fit (filters : S.Filters sound refused) (alike : s.Alike S G lead s')
    (steady : s.Steady) (occupied : s.occupied = true) (here : sound frame)
    (fit : refused frame = false) : (s.submit frame).1 = .ok () := by
  obtain ⟨handle, handle', there, there', leases⟩ := alike.leases steady occupied
  have taken := Lease.submit_of_fit filters leases here fit
  rcases s with ⟨engine, ⟨_ | handle, settings, policy⟩, previous, out⟩
  · cases there
  · cases there
    simp only [submit]
    generalize Lease.submit frame ⟨engine, handle⟩ = answer at taken ⊢
    rcases answer with ⟨_ | _, l⟩
    · cases taken
    · rfl

end Station

theorem Outlet.rejects_push (frame : Frame) (o : Outlet σ) :
    Outcome.rejects (o.push frame).1 = false := by
  unfold push
  rcases Sink.accept frame o.sink with ⟨_ | _ | reason, sink⟩ <;> rfl

theorem Lease.rejects_addFrom (reference : Frame) (count left index pushed : Nat)
    (l : Lease ε π) (out : Outlet σ) :
    Outcome.rejects (addFrom reference count left index pushed l out).1 = false := by
  induction left generalizing index pushed l out with
  | zero => rfl
  | succ left ih =>
    have taken := Outlet.rejects_buffer out
    simp only [addFrom]
    generalize out.buffer = answer at taken ⊢
    rcases answer with ⟨cause | frame, out⟩
    · exact taken
    dsimp only
    rcases l.pull ⟨frame.samples, frame.lineSize⟩ with ⟨_ | ⟨pts, samples⟩, l⟩
    · rfl
    dsimp only
    split
    · exact ih _ _ _ _
    · have handed := Outlet.rejects_push { frame.withPropsOf reference with pts, samples } out
      generalize out.push { frame.withPropsOf reference with pts, samples } = answer at handed ⊢
      rcases answer with ⟨cause | _, out⟩
      · exact handed
      · exact ih _ _ _ _

theorem Station.rejects_addOutput (reference : Frame) (s : Station ε π σ) :
    Outcome.rejects (s.addOutput reference).1 = false := by
  rcases s with ⟨engine, ⟨_ | handle, settings, policy⟩, previous, out⟩
  · rfl
  · exact Lease.rejects_addFrom _ _ _ _ _ _ _

theorem Outcome.rejects_map {α β : Type} (f : α → β) (result : Outcome α) :
    Outcome.rejects (result.map f) = Outcome.rejects result := by
  cases result <;> rfl

namespace Stage
variable {stage stage' : Stage ε π σ}

/-- A frame that is refused is gone, and the stage is as good as one that never saw it. -/
theorem accept_of_refused (filters : S.Filters sound refused) (alike : stage.Alike S G lead stage')
    (steady : stage.station.Steady) (occupied : stage.station.occupied = true)
    (here : sound frame) (unfit : refused frame = true) :
    ∃ cause stage₁, stage.accept frame = (.error (.submission frame.pts cause), stage₁) ∧
      cause.isFault = false ∧ stage₁.Alike S G (lead.after frame) stage' := by
  obtain ⟨options, retiming, stations⟩ := alike
  obtain ⟨cause, t, answer, orderly, stations'⟩ :=
    Station.submit_of_refused filters stations steady occupied here unfit
  refine ⟨cause, ⟨options, t, retiming⟩, ?_, orderly, options, retiming, stations'⟩
  simp only [accept, Station.synthesize, Station.passThrough, answer]
  split <;> rfl

theorem rejects_accept_of_fit (filters : S.Filters sound refused)
    (alike : stage.Alike S G lead stage') (steady : stage.station.Steady)
    (occupied : stage.station.occupied = true) (here : sound frame) (fit : refused frame = false) :
    Outcome.rejects (stage.accept frame).1 = false := by
  obtain @⟨options, retiming, s, s', stations⟩ := alike
  have taken := Station.submit_of_fit filters stations steady occupied here fit
  simp only [accept, Station.synthesize, Station.passThrough]
  generalize s.submit frame = answer at taken ⊢
  rcases answer with ⟨_ | _, t⟩
  · cases taken
  · split
    · exact (Outcome.rejects_map _ _).trans (Station.rejects_addOutput frame _)
    · exact Outlet.rejects_push frame _

end Stage

namespace Host
variable {h h' : Host ε π σ}

theorem takeFrame_of_refused (filters : S.Filters sound refused) (alike : h.Alike S G lead h')
    (steady : h.station.Steady) (occupied : h.station.occupied = true) (here : sound frame)
    (unfit : refused frame = true) :
    ∃ cause h₁, h.takeFrame frame = (.error (.submission frame.pts cause), h₁) ∧
      cause.isFault = false ∧ h₁.Alike S G (lead.after frame) h' := by
  obtain ⟨stages, state, framesIn, failures, drained, failure⟩ := alike
  obtain ⟨cause, stage₁, answer, orderly, stages'⟩ :=
    Stage.accept_of_refused filters stages steady occupied here unfit
  simp only [takeFrame, answer]
  refine ⟨cause, _, rfl, orderly, stages', state, ?_, ?_, drained, failure⟩
  · simp only [framesIn, Lead.after]
    omega
  · simp only [StageError.kind, if_true, failures, Lead.after]
    omega

theorem rejects_takeFrame_of_fit (filters : S.Filters sound refused) (alike : h.Alike S G lead h')
    (steady : h.station.Steady) (occupied : h.station.occupied = true) (here : sound frame)
    (fit : refused frame = false) : Outcome.rejects (h.takeFrame frame).1 = false := by
  have plain := Stage.rejects_accept_of_fit filters alike.stage steady occupied here fit
  unfold takeFrame
  dsimp only
  generalize h.stage.accept frame = answer at plain ⊢
  rcases answer with ⟨cause | _, stage⟩
  · exact plain
  · rfl

end Host

end submission

section runs
variable {ε π σ ρ : Type} [Engine ε π] [Sink σ]

namespace Host
variable {h : Host ε π σ}

theorem finish_final (h : Host ε π σ) : Outcome.rejects h.finish.1 = false ∧
    (h.finish.2.state = .closed ∨ h.finish.2.state = .failed) ∧
    h.finish.2.station.session.handle = none := by
  have vacant := h.vacant_finish
  have finishes := h.finishes_finish
  generalize h.finish = answer at finishes vacant ⊢
  cases finishes with
  | @failed cause stage drained =>
    exact ⟨StageError.not_isRecoverable_of_kind_drain cause.kind_intoDrain, .inr rfl, vacant⟩
  | @closed report stage drained =>
    refine ⟨?_, .inl rfl, vacant⟩
    rw [Outcome.rejects_map]
    unfold Outlet.endStream
    split
    · rfl
    · rcases Sink.finish stage.station.out.sink with ⟨_ | _, sink⟩ <;> rfl

theorem occupied_takeFrame (frame : Frame) (h : Host ε π σ) :
    (h.takeFrame frame).2.station.occupied = h.station.occupied := by
  obtain ⟨failures, taken⟩ := takeFrame_eq frame h
  rw [taken]
  exact h.stage.occupied_accept frame

theorem state_takeFrame (frame : Frame) (h : Host ε π σ) :
    (h.takeFrame frame).2.state = h.state := by
  obtain ⟨failures, taken⟩ := takeFrame_eq frame h
  rw [taken]

variable [Source ρ]

theorem pulls_of_final (final : h.state = .closed ∨ h.state = .failed) (source : ρ) :
    ∃ answer, Outcome.rejects answer = false ∧
      ∀ count, World.pulls count ⟨h, source⟩ = (List.replicate count answer, ⟨h, source⟩) := by
  have once : ∃ answer, Outcome.rejects answer = false ∧
      h.request source = (answer, h, source) := by
    rcases final with closed | failed
    · exact ⟨.ok .ended, rfl, by simp only [request, closed]⟩
    · exact ⟨.error (.streamFailed (h.failure.getD "")), rfl, by simp only [request, failed]⟩
  obtain ⟨answer, plain, requested⟩ := once
  refine ⟨answer, plain, fun count => ?_⟩
  induction count with
  | zero => rfl
  | succ count ih =>
    simp only [World.pulls, requested, ih]
    rfl

theorem pulls_of_nil (streaming : h.state = .streaming) (extra : Nat) :
    (∀ answer ∈ (World.pulls (extra + 1) ⟨h, Queue.mk [] none⟩).1,
      Outcome.rejects answer = false) ∧
      (World.pulls (extra + 1) ⟨h, Queue.mk [] none⟩).2.host.station.session.handle = none := by
  obtain ⟨plain, final, vacant⟩ := h.finish_final
  obtain ⟨answer, plain', pulled⟩ := pulls_of_final final (Queue.mk [] none)
  simp only [World.pulls, request_of_nil streaming, pulled]
  refine ⟨fun later inside => ?_, vacant⟩
  rcases List.mem_cons.mp inside with rfl | repeated
  · exact plain
  · rw [List.eq_of_mem_replicate repeated]
    exact plain'

end Host

variable {ε' π' σ' : Type} [Engine ε' π'] [Sink σ'] [Source ρ]
  {S : ServiceBisimulation ε π ε' π'} {G : SinkBisimulation σ σ'} {lead : Lead}

theorem World.alike_pulls (blind : Source.Blind ρ lead.live) {w : World ε π σ ρ}
    {w' : World ε' π' σ' ρ} (alike : w.Alike S G lead w') (count : Nat) :
    Agree (Alike S G lead) (w.pulls count) (w'.pulls count) := by
  induction count generalizing w w' with
  | zero => exact ⟨_, _, _, alike⟩
  | succ count ih =>
    have requested := Host.alike_request blind alike.host w.source
    simp only [pulls, ← alike.source]
    generalize w.host.request w.source = answer, w'.host.request w.source = answer' at requested
    rcases requested with ⟨result, ⟨h, source⟩, ⟨h', source'⟩, hosts, sources⟩
    have rest : Alike S G lead ⟨h, source⟩ ⟨h', source'⟩ := ⟨hosts, sources⟩
    have later := ih rest
    dsimp only
    generalize pulls count ⟨h, source⟩ = answer, pulls count ⟨h', source'⟩ = answer' at later
    rcases later with ⟨results, w, w', alike⟩
    exact ⟨_, _, _, alike⟩

end runs

theorem Queue.blind (live : Int) : Source.Blind Queue live := by
  rintro ⟨frames, _ | reason⟩ pool pool' ahead
  · cases frames with
    | nil => exact ⟨_, _, _, rfl, ahead⟩
    | cons frame rest => exact ⟨_, _, _, rfl, ahead⟩
  · exact ⟨_, _, _, rfl, ahead⟩

/-- The lead of a host over one that never saw some rejected frames. -/
def Lead.ofRejected (rejected : List Frame) : Lead where
  framesIn := rejected.length
  failures := rejected.length
  live := -pooledCount rejected

theorem Lead.foldl_after (rejected : List Frame) :
    rejected.foldl Lead.after {} = ofRejected rejected := by
  have general (lead : Lead) : rejected.foldl Lead.after lead =
      ⟨lead.framesIn + rejected.length, lead.failures + rejected.length, lead.pushed,
        lead.live - pooledCount rejected⟩ := by
    induction rejected generalizing lead with
    | nil => simp
    | cons frame rest ih =>
      simp only [List.foldl_cons, ih, after, List.length_cons, pooledCount_cons, Lead.mk.injEq,
        true_and]
      refine ⟨?_, ?_, ?_⟩ <;> omega
  rw [general]
  simp [ofRejected]

theorem Pool.live_releaseAll (rejected : List Frame) (pool : Pool) :
    (pool.releaseAll rejected).live = pool.live - pooledCount rejected := by
  unfold releaseAll
  induction rejected generalizing pool with
  | nil => simp
  | cons frame rest ih =>
    simp only [List.foldl_cons, ih, live_release, pooledCount_cons]
    omega

theorem Outlet.Alike.eq_releaseAll {σ : Type} [Sink σ] {o o' : Outlet σ} {rejected : List Frame}
    (alike : o.Alike (.same σ) (.ofRejected rejected) o') :
    o = { o' with pool := o'.pool.releaseAll rejected } := by
  have released := Pool.live_releaseAll rejected o'.pool
  generalize o'.pool.releaseAll rejected = last at released ⊢
  rcases o with ⟨link, sink, ⟨live⟩, pushed, endSent⟩
  rcases o' with ⟨link', sink', ⟨live'⟩, pushed', endSent'⟩
  rcases last with ⟨living⟩
  obtain ⟨rfl, rfl, ahead, rfl, rfl⟩ := alike
  obtain rfl : live = living := ahead.trans released.symm
  rfl

section sifting
variable {ε π σ : Type} [Engine ε π] [Sink σ] {S : ServiceBisimulation ε π ε π}
  {sound : Frame → Prop} {refused : Frame → Bool}

namespace Host

theorem Alike.eq_charged (filters : S.Filters sound refused) {rejected : List Frame}
    {h h' : Host ε π σ} (alike : h.Alike S (.same σ) (.ofRejected rejected) h')
    (vacant : h.station.session.handle = none) : h = h'.charged rejected := by
  obtain ⟨stages, state, framesIn, failures, drained, failure⟩ := alike
  rcases h with ⟨stage, _, _, _, _, _⟩
  rcases h' with ⟨stage', _, _, _, _, _⟩
  obtain ⟨options, retiming, stations⟩ := stages
  cases stations with
  | held settings policy previous outs stopped leases => cases vacant
  | vacant settings policy previous outs engines =>
    obtain rfl := filters.same engines
    rename_i out out'
    obtain rfl := outs.eq_releaseAll
    cases state
    cases framesIn
    cases failures
    cases drained
    cases failure
    rfl

/-- Pulling a queue whose refused frames leave no trace, against pulling it without them. By
induction on the queue: a refused frame moves the one side only, any other frame moves both. -/
theorem Alike.pulls (filters : S.Filters sound refused) (frames : List Frame) (extra : Nat)
    (fine : ∀ frame ∈ frames, sound frame) {G : SinkBisimulation σ σ} {lead : Lead}
    {h h' : Host ε π σ} (alike : h.Alike S G lead h') (streaming : h.state = .streaming)
    (steady : h.station.Steady) (occupied : h.station.occupied = true) :
    let kept := frames.filter fun frame => !refused frame
    let whole := World.pulls (frames.length + 1 + extra) ⟨h, Queue.mk frames none⟩
    let sifted := World.pulls (kept.length + 1 + extra) ⟨h', Queue.mk kept none⟩
    whole.1.filter (fun answer => !Outcome.rejects answer) = sifted.1 ∧
      whole.2.host.Alike S G ((frames.filter refused).foldl Lead.after lead) sifted.2.host ∧
      whole.2.host.station.session.handle = none := by
  induction frames generalizing h h' lead with
  | nil =>
    obtain ⟨plain, vacant⟩ := pulls_of_nil streaming extra
    have worlds : World.Alike S G lead ⟨h, Queue.mk [] none⟩ ⟨h', Queue.mk [] none⟩ := ⟨alike, rfl⟩
    have pulled := World.alike_pulls (Queue.blind lead.live) worlds (extra + 1)
    simp only [List.filter_nil, List.length_nil, List.foldl_nil, Nat.zero_add, Nat.add_comm 1 extra]
    generalize World.pulls (extra + 1) ⟨h, Queue.mk [] none⟩ = answer,
      World.pulls (extra + 1) ⟨h', Queue.mk [] none⟩ = answer' at pulled plain vacant
    rcases pulled with ⟨answers, w, w', worlds⟩
    refine ⟨?_, worlds.host, vacant⟩
    exact List.filter_eq_self.mpr fun answer inside => by simp [plain answer inside]
  | cons frame rest ih =>
    have count (n : Nat) : n + 1 + 1 + extra = n + 1 + extra + 1 := by omega
    obtain ⟨here, later⟩ := List.forall_mem_cons.mp fine
    cases unfit : refused frame with
    | true =>
      obtain ⟨cause, h₁, answer, orderly, alike'⟩ :=
        takeFrame_of_refused filters alike steady occupied here unfit
      have rejected : Outcome.rejects
          (.error (.submission frame.pts cause) : Outcome Flow) = true := by
        simp [Outcome.rejects, StageError.isRecoverable, orderly]
      have steady' := (h.advances_takeFrame frame).steady steady
      have occupied' := (h.occupied_takeFrame frame).trans occupied
      have streaming' := (h.state_takeFrame frame).trans streaming
      rw [answer] at steady' occupied' streaming'
      obtain ⟨same, last, vacant⟩ := ih later alike' streaming' steady' occupied'
      simp only [List.length_cons, count, World.pulls, request_of_cons streaming, answer,
        List.filter_cons, unfit, rejected, Bool.not_true, Bool.false_eq_true, if_false, if_true,
        List.foldl_cons]
      exact ⟨same, last, vacant⟩
    | false =>
      have plain := rejects_takeFrame_of_fit filters alike steady occupied here unfit
      have steady' := (h.advances_takeFrame frame).steady steady
      have occupied' := (h.occupied_takeFrame frame).trans occupied
      have streaming' := (h.state_takeFrame frame).trans streaming
      have taken := alike_takeFrame frame alike
      have streaming₂ : h'.state = .streaming := alike.state ▸ streaming
      simp only [List.length_cons, count, World.pulls, request_of_cons streaming,
        request_of_cons streaming₂, List.filter_cons, unfit, Bool.not_false, if_true,
        Bool.false_eq_true, if_false]
      generalize h.takeFrame frame = answer, h'.takeFrame frame = answer'
        at taken plain steady' occupied' streaming'
      rcases taken with ⟨result, h₁, h₁', alike'⟩
      obtain ⟨same, last, vacant⟩ := ih later alike' streaming' steady' occupied'
      refine ⟨?_, last, vacant⟩
      dsimp only at plain ⊢
      rw [plain]
      exact congrArg (result :: ·) same

theorem alike_self {h : Host ε π σ} {p : π} {name : String}
    (there : h.station.session.handle = some (.start p name))
    (serving : S.Serving false (p, h.station.engine) (p, h.station.engine)) :
    h.Alike S (.same σ) {} h := by
  have outs : h.out.Alike (.same σ) {} h.out := ⟨rfl, rfl, (Int.add_zero _).symm, rfl, rfl⟩
  rcases h with ⟨⟨options, ⟨engine, ⟨handle, settings, policy⟩, previous, out⟩, retiming⟩, _, _, _,
    _, _⟩
  cases there
  exact ⟨⟨options, retiming, .held _ _ _ outs false ⟨name, .streaming, 0, 0, rfl, serving⟩⟩, rfl,
    rfl, rfl, rfl, rfl⟩

theorem forgets_of_filters (filters : S.Filters sound refused) {h : Host ε π σ} {p : π}
    {name : String} (streaming : h.state = .streaming)
    (there : h.station.session.handle = some (.start p name))
    (serving : S.Serving false (p, h.station.engine) (p, h.station.engine)) :
    h.Forgets sound refused := by
  intro frames extra fine
  have steady : h.station.Steady := by
    intro handle found
    cases there.symm.trans found
    rfl
  have occupied : h.station.occupied = true := by
    rw [Station.occupied, there]
    rfl
  obtain ⟨same, last, vacant⟩ :=
    (alike_self there serving).pulls filters frames extra fine streaming steady occupied
  rw [Lead.foldl_after] at last
  exact ⟨same, last.eq_charged filters vacant⟩

end Host

end sifting

end FrameRelay
