import FrameRelay.Proofs.Drain
import FrameRelay.Proofs.Steps
import FrameRelay.Proofs.Notes
import Mathlib.Logic.Relation

/-! The tenure of a processor. An engine is asked for a processor, serves it until its stream has
ended and lets it go before it makes the next one; whatever a host does moves along this path. -/

namespace FrameRelay

/-- A processor is there or not, and its stream is `stopped` or not. -/
inductive Tenure (π : Type) where
  | vacant
  | held (stopped : Bool) (processor : π)

namespace Tenure
variable {ε π : Type} [Engine ε π]

/-- What an engine may be asked at each point of a tenure, and where it leads. -/
inductive Step : Tenure π × ε → Tenure π × ε → Prop where
  | refused (spec : ProcessorSpec) (e : ε) {cause : EngineError} {e' : ε}
      (answer : Engine.create spec e = (.error cause, e')) : Step (.vacant, e) (.vacant, e')
  | created (spec : ProcessorSpec) (e : ε) {p : π} {e' : ε}
      (answer : Engine.create spec e = (.ok p, e')) : Step (.vacant, e) (.held false p, e')
  | processed (frame : Frame) (p : π) (e : ε) :
      Step (.held false p, e)
        (.held false (Engine.process frame p e).2.1, (Engine.process frame p e).2.2)
  | ready (stopped : Bool) (p : π) (e : ε) :
      Step (.held stopped p, e) (.held stopped (Engine.ready p e).2.1, (Engine.ready p e).2.2)
  | discarded (stopped : Bool) (p : π) (e : ε) :
      Step (.held stopped p, e) (.held stopped (Engine.discard p e).2.1, (Engine.discard p e).2.2)
  | pulled (buffer : Buffer) (stopped : Bool) (p : π) (e : ε) :
      Step (.held stopped p, e)
        (.held stopped (Engine.pull buffer p e).2.1, (Engine.pull buffer p e).2.2)
  | remaining (stopped : Bool) (p : π) (e : ε) :
      Step (.held stopped p, e)
        (.held stopped (Engine.remaining p e).2.1, (Engine.remaining p e).2.2)
  | ended (p : π) (e : ε) :
      Step (.held false p, e) (.held true (Engine.endStream p e).1, (Engine.endStream p e).2)
  | released (p : π) (e : ε) : Step (.held true p, e) (.vacant, Engine.release p e)

/-- Any number of steps. -/
abbrev Path : Tenure π × ε → Tenure π × ε → Prop := Relation.ReflTransGen Step

end Tenure

open Tenure

section lease
variable {ε π σ τ : Type} [Engine ε π]

namespace Lease

def stopped (l : Lease ε π) : Bool := l.handle.state != .streaming

def tenure (l : Lease ε π) : Tenure π × ε := (.held l.stopped l.handle.processor, l.engine)

/-- From one lease to a later one of the same tenure, its stream as over as it was. -/
structure Serves (l l' : Lease ε π) : Prop where
  path : Path l.tenure l'.tenure
  stopped_eq : l'.stopped = l.stopped

theorem Serves.refl (l : Lease ε π) : l.Serves l := ⟨.refl, rfl⟩

theorem Serves.trans {l l' l'' : Lease ε π} (first : l.Serves l') (second : l'.Serves l'') :
    l.Serves l'' :=
  ⟨first.path.trans second.path, second.stopped_eq.trans first.stopped_eq⟩

theorem serves_process (frame : Frame) (l : Lease ε π) : l.Serves (l.process frame).2 := by
  unfold process
  by_cases ended : l.handle.state ≠ .streaming
  · simpa only [if_pos ended] using Serves.refl l
  · have streaming : l.stopped = false := by simpa [stopped] using ended
    have step : Step (.held l.stopped l.handle.processor, l.engine) (.held l.stopped _, _) :=
      streaming ▸ Step.processed frame l.handle.processor l.engine
    simp only [if_neg ended]
    generalize Engine.process frame l.handle.processor l.engine = answer at step ⊢
    rcases answer with ⟨_ | _, p, e⟩ <;> exact ⟨.single step, rfl⟩

theorem serves_ready (l : Lease ε π) : l.Serves l.ready.2 :=
  ⟨.single (.ready l.stopped l.handle.processor l.engine), rfl⟩

theorem serves_remaining (l : Lease ε π) : l.Serves l.remaining.2 :=
  ⟨.single (.remaining l.stopped l.handle.processor l.engine), rfl⟩

theorem serves_discard (l : Lease ε π) : l.Serves l.discard.2 := by
  have step := Step.discarded l.stopped l.handle.processor l.engine
  unfold discard
  generalize Engine.discard l.handle.processor l.engine = answer at step ⊢
  rcases answer with ⟨_ | _, p, e⟩ <;> exact ⟨.single step, rfl⟩

theorem serves_pull (buffer : Buffer) (l : Lease ε π) : l.Serves (l.pull buffer).2 := by
  have step := Step.pulled buffer l.stopped l.handle.processor l.engine
  unfold pull
  generalize Engine.pull buffer l.handle.processor l.engine = answer at step ⊢
  rcases answer with ⟨_ | _, p, e⟩ <;> exact ⟨.single step, rfl⟩

theorem serves_submit (frame : Frame) (l : Lease ε π) : l.Serves (l.submit frame).2 := by
  have served := serves_process frame l
  unfold submit
  generalize l.process frame = answer at served ⊢
  rcases answer with ⟨_ | _, l'⟩ <;> exact served

theorem serves_ignoreOutput (l : Lease ε π) : l.Serves l.ignoreOutput.2 :=
  ignoreOutput_keeps (fun l' => l.Serves l')
    (fun l' served => served.trans (serves_ready l'))
    (fun l' served => served.trans (serves_discard l')) (.refl l)

theorem stopped_endStream (l : Lease ε π) : l.endStream.stopped = true := by
  unfold endStream
  by_cases streaming : l.handle.state = .streaming
  · simp [streaming, stopped]
  · simp [streaming, stopped]

theorem path_endStream (l : Lease ε π) : Path l.tenure l.endStream.tenure := by
  unfold endStream
  by_cases streaming : l.handle.state = .streaming
  · have open_ : l.tenure = (.held false l.handle.processor, l.engine) := by
      simp [tenure, stopped, streaming]
    rw [if_pos streaming, open_]
    exact .single (.ended l.handle.processor l.engine)
  · rw [if_neg streaming]

theorem tenure_close {l : Lease ε π} (ended : l.stopped = true) : l.close.tenure = l.tenure := by
  have late : l.handle.state ≠ .streaming := by simpa [stopped] using ended
  simp [close, endStream, late, tenure, ended]
  simp [stopped]

theorem path_destroy {l : Lease ε π} (ended : l.stopped = true) :
    Path l.tenure (.vacant, l.destroy) := by
  have served := serves_remaining l
  have late := served.stopped_eq.trans ended
  refine served.path.tail ?_
  have step := Step.released l.remaining.2.handle.processor l.remaining.2.engine
  simpa only [tenure, late, destroy, drop] using step

/-- A drain ends the stream and serves what is left, whatever comes of it. -/
theorem path_drain (policy : DrainPolicy) {step : Lease ε π → τ → Outcome Unit × Lease ε π × τ}
    (serves : ∀ (l : Lease ε π) (t : τ), l.Serves (step l t).2.1) (l : Lease ε π) (t : τ) :
    Path l.tenure (drain policy step l t).2.1.tenure ∧
      (drain policy step l t).2.1.stopped = true := by
  obtain ⟨l', served, last⟩ := drain_keeps (fun l' _ => Serves l.endStream l') policy step
    (fun l' t served => served.trans (serves l' t))
    (fun l' _ served => served.trans (serves_remaining l')) (t := t) (.refl l.endStream)
  have ended := served.stopped_eq.trans (stopped_endStream l)
  have path := (path_endStream l).trans served.path
  rcases last with ⟨-, open_⟩ | ⟨-, closed⟩
  · rw [open_]
    exact ⟨path, ended⟩
  · rw [closed, tenure_close ended]
    exact ⟨path, rfl⟩

theorem serves_addOutput [Sink σ] (reference : Frame) (l : Lease ε π) (out : Outlet σ) :
    l.Serves (addOutput reference l out).2.1 :=
  addOutput_keeps (fun l' => l.Serves l')
    (fun l' served => served.trans (serves_ready l'))
    (fun buffer l' served => served.trans (serves_pull buffer l')) reference out (.refl l)

theorem path_drainIgnoring (policy : DrainPolicy) (l : Lease ε π) (t : τ) :
    Path l.tenure (l.drainIgnoring policy t).2.1.tenure ∧
      (l.drainIgnoring policy t).2.1.stopped = true :=
  path_drain policy (fun l _ => serves_ignoreOutput l) l t

theorem path_postflight [Sink σ] (policy : DrainPolicy) (previous : Option Frame) (l : Lease ε π)
    (out : Outlet σ) :
    Path l.tenure (l.postflight policy previous out).2.1.tenure ∧
      (l.postflight policy previous out).2.1.stopped = true := by
  cases previous with
  | none => exact path_drainIgnoring policy l out
  | some reference => exact path_drain policy (fun l out => serves_addOutput reference l out) l out

theorem path_retire (policy : DrainPolicy) (l : Lease ε π) :
    Path l.tenure (.vacant, l.retire policy) := by
  obtain ⟨path, ended⟩ := path_drainIgnoring policy l ()
  exact path.trans (path_destroy ended)

end Lease

end lease

section station
variable {ε π σ ρ κ : Type}

namespace Station

def tenure (s : Station ε π σ) : Tenure π × ε :=
  match s.session.handle with
  | none => (.vacant, s.engine)
  | some handle => Lease.tenure ⟨s.engine, handle⟩

/-- Between two calls a stream that is open is not over. -/
def Steady (s : Station ε π σ) : Prop :=
  ∀ handle, s.session.handle = some handle → handle.state = .streaming

variable [Engine ε π]

/-- From one station to a later one along the tenures of their processors, under one policy. -/
structure Advances (s s' : Station ε π σ) : Prop where
  path : Path s.tenure s'.tenure
  steady : s.Steady → s'.Steady
  policy : s'.session.policy = s.session.policy

theorem Advances.refl (s : Station ε π σ) : s.Advances s := ⟨.refl, id, rfl⟩

theorem Advances.trans {s s' s'' : Station ε π σ} (first : s.Advances s')
    (second : s'.Advances s'') : s.Advances s'' :=
  ⟨first.path.trans second.path, second.steady ∘ first.steady, second.policy.trans first.policy⟩

theorem Advances.of_eq {s s' : Station ε π σ} (engine : s'.engine = s.engine)
    (session : s'.session = s.session) : s.Advances s' := by
  rcases s with ⟨e, session', previous, out⟩
  subst engine session
  exact ⟨.refl, id, rfl⟩

theorem Advances.of_vacant {s s' : Station ε π σ} (vacant : s'.session.handle = none)
    (policy : s'.session.policy = s.session.policy)
    (path : Path s.tenure (.vacant, s'.engine)) : s.Advances s' := by
  refine ⟨?_, fun _ handle open_ => ?_, policy⟩
  · simpa only [tenure, vacant] using path
  · rw [vacant] at open_
    cases open_

theorem Advances.of_serves {s s' : Station ε π σ} {handle handle' : Handle π}
    (before : s.session.handle = some handle) (after : s'.session.handle = some handle')
    (policy : s'.session.policy = s.session.policy)
    (served : Lease.Serves ⟨s.engine, handle⟩ ⟨s'.engine, handle'⟩) : s.Advances s' := by
  refine ⟨?_, fun steady last open_ => ?_, policy⟩
  · simpa only [tenure, before, after] using served.path
  · obtain rfl := Option.some.inj (after.symm.trans open_)
    have streaming := steady handle before
    simpa [Lease.stopped, streaming] using served.stopped_eq

theorem advances_close (s : Station ε π σ) : s.Advances s.close := by
  have vacant := handle_close s
  rcases s with ⟨engine, ⟨_ | handle, settings, policy⟩, previous, out⟩
  · exact .of_vacant vacant rfl .refl
  · exact .of_vacant vacant rfl (Lease.path_retire policy ⟨engine, handle⟩)

theorem advances_openStream (settings : StreamSettings) (link : Link) (s : Station ε π σ) :
    s.Advances (s.openStream settings link).2 := by
  have closed := advances_close s
  have vacant := handle_close s
  simp only [openStream]
  generalize s.close = s' at closed vacant ⊢
  rcases settings.resolve (Engine.offer s'.engine) link with _ | ⟨spec, outLink⟩
  · exact closed.trans (.of_vacant vacant rfl (by simpa only [tenure, vacant] using .refl))
  · dsimp only
    cases answer : Engine.create spec s'.engine with
    | mk result engine =>
    have from_ : s'.tenure = (.vacant, s'.engine) := by simp only [tenure, vacant]
    cases result with
    | error cause =>
      refine closed.trans (.of_vacant vacant rfl ?_)
      exact from_ ▸ .single (.refused spec s'.engine answer)
    | ok p =>
      refine closed.trans ⟨?_, fun _ handle open_ => ?_, rfl⟩
      · exact from_ ▸ .single (.created spec s'.engine answer)
      · cases open_
        rfl

theorem advances_submit (frame : Frame) (s : Station ε π σ) :
    s.Advances (s.submit frame).2 := by
  rcases s with ⟨engine, ⟨_ | handle, settings, policy⟩, previous, out⟩
  · exact .of_eq rfl rfl
  · have served := Lease.serves_submit frame ⟨engine, handle⟩
    simp only [submit]
    generalize Lease.submit frame ⟨engine, handle⟩ = answer at served ⊢
    rcases answer with ⟨_ | _, l⟩ <;> exact .of_serves rfl rfl rfl served

theorem advances_ignoreOutput (s : Station ε π σ) : s.Advances s.ignoreOutput := by
  rcases s with ⟨engine, ⟨_ | handle, settings, policy⟩, previous, out⟩
  · exact .of_eq rfl rfl
  · exact .of_serves rfl rfl rfl (Lease.serves_ignoreOutput ⟨engine, handle⟩)

theorem advances_drainAndDestroy
    {run : DrainPolicy → Lease ε π → Outlet σ → Outcome DrainReport × Lease ε π × Outlet σ}
    (drains : ∀ policy l out, Path l.tenure (run policy l out).2.1.tenure ∧
      (run policy l out).2.1.stopped = true) (s : Station ε π σ) :
    s.Advances (s.drainAndDestroy run).2 ∧ (s.drainAndDestroy run).2.session.handle = none := by
  rcases s with ⟨engine, ⟨_ | handle, settings, policy⟩, previous, out⟩
  · exact ⟨.refl _, rfl⟩
  · obtain ⟨path, ended⟩ := drains policy ⟨engine, handle⟩ out
    exact ⟨.of_vacant rfl rfl (path.trans (Lease.path_destroy ended)), rfl⟩

theorem advances_drainIgnoring (s : Station ε π σ) :
    s.Advances s.drainIgnoring.2 ∧ s.drainIgnoring.2.session.handle = none :=
  advances_drainAndDestroy (fun policy l out => Lease.path_drainIgnoring policy l out) s

variable [Sink σ]

theorem advances_addOutput (reference : Frame) (s : Station ε π σ) :
    s.Advances (s.addOutput reference).2 := by
  rcases s with ⟨engine, ⟨_ | handle, settings, policy⟩, previous, out⟩
  · exact .of_eq rfl rfl
  · exact .of_serves rfl rfl rfl (Lease.serves_addOutput reference ⟨engine, handle⟩ out)

theorem advances_synthesize (frame : Frame) (s : Station ε π σ) :
    s.Advances (s.synthesize frame).2 := by
  have submitted := advances_submit frame s
  simp only [synthesize]
  generalize s.submit frame = answer at submitted ⊢
  rcases answer with ⟨_ | _, s'⟩
  · exact submitted
  · have kept : s'.Advances (s'.keepPrevious frame) := .of_eq rfl rfl
    exact submitted.trans (kept.trans (advances_addOutput frame _))

theorem advances_finishSynthesis (s : Station ε π σ) :
    s.Advances s.finishSynthesis.2 ∧ s.finishSynthesis.2.session.handle = none := by
  obtain ⟨drained, vacant⟩ := advances_drainAndDestroy
    (fun policy l out => Lease.path_postflight policy s.previous l out) s
  exact ⟨drained.trans (.of_eq rfl rfl), vacant⟩

theorem advances_passThrough (frame : Frame) (s : Station ε π σ) :
    s.Advances (s.passThrough frame).2 := by
  have submitted := advances_submit frame s
  simp only [passThrough]
  generalize s.submit frame = answer at submitted ⊢
  rcases answer with ⟨_ | _, s'⟩
  · exact submitted
  · exact submitted.trans ((advances_ignoreOutput s').trans (.of_eq rfl rfl))

end Station

namespace Stage
variable [Engine ε π]

theorem advances_configure (link : Link) (stage : Stage ε π σ) :
    stage.station.Advances (stage.configure link).2.station := by
  obtain ⟨configures, _⟩ := stage.configures_configure link
  generalize stage.station = s, (stage.configure link).1.isOk = succeeds,
    (stage.configure link).2.station = s' at configures
  induction configures with
  | left s => exact .refl s
  | opened settings s => exact s.advances_openStream settings link
  | cleared _ ih =>
    have cleared (s : Station ε π σ) : s.Advances s.clearPrevious := .of_eq rfl rfl
    exact (cleared _).trans ih

theorem advances_close (stage : Stage ε π σ) :
    stage.station.Advances stage.close.station ∧ stage.close.station.session.handle = none := by
  have closed := stage.station.advances_close
  have vacant := stage.station.handle_close
  unfold close
  dsimp only
  split
  · exact ⟨closed.trans (.of_eq rfl rfl), vacant⟩
  · exact ⟨closed, vacant⟩

variable [Sink σ]

theorem advances_accept (frame : Frame) (stage : Stage ε π σ) :
    stage.station.Advances (stage.accept frame).2.station := by
  unfold accept
  split
  · exact stage.station.advances_synthesize frame
  · exact stage.station.advances_passThrough frame

theorem advances_drain (stage : Stage ε π σ) :
    stage.station.Advances stage.drain.2.station ∧
      stage.drain.2.station.session.handle = none := by
  unfold drain
  dsimp only
  split
  · exact stage.station.advances_finishSynthesis
  · exact stage.station.advances_drainIgnoring

end Stage

namespace Host
variable [Engine ε π]

/-- The station in the middle of a host. -/
abbrev station (h : Host ε π σ) : Station ε π σ := h.stage.station

theorem advances_configure (link : Link) (h : Host ε π σ) :
    h.station.Advances (h.configure link).2.station := by
  have configured := h.stage.advances_configure link
  have links := h.links_configure link
  generalize h.configure link = answer at links
  cases links with
  | mismatched cause => exact .refl _
  | refused answer =>
    rw [answer] at configured
    exact configured
  | linked answer =>
    rw [answer] at configured
    exact configured.trans (.of_eq rfl rfl)

theorem advances_close (h : Host ε π σ) :
    h.station.Advances h.close.station ∧ h.close.station.session.handle = none :=
  h.stage.advances_close

variable [Sink σ]

theorem advances_takeFrame (frame : Frame) (h : Host ε π σ) :
    h.station.Advances (h.takeFrame frame).2.station := by
  obtain ⟨failures, taken⟩ := takeFrame_eq frame h
  rw [taken]
  exact h.stage.advances_accept frame

theorem advances_finish (h : Host ε π σ) : h.station.Advances h.finish.2.station := by
  have drained := h.stage.advances_drain.1
  have finishes := h.finishes_finish
  generalize h.finish = answer at finishes
  cases finishes with
  | failed answer =>
    rw [answer] at drained
    exact drained
  | closed answer =>
    rw [answer] at drained
    exact drained.trans (.of_eq rfl rfl)

theorem vacant_finish (h : Host ε π σ) : h.finish.2.station.session.handle = none := by
  have vacant := h.stage.advances_drain.2
  have finishes := h.finishes_finish
  generalize h.finish = answer at finishes ⊢
  cases finishes with
  | failed drained =>
    rw [drained] at vacant
    exact vacant
  | closed drained =>
    rw [drained] at vacant
    exact vacant

theorem advances_request [Source ρ] (h : Host ε π σ) (source : ρ) :
    h.station.Advances (h.request source).2.1.station := by
  have pooled (pool : Pool) : h.station.Advances (h.withPool pool).station := .of_eq rfl rfl
  have pulls := h.pulls_request source
  generalize h.request source = answer at pulls
  cases pulls with
  | ended state => exact .refl _
  | repeated state => exact .refl _
  | faulted pulling supplied => exact pooled _
  | took pulling supplied => exact (pooled _).trans (advances_takeFrame _ _)
  | finished pulling supplied => exact (pooled _).trans (advances_finish _)

end Host

end station

end FrameRelay
