import FrameRelay.Proofs.EndOfStream
import FrameRelay.Proofs.Fixtures

/-! Stages that hand their frames on. The sink is offered what the processor accepted, frame by
frame as the source gave it, and nothing else: all the other calls of a processor, in the middle of
a stream or at its end, bring nothing to the sink. -/

namespace FrameRelay

/-- The frame that a processor accepted in a call. -/
def ProcessorCall.accepted? : ProcessorCall → Option Frame
  | .processed frame true => some frame
  | _ => none

/-- The frame that a sink was offered in a call. -/
def SinkCall.frame? : SinkCall → Option Frame
  | .offered frame => some frame
  | .ended => none

/-- What the next pull gets from the source. -/
def Host.supplies {ε π σ ρ : Type} [Source ρ] (h : Host ε π σ) (source : ρ) : List Frame :=
  match h.state, (Source.next source h.out.pool).1 with
  | .streaming, .ok (some frame) | .draining, .ok (some frame) => [frame]
  | _, _ => []

section tending
variable {ε π σ τ : Type} [Engine ε π]

namespace Lease

/-- A call on a processor that hands it no frame. -/
inductive Tends : Lease ε π → Lease ε π → Prop where
  | ready (l : Lease ε π) : Tends l l.ready.2
  | discard (l : Lease ε π) : Tends l l.discard.2
  | remaining (l : Lease ε π) : Tends l l.remaining.2
  | ended (l : Lease ε π) : Tends l l.endStream
  | closed (l : Lease ε π) : Tends l { l with handle := { l.handle with state := .closed } }

/-- Any number of such calls. -/
abbrev Attends : Lease ε π → Lease ε π → Prop := Relation.ReflTransGen Tends

theorem attends_ignoreOutput (l : Lease ε π) : l.Attends l.ignoreOutput.2 :=
  ignoreOutput_keeps (fun l' => l.Attends l')
    (fun l' attended => attended.tail (.ready l'))
    (fun l' attended => attended.tail (.discard l')) .refl

theorem attends_close (l : Lease ε π) : l.Attends l.close :=
  .tail (.single (.ended l)) (.closed _)

theorem attends_drainIgnoring (policy : DrainPolicy) (l : Lease ε π) (t : τ) :
    l.Attends (l.drainIgnoring policy t).2.1 := by
  obtain ⟨l', attended, last⟩ := drain_keeps (fun l' _ => l.Attends l') policy
    (fun l t => (.ok (), l.ignoreOutput.2, t))
    (fun l' _ attended => attended.trans (attends_ignoreOutput l'))
    (fun l' _ attended => attended.tail (.remaining l')) (t := t) (.single (.ended l))
  rcases last with ⟨-, same⟩ | ⟨-, closed⟩
  · exact same ▸ attended
  · exact closed ▸ attended.trans (attends_close l')

end Lease

namespace Station

/-- The engine after the open stream, if there is one, was tended to its end and let go. -/
inductive Ceases (s : Station ε π σ) : ε → Prop where
  | vacant (empty : s.session.handle = none) : Ceases s s.engine
  | dropped {handle : Handle π} {l : Lease ε π} (there : s.session.handle = some handle)
    (attended : Lease.Attends ⟨s.engine, handle⟩ l) : Ceases s l.drop

theorem ceases_close (s : Station ε π σ) : s.Ceases s.close.engine := by
  rcases s with ⟨engine, ⟨_ | handle, settings, policy⟩, previous, out⟩
  · exact .vacant rfl
  · exact .dropped rfl
      ((Lease.attends_drainIgnoring policy ⟨engine, handle⟩ ()).tail (.remaining _))

theorem ceases_drainIgnoring (s : Station ε π σ) : s.Ceases s.drainIgnoring.2.engine := by
  rcases s with ⟨engine, ⟨_ | handle, settings, policy⟩, previous, out⟩
  · exact .vacant rfl
  · exact .dropped rfl
      ((Lease.attends_drainIgnoring policy ⟨engine, handle⟩ out).tail (.remaining _))

end Station

end tending

section accepted
variable {ε π σ : Type}

/-- The frames that the processors of an engine accepted so far. -/
def Noted.accepted (e : Noted ε ProcessorCall) : List Frame :=
  e.notes.filterMap ProcessorCall.accepted?

theorem Noted.accepted_add {e : Noted ε ProcessorCall} (inner : ε) {note : ProcessorCall}
    (nothing : note.accepted? = none) : (e.add inner note).accepted = e.accepted := by
  simp only [accepted, add, List.filterMap_append, List.filterMap_cons, nothing, List.filterMap_nil,
    List.append_nil]

open Noted

/-- The frames that the sink of an outlet was offered so far. -/
def Outlet.offered (o : Outlet (Noted σ SinkCall)) : List Frame :=
  o.sink.notes.filterMap SinkCall.frame?

/-- Some of the frames that were supplied, in their order, went to the processor and on to the
sink. -/
def Station.Forwards (supplied : List Frame)
    (s s' : Station (Noted ε ProcessorCall) π (Noted σ SinkCall)) : Prop :=
  ∃ frames, frames.Sublist supplied ∧ s'.engine.accepted = s.engine.accepted ++ frames ∧
    s'.out.offered = s.out.offered ++ frames

theorem Station.Forwards.of_silent (supplied : List Frame)
    {s s' : Station (Noted ε ProcessorCall) π (Noted σ SinkCall)}
    (accepted : s'.engine.accepted = s.engine.accepted) (sink : s'.out.sink = s.out.sink) :
    s.Forwards supplied s' := by
  refine ⟨[], List.nil_sublist _, ?_, ?_⟩
  · rw [accepted, List.append_nil]
  · rw [Outlet.offered, Outlet.offered, sink, List.append_nil]

variable [Engine ε π]

namespace Lease
variable {l l' : Lease (Noted ε ProcessorCall) π}

theorem accepted_of_tends (tends : l.Tends l') : l'.engine.accepted = l.engine.accepted := by
  cases tends with
  | ready => exact accepted_add _ rfl
  | discard =>
    simp only [discard, Engine.discard]
    rcases Engine.discard l.handle.processor l.engine.inner with ⟨_ | _, p, inner⟩ <;>
      exact accepted_add _ rfl
  | remaining => exact accepted_add _ rfl
  | ended =>
    unfold endStream
    split
    · exact accepted_add _ rfl
    · rfl
  | closed => rfl

theorem accepted_of_attends (attended : l.Attends l') : l'.engine.accepted = l.engine.accepted := by
  induction attended with
  | refl => rfl
  | tail _ tends same => exact (accepted_of_tends tends).trans same

theorem accepted_submit (frame : Frame) (l : Lease (Noted ε ProcessorCall) π) :
    match l.submit frame with
    | (.ok (), l') => l'.engine.accepted = l.engine.accepted ++ [frame]
    | (.error _, l') => l'.engine.accepted = l.engine.accepted := by
  unfold submit process
  by_cases late : l.handle.state ≠ .streaming
  · rw [if_pos late]
  · rw [if_neg late]
    simp only [Engine.process]
    rcases Engine.process frame l.handle.processor l.engine.inner with ⟨cause | _, p, inner⟩
    · exact accepted_add inner rfl
    · exact List.filterMap_append

end Lease

namespace Station

theorem accepted_of_ceases {s : Station (Noted ε ProcessorCall) π σ} {e : Noted ε ProcessorCall}
    (ceased : s.Ceases e) : e.accepted = s.engine.accepted := by
  cases ceased with
  | vacant empty => rfl
  | @dropped handle l there attended =>
    have dropped : l.drop.accepted = l.engine.accepted := accepted_add _ rfl
    exact dropped.trans (Lease.accepted_of_attends attended)

theorem accepted_openStream (settings : StreamSettings) (link : Link)
    (s : Station (Noted ε ProcessorCall) π σ) :
    (s.openStream settings link).2.engine.accepted = s.engine.accepted := by
  have closed := accepted_of_ceases s.ceases_close
  simp only [openStream]
  rcases settings.resolve (Engine.offer s.close.engine) link with _ | ⟨spec, outLink⟩
  · exact closed
  · simp only [Engine.create]
    rcases Engine.create spec s.close.engine.inner with ⟨_ | p, inner⟩
    · exact closed
    · exact (accepted_add inner rfl).trans closed

theorem accepted_configures {link : Link} {succeeds : Bool}
    {s s' : Station (Noted ε ProcessorCall) π σ} (configures : s.Configures link succeeds s') :
    s'.engine.accepted = s.engine.accepted := by
  induction configures with
  | left s => rfl
  | opened settings s => exact s.accepted_openStream settings link
  | cleared _ ih => exact ih

end Station

namespace Host

theorem forwards_configure (supplied : List Frame) (link : Link)
    (h : Host (Noted ε ProcessorCall) π (Noted σ SinkCall)) :
    h.station.Forwards supplied (h.configure link).2.station := by
  have configures := (h.stage.configures_configure link).1
  have links := h.links_configure link
  generalize h.configure link = answer at links ⊢
  cases links with
  | mismatched cause => exact .of_silent supplied rfl rfl
  | refused configured =>
    rw [configured] at configures
    exact .of_silent supplied (Station.accepted_configures configures)
      (Station.quiet_configures configures).sink
  | linked configured =>
    rw [configured] at configures
    have accepted := Station.accepted_configures configures
    have quiet := Station.quiet_configures configures
    exact .of_silent supplied accepted quiet.sink

theorem forwards_close (supplied : List Frame)
    (h : Host (Noted ε ProcessorCall) π (Noted σ SinkCall)) :
    h.station.Forwards supplied h.close.station := by
  refine .of_silent supplied ?_ h.stage.quiet_close.sink
  have closed := Station.accepted_of_ceases h.station.ceases_close
  simp only [close, Stage.close]
  split <;> exact closed

end Host

variable [Sink σ]

theorem Outlet.offered_push (frame : Frame) (o : Outlet (Noted σ SinkCall)) :
    (o.push frame).2.offered = o.offered ++ [frame] := by
  unfold push
  simp only [Sink.accept]
  rcases Sink.accept frame o.sink.inner with ⟨_ | _ | reason, sink⟩ <;>
    exact List.filterMap_append

theorem Outlet.offered_endStream (o : Outlet (Noted σ SinkCall)) :
    o.endStream.2.offered = o.offered := by
  have notes := o.notes_endStream.2
  unfold offered
  rw [notes, List.filterMap_append]
  split <;> exact List.append_nil _

theorem Station.forwards_passThrough (frame : Frame)
    (s : Station (Noted ε ProcessorCall) π (Noted σ SinkCall)) :
    s.Forwards [frame] (s.passThrough frame).2 := by
  rcases s with ⟨engine, ⟨_ | handle, settings, policy⟩, previous, out⟩
  · exact .of_silent _ rfl rfl
  · have submitted := Lease.accepted_submit frame ⟨engine, handle⟩
    simp only [passThrough, submit]
    generalize Lease.submit frame ⟨engine, handle⟩ = answer at submitted ⊢
    rcases answer with ⟨cause | _, l⟩
    · exact .of_silent _ submitted rfl
    · have ignored := Lease.accepted_of_attends l.attends_ignoreOutput
      exact ⟨[frame], .refl _, ignored.trans submitted, Outlet.offered_push frame out⟩

namespace Host
variable {h : Host (Noted ε ProcessorCall) π (Noted σ SinkCall)}

theorem forwards_takeFrame (frame : Frame) (estimates : h.stage.options.synthesizes = false) :
    h.station.Forwards [frame] (h.takeFrame frame).2.station := by
  obtain ⟨failures, taken⟩ := takeFrame_eq frame h
  have passed := Station.forwards_passThrough frame h.station
  rw [taken]
  simp only [Stage.accept, estimates, Bool.false_eq_true, if_false]
  exact passed

theorem forwards_finish (supplied : List Frame) (estimates : h.stage.options.synthesizes = false) :
    h.station.Forwards supplied h.finish.2.station := by
  have accepted := Station.accepted_of_ceases h.station.ceases_drainIgnoring
  have out := (Station.drainIgnoring_apart h.station).1
  have drains : h.stage.drain.2.station = h.station.drainIgnoring.2 := by
    simp only [Stage.drain, estimates, Bool.false_eq_true, if_false]
  rw [← drains] at accepted out
  have finishes := h.finishes_finish
  generalize h.finish = answer at finishes ⊢
  cases finishes with
  | failed drained =>
    rw [drained] at accepted out
    exact .of_silent supplied accepted (congrArg Outlet.sink out)
  | @closed report stage drained =>
    rw [drained] at accepted out
    have offered := stage.station.out.offered_endStream
    refine ⟨[], List.nil_sublist _, accepted.trans (List.append_nil _).symm, ?_⟩
    rw [List.append_nil, ← out]
    exact offered

theorem forwards_request {ρ : Type} [Source ρ] (source : ρ)
    (estimates : h.stage.options.synthesizes = false) :
    h.station.Forwards (h.supplies source) (h.request source).2.1.station := by
  have pulls := h.pulls_request source
  generalize h.request source = answer at pulls ⊢
  cases pulls with
  | ended state => exact .of_silent _ rfl rfl
  | repeated state => exact .of_silent _ rfl rfl
  | faulted pulling supplied => exact .of_silent _ rfl rfl
  | @took frame source' pool pulling supplied =>
    have supplies : h.supplies source = [frame] := by
      unfold supplies
      rw [supplied]
      cases state : h.state <;> simp_all
    rw [supplies]
    exact forwards_takeFrame frame (h := h.withPool pool) estimates
  | @finished source' pool pulling supplied =>
    exact forwards_finish _ (h := h.withPool pool) estimates

end Host

end accepted

section counted
variable {ε π σ : Type} [Engine ε π]

namespace Host

/-- Each frame that came in went out or failed. -/
def Counted (h : Host ε π σ) : Prop := h.framesIn = h.out.pushed + h.submissionFailures

theorem counted_configure (link : Link) {h : Host ε π σ} (counted : h.Counted) :
    (h.configure link).2.Counted := by
  have same := Station.pushed_configures (h.stage.configures_configure link).1
  have links := h.links_configure link
  generalize h.configure link = answer at links ⊢
  cases links with
  | mismatched cause => exact counted
  | refused configured =>
    rw [configured] at same
    exact counted.trans (congrArg (· + _) same.symm)
  | linked configured =>
    rw [configured] at same
    exact counted.trans (congrArg (· + _) same.symm)

theorem counted_close {h : Host ε π σ} (counted : h.Counted) : h.close.Counted := by
  have same : h.close.out.pushed = h.out.pushed := by
    have closed := congrArg Outlet.pushed h.station.out_close
    simp only [close, Stage.close, out]
    split <;> exact closed
  exact counted.trans (congrArg (· + _) same.symm)

end Host

variable [Sink σ]

theorem Outlet.pushed_push (frame : Frame) (o : Outlet σ) :
    match o.push frame with
    | (.ok (), o') => o'.pushed = o.pushed + 1
    | (.error cause, o') => cause.kind = .submission ∧ o'.pushed = o.pushed := by
  unfold push
  rcases Sink.accept frame o.sink with ⟨_ | _ | reason, sink⟩
  · rfl
  · rfl
  · exact ⟨rfl, rfl⟩

theorem Station.pushed_passThrough (frame : Frame) (s : Station ε π σ) :
    match s.passThrough frame with
    | (.ok (), s') => s'.out.pushed = s.out.pushed + 1
    | (.error cause, s') => cause.kind = .submission ∧ s'.out.pushed = s.out.pushed := by
  rcases s with ⟨engine, ⟨_ | handle, settings, policy⟩, previous, out⟩
  · exact ⟨rfl, rfl⟩
  · simp only [passThrough, submit, Lease.submit]
    rcases Lease.process frame ⟨engine, handle⟩ with ⟨cause | _, l⟩
    · exact ⟨rfl, rfl⟩
    · have pushed := out.pushed_push frame
      simp only [ignoreOutput, withLease]
      generalize out.push frame = answer at pushed ⊢
      rcases answer with ⟨cause | _, out'⟩ <;> exact pushed

namespace Host
variable {h : Host ε π σ}

theorem counted_takeFrame (frame : Frame) (estimates : h.stage.options.synthesizes = false)
    (counted : h.Counted) : (h.takeFrame frame).2.Counted := by
  have pushed := Station.pushed_passThrough frame h.stage.station
  simp only [Counted, out] at counted
  simp only [takeFrame, Stage.accept, estimates, Bool.false_eq_true, if_false]
  generalize h.stage.station.passThrough frame = answer at pushed ⊢
  rcases answer with ⟨cause | _, s⟩
  · obtain ⟨kind, same⟩ := pushed
    simp only [Counted, out, kind, if_true]
    omega
  · simp only [Counted, out]
    omega

theorem counted_finish (estimates : h.stage.options.synthesizes = false) (counted : h.Counted) :
    h.finish.2.Counted := by
  have drains : h.stage.drain.2.station.out.pushed = h.out.pushed := by
    simp only [Stage.drain, estimates, Bool.false_eq_true, if_false]
    exact congrArg Outlet.pushed (Station.drainIgnoring_apart h.station).1
  have finishes := h.finishes_finish
  generalize h.finish = answer at finishes ⊢
  cases finishes with
  | failed drained =>
    rw [drained] at drains
    exact counted.trans (congrArg (· + _) drains.symm)
  | @closed report stage drained =>
    rw [drained] at drains
    have told : stage.station.out.endStream.2.pushed = stage.station.out.pushed := by
      unfold Outlet.endStream
      split
      · rfl
      · rcases Sink.finish stage.station.out.sink with ⟨_ | _, sink⟩ <;> rfl
    exact counted.trans (congrArg (· + _) (told.trans drains).symm)

theorem counted_request {ρ : Type} [Source ρ] (source : ρ)
    (estimates : h.stage.options.synthesizes = false) (counted : h.Counted) :
    (h.request source).2.1.Counted := by
  have pulls := h.pulls_request source
  generalize h.request source = answer at pulls ⊢
  cases pulls with
  | ended state => exact counted
  | repeated state => exact counted
  | faulted pulling supplied => exact counted
  | @took frame source' pool pulling supplied =>
    exact counted_takeFrame frame (h := h.withPool pool) estimates counted
  | @finished source' pool pulling supplied =>
    exact counted_finish (h := h.withPool pool) estimates counted

end Host

end counted

section world
variable {ε π σ ρ κ : Type} [Engine ε π] [Sink σ] [Source ρ]
  (act : κ → Surroundings ε σ ρ → Surroundings ε σ ρ)

namespace World

/-- What the source gives away in a call. -/
def supplies (w : World ε π σ ρ) : Call κ → List Frame
  | .request => w.host.supplies w.source
  | .configure _ | .close | .outside _ => []

/-- The frames that the source gave away during a history. -/
def suppliedFrames (w : World ε π σ ρ) : List (Call κ) → List Frame
  | [] => []
  | call :: rest => w.supplies call ++ (w.perform act call).2.suppliedFrames rest

/-- The frames that the sink was offered during a history. -/
def offeredFrames (w : World ε π σ ρ) : List (Call κ) → List Frame
  | [] => []
  | call :: rest =>
    (w.sinkCalls act call).filterMap SinkCall.frame? ++ (w.perform act call).2.offeredFrames rest

/-- The frames that processors accepted during a history. -/
def acceptedFrames (w : World ε π σ ρ) (calls : List (Call κ)) : List Frame :=
  (w.processorHistory act calls).filterMap ProcessorCall.accepted?

theorem synthesizes_perform (w : World ε π σ ρ) (call : Call κ) :
    (w.perform act call).2.host.stage.options.synthesizes =
      w.host.stage.options.synthesizes :=
  congrArg StageOptions.synthesizes (options_perform act w call)

theorem forwards_perform {w : World ε π σ ρ} (estimates : w.host.stage.options.synthesizes = false)
    (call : Call κ) :
    w.noted.host.station.Forwards (w.supplies call)
      (w.noted.perform (besideNotes act) call).2.host.station := by
  cases call with
  | configure link => exact w.noted.host.forwards_configure [] link
  | request => exact Host.forwards_request (h := w.noted.host) w.source estimates
  | close => exact w.noted.host.forwards_close []
  | outside event =>
    exact ⟨[], .refl _, (List.append_nil _).symm, (List.append_nil _).symm⟩

theorem forwards_call {w : World ε π σ ρ} (estimates : w.host.stage.options.synthesizes = false)
    (call : Call κ) :
    (w.sinkCalls act call).filterMap SinkCall.frame? = w.acceptedFrames act [call] ∧
      (w.acceptedFrames act [call]).Sublist (w.supplies call) := by
  obtain ⟨frames, ordered, accepted, offered⟩ := forwards_perform act estimates call
  have accepted' : w.acceptedFrames act [call] = frames := by
    unfold acceptedFrames
    simp only [processorHistory, List.append_nil]
    exact accepted
  rw [accepted']
  exact ⟨offered, ordered⟩

theorem forwards_run {w : World ε π σ ρ} (estimates : w.host.stage.options.synthesizes = false)
    (calls : List (Call κ)) : w.offeredFrames act calls = w.acceptedFrames act calls ∧
      (w.acceptedFrames act calls).Sublist (w.suppliedFrames act calls) := by
  induction calls generalizing w with
  | nil => exact ⟨rfl, .refl _⟩
  | cons call rest ih =>
    obtain ⟨same, ordered⟩ := forwards_call act estimates call
    obtain ⟨later, ordered'⟩ := ih ((synthesizes_perform act w call).trans estimates)
    have split : w.acceptedFrames act (call :: rest) =
        w.acceptedFrames act [call] ++ (w.perform act call).2.acceptedFrames act rest := by
      simp only [acceptedFrames, processorHistory, List.append_nil, List.filterMap_append]
    rw [split]
    exact ⟨congrArg₂ (· ++ ·) same later, ordered.append ordered'⟩

theorem counted_perform {w : World ε π σ ρ} (estimates : w.host.stage.options.synthesizes = false)
    (counted : w.host.Counted) (call : Call κ) : (w.perform act call).2.host.Counted := by
  cases call with
  | configure link => exact Host.counted_configure link counted
  | request => exact Host.counted_request w.source estimates counted
  | close => exact Host.counted_close counted
  | outside event => exact counted

theorem counted_run {w : World ε π σ ρ} (estimates : w.host.stage.options.synthesizes = false)
    (counted : w.host.Counted) (calls : List (Call κ)) : (w.run act calls).host.Counted := by
  have step (w : World ε π σ ρ) (call : Call κ)
      (holds : w.host.stage.options.synthesizes = false ∧ w.host.Counted) :
      (w.perform act call).2.host.stage.options.synthesizes = false ∧
        (w.perform act call).2.host.Counted := by
    obtain ⟨estimates, counted⟩ := holds
    exact ⟨(synthesizes_perform act w call).trans estimates,
      counted_perform act estimates counted call⟩
  exact (run_invariant act step ⟨estimates, counted⟩ calls).2

end World

end world

end FrameRelay
