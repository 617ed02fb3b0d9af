import FrameRelay.Proofs.Emission
import FrameRelay.Proofs.Notes
import FrameRelay.Proofs.Steps

/-! The protocol of the end of a stream. What the sink gets to see and how the host answers is led
by a small machine, whose standing is the state of the host, the message of the last failure and
the flag of the end that was sent. Each call of a host is one passage of that machine. -/

namespace FrameRelay

section offers
variable {ε π σ : Type}

namespace Outlet

/-- The side of the sink is as it was. -/
structure Quiet (o o' : Outlet (Noted σ SinkCall)) : Prop where
  endSent : o'.endSent = o.endSent
  sink : o'.sink = o.sink

/-- Frames were offered to the sink, and nothing else happened on its side. -/
structure Offers (o o' : Outlet (Noted σ SinkCall)) : Prop where
  endSent : o'.endSent = o.endSent
  notes : ∃ frames : List Frame, o'.sink.notes = o.sink.notes ++ frames.map .offered

theorem Quiet.refl (o : Outlet (Noted σ SinkCall)) : o.Quiet o := ⟨rfl, rfl⟩

theorem Quiet.offers {o o' : Outlet (Noted σ SinkCall)} (quiet : o.Quiet o') : o.Offers o' :=
  ⟨quiet.endSent, [], by simp [quiet.sink]⟩

theorem Offers.trans {first second third : Outlet (Noted σ SinkCall)}
    (left : first.Offers second) (right : second.Offers third) : first.Offers third := by
  obtain ⟨earlier, noted⟩ := left.notes
  obtain ⟨later, noted'⟩ := right.notes
  refine ⟨right.endSent.trans left.endSent, earlier ++ later, ?_⟩
  rw [noted', noted, List.map_append, List.append_assoc]

theorem quiet_release (frame : Frame) (o : Outlet (Noted σ SinkCall)) : o.Quiet (o.release frame) :=
  ⟨rfl, rfl⟩

theorem quiet_releaseSlot (slot : Option Frame) (o : Outlet (Noted σ SinkCall)) :
    o.Quiet (o.releaseSlot slot) := ⟨rfl, rfl⟩

theorem quiet_buffer {o o' : Outlet (Noted σ SinkCall)} {frame : Frame}
    (taken : o.buffer = (.ok frame, o')) : o.Quiet o' := by
  rcases o with ⟨_ | link, sink, pool, pushed, endSent⟩
  · cases taken
  · cases taken
    exact ⟨rfl, rfl⟩

variable [Sink σ]

theorem offers_push (frame : Frame) (o : Outlet (Noted σ SinkCall)) :
    o.Offers (o.push frame).2 := by
  unfold push
  simp only [Sink.accept]
  rcases Sink.accept frame o.sink.inner with ⟨_ | _ | reason, sink⟩ <;> exact ⟨rfl, [frame], rfl⟩

theorem offers_of_emission {o o' : Outlet (Noted σ SinkCall)} (emitted : o.Emission o') :
    o.Offers o' := by
  induction emitted with
  | refl => exact (Quiet.refl o).offers
  | tail _ step ih =>
    cases step with
    | dropped taken _ =>
      exact ih.trans ((quiet_buffer taken).offers.trans (quiet_release _ _).offers)
    | handed taken _ => exact ih.trans ((quiet_buffer taken).offers.trans (offers_push _ _))

/-- The end of a stream reaches the sink unless it was sent before, and counts as sent also when
the sink refuses it. -/
theorem notes_endStream (o : Outlet (Noted σ SinkCall)) : o.endStream.2.endSent = true ∧
    o.endStream.2.sink.notes = o.sink.notes ++ if o.endSent then [] else [.ended] := by
  unfold endStream
  by_cases sent : o.endSent = true
  · simp [sent]
  · simp only [sent, Bool.false_eq_true, if_false, Sink.finish]
    rcases Sink.finish o.sink.inner with ⟨_ | _, sink⟩ <;> exact ⟨rfl, rfl⟩

end Outlet

namespace Station
variable [Engine ε π]

theorem quiet_configures {link : Link} {succeeds : Bool} {s s' : Station ε π (Noted σ SinkCall)}
    (configures : s.Configures link succeeds s') : s.out.Quiet s'.out := by
  induction configures with
  | left s => exact .refl s.out
  | opened settings s =>
    rw [(openStream_apart settings link s).1, out_close]
    exact .refl s.out
  | cleared _ ih => exact ⟨ih.endSent, ih.sink⟩

theorem quiet_submit (frame : Frame) (s : Station ε π (Noted σ SinkCall)) :
    s.out.Quiet (s.submit frame).2.out := by
  rcases s with ⟨engine, ⟨_ | handle, settings, policy⟩, previous, out⟩
  · exact Outlet.quiet_release frame out
  · simp only [submit]
    rcases Lease.submit frame ⟨engine, handle⟩ with ⟨_ | _, l⟩
    · exact Outlet.quiet_release frame out
    · exact .refl out

variable [Sink σ]

theorem offers_synthesize (frame : Frame) (s : Station ε π (Noted σ SinkCall)) :
    s.out.Offers (s.synthesize frame).2.out := by
  have submitted := quiet_submit frame s
  simp only [synthesize]
  generalize s.submit frame = answer at submitted ⊢
  rcases answer with ⟨_ | _, s'⟩
  · exact submitted.offers
  · have kept : s'.out.Quiet (s'.keepPrevious frame).out := Outlet.quiet_releaseSlot _ _
    obtain ⟨emitted, _⟩ := emission_addOutput frame (s'.keepPrevious frame)
    exact submitted.offers.trans (kept.offers.trans (Outlet.offers_of_emission emitted))

theorem offers_finishSynthesis (s : Station ε π (Noted σ SinkCall)) :
    s.out.Offers s.finishSynthesis.2.out :=
  (Outlet.offers_of_emission (emission_postflight s).1).trans (Outlet.quiet_releaseSlot _ _).offers

theorem offers_passThrough (frame : Frame) (s : Station ε π (Noted σ SinkCall)) :
    s.out.Offers (s.passThrough frame).2.out := by
  have submitted := quiet_submit frame s
  simp only [passThrough]
  generalize s.submit frame = answer at submitted ⊢
  rcases answer with ⟨_ | _, s'⟩
  · exact submitted.offers
  · dsimp only
    rw [(ignoreOutput_apart s').1]
    exact submitted.offers.trans (Outlet.offers_push frame s'.out)

end Station

namespace Stage
variable [Engine ε π]

theorem quiet_configure (link : Link) (stage : Stage ε π (Noted σ SinkCall)) :
    stage.station.out.Quiet (stage.configure link).2.station.out :=
  Station.quiet_configures (stage.configures_configure link).1

theorem quiet_close (stage : Stage ε π (Noted σ SinkCall)) :
    stage.station.out.Quiet stage.close.station.out := by
  simp only [close]
  split
  · rw [← Station.out_close stage.station]
    exact Outlet.quiet_releaseSlot _ _
  · rw [Station.out_close]
    exact .refl _

variable [Sink σ]

theorem offers_accept (frame : Frame) (stage : Stage ε π (Noted σ SinkCall)) :
    stage.station.out.Offers (stage.accept frame).2.station.out := by
  simp only [accept]
  split
  · exact Station.offers_synthesize frame stage.station
  · exact Station.offers_passThrough frame stage.station

theorem offers_drain (stage : Stage ε π (Noted σ SinkCall)) :
    stage.station.out.Offers stage.drain.2.station.out := by
  simp only [drain]
  split
  · exact Station.offers_finishSynthesis stage.station
  · rw [(Station.drainIgnoring_apart stage.station).1]
    exact (Outlet.Quiet.refl _).offers

end Stage

end offers

/-- The standing of a stream: the state of the host, the message of a drain that failed, and
whether the end was sent. -/
structure Standing where
  state : StreamState
  failure : Option String
  endSent : Bool

namespace Standing

/-- What one call does to a standing. `supplied` is what the source has to offer at the call and
`drained` what a drain would answer then. -/
inductive Passage {κ : Type} (supplied : Outcome (Option Frame)) (drained : Outcome DrainReport)
    (s : Standing) : Call κ → Answer → List SinkCall → Standing → Prop where
  | idle (call : Call κ) {answer : Answer} (plain : answer.opens = false) :
    Passage supplied drained s call answer [] s
  | opened (link outLink : Link) :
    Passage supplied drained s (.configure link) (.linked (.ok outLink)) []
      ⟨.streaming, none, false⟩
  | offered (result : Outcome Flow) (frames : List Frame)
    (pulling : s.state ≠ .closed ∧ s.state ≠ .failed) :
    Passage supplied drained s .request (.pulled result) (frames.map .offered) s
  | failed {cause : StageError} (frames : List Frame)
    (pulling : s.state ≠ .closed ∧ s.state ≠ .failed) (last : supplied = .ok none)
    (stuck : drained = .error cause) :
    Passage supplied drained s .request (.pulled (.error cause.intoDrain)) (frames.map .offered)
      ⟨.failed, some cause.intoDrain.message, s.endSent⟩
  | closed {report : DrainReport} (result : Outcome Flow) (frames : List Frame)
    (pulling : s.state ≠ .closed ∧ s.state ≠ .failed) (last : supplied = .ok none)
    (clean : drained = .ok report) :
    Passage supplied drained s .request (.pulled result)
      (frames.map .offered ++ if s.endSent then [] else [.ended]) ⟨.closed, s.failure, true⟩

/-- What the sink saw of the present stream fits the standing: frames, and after them one end if
the stream is closed. -/
structure Fits (s : Standing) (seen : List SinkCall) : Prop where
  settled : s.state ≠ .draining
  sent : s.endSent = true ↔ s.state = .closed
  seen : ∃ frames : List Frame,
    seen = frames.map .offered ++ if s.state = .closed then [.ended] else []

variable {κ : Type} {supplied : Outcome (Option Frame)} {drained : Outcome DrainReport}
  {s s' : Standing} {call : Call κ} {answer : Answer} {calls : List SinkCall}

theorem Passage.fits (passage : Passage supplied drained s call answer calls s')
    {seen : List SinkCall} (fits : s.Fits seen) :
    s'.Fits (if answer.opens then [] else seen ++ calls) := by
  obtain ⟨frames, shape⟩ := fits.seen
  cases passage with
  | idle call plain => simpa [plain] using fits
  | opened link outLink => exact ⟨by simp, by simp, [], rfl⟩
  | offered result later pulling =>
    refine ⟨fits.settled, fits.sent, frames ++ later, ?_⟩
    simp [Answer.opens, shape, pulling.1]
  | failed later pulling last stuck =>
    have unsent : ¬ s.endSent = true := fun sent => pulling.1 (fits.sent.mp sent)
    refine ⟨by simp, by simp [unsent], frames ++ later, ?_⟩
    simp [Answer.opens, shape, pulling.1]
  | closed result later pulling last clean =>
    have unsent : ¬ s.endSent = true := fun sent => pulling.1 (fits.sent.mp sent)
    refine ⟨by simp, by simp, frames ++ later, ?_⟩
    simp [Answer.opens, shape, pulling.1, unsent]

theorem Passage.of_ended (passage : Passage supplied drained s call answer calls s')
    (ended : .ended ∈ calls) :
    call = .request ∧ (s.state ≠ .closed ∧ s.state ≠ .failed) ∧ supplied = .ok none ∧
      ∃ report, drained = .ok report := by
  cases passage with
  | idle | opened => cases ended
  | offered | failed => simp at ended
  | closed result later pulling last clean => exact ⟨rfl, pulling, last, _, clean⟩

theorem Passage.of_leaves (passage : Passage supplied drained s call answer calls s')
    (final : s.state = .closed ∨ s.state = .failed) (leaves : s'.state ≠ s.state) :
    ∃ link outLink, call = .configure link ∧ answer = .linked (.ok outLink) := by
  cases passage with
  | idle | offered => exact absurd rfl leaves
  | opened link outLink => exact ⟨link, outLink, rfl, rfl⟩
  | failed later pulling | closed result later pulling =>
    exact absurd final (not_or.mpr pulling)

theorem Passage.of_failed (passage : Passage supplied drained s call answer calls s')
    (failed : s'.state = .failed) :
    (s.state = .failed ∧ s'.failure = s.failure) ∨
      ∃ cause, call = .request ∧ (s.state ≠ .closed ∧ s.state ≠ .failed) ∧
        supplied = .ok none ∧ drained = .error cause ∧
        answer = .pulled (.error cause.intoDrain) ∧
        s'.failure = some cause.intoDrain.message := by
  cases passage with
  | idle => exact .inl ⟨failed, rfl⟩
  | opened => cases failed
  | offered result frames pulling => exact absurd failed pulling.2
  | failed frames pulling last stuck => exact .inr ⟨_, rfl, pulling, last, stuck, rfl, rfl⟩
  | closed => cases failed

end Standing

section world
variable {ε π σ ρ κ : Type}

namespace Host

def standing (h : Host ε π σ) : Standing := ⟨h.state, h.failure, h.out.endSent⟩

variable [Engine ε π]

theorem passage_configure (supplied : Outcome (Option Frame)) (drained : Outcome DrainReport)
    (link : Link) (h : Host ε π (Noted σ SinkCall)) :
    (h.configure link).2.out.sink = h.out.sink ∧
      h.standing.Passage supplied drained (.configure link : Call κ)
        (.linked (h.configure link).1) [] (h.configure link).2.standing := by
  have quiet := Stage.quiet_configure link h.stage
  have links := h.links_configure link
  generalize h.configure link = answer at links ⊢
  cases links with
  | mismatched cause => exact ⟨rfl, .idle _ rfl⟩
  | @refused cause stage configured =>
    rw [configured] at quiet
    have same : Host.standing { h with stage } = h.standing :=
      congrArg (Standing.mk h.state h.failure) quiet.endSent
    exact ⟨quiet.sink, same ▸ .idle _ rfl⟩
  | linked configured =>
    rw [configured] at quiet
    exact ⟨quiet.sink, .opened link _⟩

variable [Sink σ]

theorem passage_finish {supplied : Outcome (Option Frame)}
    (h : Host ε π (Noted σ SinkCall)) (pulling : h.state ≠ .closed ∧ h.state ≠ .failed)
    (last : supplied = .ok none) :
    ∃ calls, h.finish.2.out.sink.notes = h.out.sink.notes ++ calls ∧
      h.standing.Passage supplied h.stage.drain.1 (.request : Call κ) (.pulled h.finish.1) calls
        h.finish.2.standing := by
  have offers := Stage.offers_drain h.stage
  have finishes := h.finishes_finish
  generalize h.finish = answer at finishes ⊢
  cases finishes with
  | @failed cause stage drained =>
    rw [drained] at offers ⊢
    obtain ⟨frames, noted⟩ := offers.notes
    have after : (⟨.failed, some cause.intoDrain.message, stage.station.out.endSent⟩ : Standing) =
        ⟨.failed, some cause.intoDrain.message, h.standing.endSent⟩ :=
      congrArg (Standing.mk _ _) offers.endSent
    refine ⟨_, noted, ?_⟩
    simp only [standing, out] at after ⊢
    exact after ▸ .failed frames pulling last rfl
  | @closed report stage drained =>
    rw [drained] at offers ⊢
    obtain ⟨frames, noted⟩ := offers.notes
    obtain ⟨sent, ended⟩ := Outlet.notes_endStream stage.station.out
    have all := ended.trans (congrArg (· ++ _) noted)
    rw [offers.endSent, List.append_assoc] at all
    refine ⟨_, all, ?_⟩
    simp only [standing, out, withOut, sent]
    exact .closed _ frames pulling last rfl

theorem passage_request [Source ρ] (source : ρ) (h : Host ε π (Noted σ SinkCall)) :
    ∃ calls, (h.request source).2.1.out.sink.notes = h.out.sink.notes ++ calls ∧
      h.standing.Passage (Source.next source h.out.pool).1
        (h.withPool (Source.next source h.out.pool).2.2).stage.drain.1 (.request : Call κ)
        (.pulled (h.request source).1) calls (h.request source).2.1.standing := by
  have pulls := h.pulls_request source
  generalize h.request source = answer at pulls ⊢
  cases pulls with
  | ended state => exact ⟨[], by simp, .idle _ rfl⟩
  | repeated state => exact ⟨[], by simp, .idle _ rfl⟩
  | faulted pulling supplied => exact ⟨[], by simp [withPool, withOut, out], .idle _ rfl⟩
  | @took frame source' pool pulling supplied =>
    have offers := Stage.offers_accept frame (h.withPool pool).stage
    obtain ⟨failures, taken⟩ := takeFrame_eq frame (h.withPool pool)
    obtain ⟨frames, noted⟩ := offers.notes
    have same : ((h.withPool pool).takeFrame frame).2.standing = h.standing := by
      rw [taken]
      exact congrArg (Standing.mk h.state h.failure) offers.endSent
    rw [taken] at same ⊢
    exact ⟨_, noted, same ▸ .offered _ frames pulling⟩
  | @finished source' pool pulling supplied =>
    rw [supplied]
    exact passage_finish (h.withPool pool) pulling rfl

end Host

namespace World
variable [Engine ε π] [Sink σ] [Source ρ] (act : κ → Surroundings ε σ ρ → Surroundings ε σ ρ)

/-- What the source has to offer at the next pull. -/
def supplied (w : World ε π σ ρ) : Outcome (Option Frame) :=
  (Source.next w.source w.host.out.pool).1

/-- What the drain answers if the next pull finds the source empty. -/
def drained (w : World ε π σ ρ) : Outcome DrainReport :=
  (w.host.withPool (Source.next w.source w.host.out.pool).2.2).stage.drain.1

theorem drained_noted (w : World ε π σ ρ) : w.noted.drained = w.drained := by
  have mapped := Stage.map_drain (Noted.engine ε π) (Noted.sink σ)
    (w.noted.host.withPool (Source.next w.source w.host.out.pool).2.2).stage
  exact (congrArg Prod.fst mapped).symm

theorem passage_perform (w : World ε π σ ρ) (call : Call κ) :
    w.host.standing.Passage w.supplied w.drained call (w.perform act call).1
      (w.sinkCalls act call) (w.perform act call).2.host.standing := by
  rw [map_noted_perform act w call]
  cases call with
  | configure link =>
    obtain ⟨same, passage⟩ :=
      Host.passage_configure w.supplied w.drained link w.noted.host
    have silent : w.sinkCalls act (.configure link) = [] := congrArg Noted.notes same
    rw [silent]
    exact passage
  | request =>
    obtain ⟨calls, noted, passage⟩ := Host.passage_request w.source w.noted.host
    have heard : w.sinkCalls act .request = calls := noted
    rw [heard, ← drained_noted]
    exact passage
  | close =>
    have quiet := Stage.quiet_close w.noted.host.stage
    have silent : w.sinkCalls act .close = [] := congrArg Noted.notes quiet.sink
    have same : w.noted.host.close.standing = w.host.standing :=
      congrArg (Standing.mk w.host.state w.host.failure) quiet.endSent
    rw [silent]
    exact same ▸ .idle _ rfl
  | outside event => exact .idle _ rfl

theorem fits_run {w : World ε π σ ρ} {seen : List SinkCall} (fits : w.host.standing.Fits seen)
    (calls : List (Call κ)) :
    (w.run act calls).host.standing.Fits (w.sinkHistory act seen calls) := by
  induction calls generalizing w seen with
  | nil => exact fits
  | cons call rest ih => exact ih ((passage_perform act w call).fits fits)

/-- The pull at which a drain failed: what it answered, and that the stream has been in the state
of failure ever since, over all the later calls. -/
structure FailsAt (start : World ε π σ ρ) (cause : StageError) (before after : List (Call κ)) :
    Prop where
  pulling : (start.run act before).host.state ≠ .closed ∧
    (start.run act before).host.state ≠ .failed
  last : (start.run act before).supplied = .ok none
  stuck : (start.run act before).drained = .error cause
  answer : ((start.run act before).perform act .request).1 = .pulled (.error cause.intoDrain)
  since : ∀ count, (start.run act (before ++ .request :: after.take count)).host.state = .failed

theorem exists_failsAt {w : World ε π σ ρ} {calls : List (Call κ)}
    (failed : (w.run act calls).host.state = .failed) :
    ((∀ count, (w.run act (calls.take count)).host.state = .failed) ∧
        (w.run act calls).host.failure = w.host.failure) ∨
      ∃ cause before after, calls = before ++ .request :: after ∧
        w.FailsAt act cause before after ∧
        (w.run act calls).host.failure = some cause.intoDrain.message := by
  induction calls generalizing w with
  | nil => exact .inl ⟨fun count => by simpa using failed, rfl⟩
  | cons call rest ih =>
    have passage := passage_perform act w call
    rcases ih failed with ⟨stays, kept⟩ | ⟨cause, before, after, split, fails, kept⟩
    · rcases passage.of_failed (stays 0) with
        ⟨earlier, same⟩ | ⟨cause, rfl, pulling, last, stuck, answer, message⟩
      · refine .inl ⟨fun count => ?_, kept.trans same⟩
        cases count with
        | zero => exact earlier
        | succ count => exact stays count
      · exact .inr ⟨cause, [], rest, rfl, ⟨pulling, last, stuck, answer, stays⟩,
          kept.trans message⟩
    · refine .inr ⟨cause, call :: before, after, congrArg (call :: ·) split, ?_, kept⟩
      exact ⟨fails.pulling, fails.last, fails.stuck, fails.answer, fails.since⟩

/-- After any history of a host, whatever engine, sink and source do in each call and outside of
them: the state is settled and the end counts as sent exactly in the state `closed`. The sink was
offered frames since the last configuration that succeeded, and after them one end if the stream
is closed and none otherwise; the end goes out only in a pull that finds the source empty and
drains well. A closed stream answers each pull with its end and a failed one with the message of
the error that failed its drain, and neither pull touches anything. Only a configuration that
succeeds leaves these two states. -/
theorem end_of_stream_protocol (options : StageOptions) (engine : ε) (policy : DrainPolicy)
    (sink : σ) (pool : Pool) (source : ρ) (calls : List (Call κ)) :
    let start : World ε π σ ρ := fresh options engine policy sink pool source
    let w := start.run act calls
    let seen := start.sinkHistory act [] calls
    w.host.state ≠ .draining ∧ (w.host.out.endSent = true ↔ w.host.state = .closed) ∧
    (∃ frames : List Frame,
      seen = frames.map .offered ++ if w.host.state = .closed then [.ended] else []) ∧
    (∀ call, .ended ∈ w.sinkCalls act call → call = .request ∧ w.host.state = .streaming ∧
      w.supplied = .ok none ∧ ∃ report, w.drained = .ok report) ∧
    (w.host.state = .closed → w.perform act .request = (.pulled (.ok .ended), w)) ∧
    (w.host.state = .failed → .ended ∉ seen ∧ ∃ cause before after,
      calls = before ++ .request :: after ∧ start.FailsAt act cause before after ∧
      cause.intoDrain.kind = .drain ∧
      w.perform act .request = (.pulled (.error (.streamFailed cause.intoDrain.message)), w)) ∧
    ∀ call, w.host.state = .closed ∨ w.host.state = .failed →
      (w.perform act call).2.host.state ≠ w.host.state →
      ∃ link outLink, call = .configure link ∧ (w.perform act call).1 = .linked (.ok outLink) := by
  intro start w seen
  have blank : start.host.standing = ⟨.streaming, none, false⟩ := rfl
  have fits : w.host.standing.Fits seen :=
    fits_run act (w := start) (blank ▸ ⟨by simp, by simp, [], rfl⟩) calls
  refine ⟨fits.settled, fits.sent, fits.seen, ?_, ?_, ?_, ?_⟩
  · intro call ended
    obtain ⟨request, pulling, last, clean⟩ := (passage_perform act w call).of_ended ended
    have settled : w.host.state ≠ .draining := fits.settled
    refine ⟨request, ?_, last, clean⟩
    cases state : w.host.state <;> simp_all [Host.standing]
  · intro closed
    simp only [perform, Host.request, closed]
  · intro failed
    obtain ⟨frames, shape⟩ := fits.seen
    have unended : .ended ∉ seen := by simp [shape, Host.standing, failed]
    rcases exists_failsAt act failed with
      ⟨stays, _⟩ | ⟨cause, before, after, split, fails, message⟩
    · cases stays 0
    · refine ⟨unended, cause, before, after, split, fails, StageError.kind_intoDrain cause, ?_⟩
      have answered : w.host.failure = some cause.intoDrain.message := message
      simp only [perform, Host.request, failed, answered, Option.getD]
  · intro call final leaves
    exact (passage_perform act w call).of_leaves final leaves

end World

end world

end FrameRelay
