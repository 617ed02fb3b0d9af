import FrameRelay.Proofs.Opening
import FrameRelay.Proofs.Sifting

/-! The output link of a stage that synthesizes fits what the simulated engine makes. Whatever
frames come in, a pull ends in a frame more, in the end of the stream or in the rejection of a frame
at its submission, and whatever goes out has the size of the link. The one exception are links
without rows: an output without rows still wants the buffer of a row. -/

namespace FrameRelay
open Simulated (Processor)

/-- The frame has the size and format of the link, its rows follow each other without padding, and
it has exactly the samples of them. -/
structure Frame.Fits (link : Link) (frame : Frame) : Prop where
  width_eq : frame.width = link.width
  height_eq : frame.height = link.height
  format_eq : frame.format = link.format
  lineSize_eq : frame.lineSize = 3 * link.width
  size_eq : frame.samples.size = 3 * link.width * link.height

theorem Link.fits_relay {link : Link} {outputs : List Output}
    (packed : ∀ output ∈ outputs, output.Packed link.width link.height) (aspect : Ratio) :
    ∀ frame ∈ link.relay aspect outputs, frame.Fits link := by
  intro frame inside
  have tight := tight_relay packed aspect frame inside
  obtain ⟨output, -, rfl⟩ := List.mem_map.mp inside
  exact ⟨rfl, rfl, rfl, rfl, tight.size_eq⟩

/-- The answer is no failure, or the failure of a frame at its submission that is neither for want
of a worker nor a fault. -/
def Outcome.Fair (answer : Outcome Flow) : Prop :=
  answer = .ok .more ∨ answer = .ok .ended ∨ ∃ pts cause,
    answer = .error (.submission pts cause) ∧ cause ≠ .workerGone ∧ cause.isFault = false

namespace Simulated

namespace Processor
variable {p : Processor} {frame : Frame}

theorem packed_of_examine {picture : Picture} (examined : p.examine frame = .ok picture) :
    picture.Packed p.width p.height ∧ picture.pts = frame.pts := by
  obtain ⟨-, ⟨width, height⟩, made⟩ := examine_eq_ok_iff.mp examined
  rw [← width, ← height]
  exact ⟨packed_pictureOf made, (fills_pictureOf made).2⟩

theorem cause_of_examine {cause : EngineError} (addressable : Addressable p.width p.height frame)
    (examined : p.examine frame = .error cause) : cause ≠ .workerGone ∧ cause.isFault = false := by
  unfold examine at examined
  split at examined
  · cases examined
    exact ⟨EngineError.noConfusion, rfl⟩
  split at examined
  · cases examined
    exact ⟨EngineError.noConfusion, rfl⟩
  case isFalse same =>
    have fits := addressable (by omega) (by omega)
    simp only [pictureOf, tooSmall_of_lt fits] at examined
    split at examined
    · cases examined
    · cases examined
      exact ⟨EngineError.noConfusion, rfl⟩

end Processor

end Simulated

section host
variable {σ : Type} [Sink σ] {c : Channel σ} {shut : List Frame → σ → Prop} {kernel : Kernel}
  {submissions : Nat} {frames : List Frame} {h : Host Simulated Processor σ}

/-- The host after a stream has begun: frames that fit went out, and the stream goes on or has
ended. -/
def Host.Supplies (c : Channel σ) (shut : List Frame → σ → Prop) (frames : List Frame)
    (h : Host Simulated Processor σ) : Prop :=
  (∀ frame ∈ frames, frame.Fits c.link) ∧
    ((∃ kernel submissions, h.Streams c true kernel submissions frames ∧
      kernel.Makes c.width c.height c.link.width c.link.height) ∨
      h.Shuts shut c.earlier frames)

namespace Host

theorem Streams.request_of_cons (keeps : Sink.Keeps c.book shut) (fillable : c.link.Fillable)
    (streams : h.Streams c true kernel submissions frames)
    (makes : kernel.Makes c.width c.height c.link.width c.link.height)
    (fit : ∀ frame ∈ frames, frame.Fits c.link) {frame : Frame}
    (addressable : Simulated.Addressable c.width c.height frame) (rest : List Frame) :
    ∃ answer h' sent, h.request (Queue.mk (frame :: rest) none) = (answer, h', ⟨rest, none⟩) ∧
      Outcome.Fair answer ∧ h'.Supplies c shut sent := by
  rw [Host.request_of_cons streams.state]
  cases examined : c.examine kernel submissions frame with
  | error cause =>
    obtain ⟨h', answer, streams', -⟩ := streams.refuses examined
    have fair := Processor.cause_of_examine addressable examined
    rw [answer]
    exact ⟨_, h', frames, rfl, .inr (.inr ⟨_, cause, rfl, fair⟩), fit,
      .inl ⟨kernel, _, streams', makes⟩⟩
  | ok picture =>
    have packed := (Processor.packed_of_examine examined).1
    obtain ⟨kernel', outputs, pushed, makes', each⟩ := makes.push? packed
    obtain ⟨h', answer, streams', -⟩ := streams.takes keeps fillable examined pushed each
    rw [answer]
    refine ⟨_, h', _, rfl, .inl rfl, ?_, .inl ⟨kernel', _, streams', makes'⟩⟩
    exact List.forall_mem_append.mpr ⟨fit, Link.fits_relay each frame.aspect⟩

theorem Streams.request_of_nil (keeps : Sink.Keeps c.book shut) (fillable : c.link.Fillable)
    (streams : h.Streams c true kernel submissions frames)
    (makes : kernel.Makes c.width c.height c.link.width c.link.height)
    (fit : ∀ frame ∈ frames, frame.Fits c.link) :
    ∃ h' sent, h.request (Queue.mk [] none) = (.ok .ended, h', ⟨[], none⟩) ∧
      h'.state = .closed ∧ h'.Supplies c shut sent := by
  obtain ⟨kernel', outputs, finished, each⟩ := makes.finish?
  obtain ⟨h', aspect, answer, shuts, -⟩ := streams.finishes keeps fillable finished each
  rw [Host.request_of_nil streams.state, answer]
  exact ⟨h', _, rfl, shuts.state,
    List.forall_mem_append.mpr ⟨fit, Link.fits_relay each aspect⟩, .inr shuts⟩

/-- However often a queue is pulled, by induction on the pulls. -/
theorem Supplies.pulls (supplies : h.Supplies c shut frames) (keeps : Sink.Keeps c.book shut)
    (fillable : c.link.Fillable) (count : Nat) {queue : List Frame}
    (addressable : ∀ frame ∈ queue, Simulated.Addressable c.width c.height frame) :
    ∃ answers h' rest sent, World.pulls count ⟨h, Queue.mk queue none⟩ =
        (answers, ⟨h', Queue.mk rest none⟩) ∧
      (∀ answer ∈ answers, Outcome.Fair answer) ∧ h'.Supplies c shut sent ∧
      (queue.length < count ∨ h.state = .closed → h'.state = .closed) := by
  induction count generalizing h queue frames with
  | zero => exact ⟨[], h, queue, frames, rfl, by simp, supplies, by simp⟩
  | succ count ih =>
    obtain ⟨answer, h₁, rest, sent, requested, fair, still, supplies₁, closes⟩ :
        ∃ answer h₁ rest sent, h.request (Queue.mk queue none) = (answer, h₁, ⟨rest, none⟩) ∧
          Outcome.Fair answer ∧
          (∀ frame ∈ rest, Simulated.Addressable c.width c.height frame) ∧
          h₁.Supplies c shut sent ∧
          (queue.length < count + 1 ∨ h.state = .closed →
            rest.length < count ∨ h₁.state = .closed) := by
      obtain ⟨fit, ⟨kernel, submissions, streams, makes⟩ | shuts⟩ := supplies
      · have streaming : h.state ≠ .closed := by simp [streams.state]
        cases queue with
        | nil =>
          obtain ⟨h₁, sent, requested, closed, supplies₁⟩ :=
            streams.request_of_nil keeps fillable makes fit
          exact ⟨_, h₁, [], sent, requested, .inr (.inl rfl), addressable, supplies₁,
            fun _ => .inr closed⟩
        | cons frame rest =>
          obtain ⟨here, still⟩ := List.forall_mem_cons.mp addressable
          obtain ⟨answer, h₁, sent, requested, fair, supplies₁⟩ :=
            streams.request_of_cons keeps fillable makes fit here rest
          refine ⟨answer, h₁, rest, sent, requested, fair, still, supplies₁,
            fun before => .inl ?_⟩
          have enough := before.resolve_right streaming
          rw [List.length_cons] at enough
          omega
      · have requested : h.request (Queue.mk queue none) = (.ok .ended, h, ⟨queue, none⟩) := by
          rw [request, shuts.state]
        exact ⟨_, h, queue, frames, requested, .inr (.inl rfl), addressable, ⟨fit, .inr shuts⟩,
          fun _ => .inr shuts.state⟩
    obtain ⟨answers, h', rest', sent', later, each, supplies', closes'⟩ := ih supplies₁ still
    refine ⟨answer :: answers, h', rest', sent', ?_, List.forall_mem_cons.mpr ⟨fair, each⟩,
      supplies', fun before => closes' (closes before)⟩
    simp only [World.pulls, requested, later]

end Host

end host

section noted
variable {σ : Type} [Sink σ] {good : σ → Prop}

/-- The sink is good and has noted these frames after what it had noted before. -/
def Noted.Offered (good : σ → Prop) (before : List SinkCall) (frames : List Frame)
    (s : Noted σ SinkCall) : Prop :=
  good s.inner ∧ s.notes = before ++ frames.map .offered

/-- The sink has noted these frames after what it had noted before, and then the end. -/
def Noted.Finished (before : List SinkCall) (frames : List Frame) (s : Noted σ SinkCall) : Prop :=
  s.notes = before ++ frames.map .offered ++ [.ended]

theorem Sink.Willing.keeps (willing : Sink.Willing good) (before : List SinkCall) :
    Sink.Keeps (Noted.Offered good before) (Noted.Finished before) where
  accept {frames frame s} here _ := by
    obtain ⟨inner, good', answer⟩ := willing.accept frame here.1
    have noted : s.notes ++ [.offered frame] =
        before ++ (frames ++ [frame]).map SinkCall.offered := by
      rw [here.2, List.map_append, List.append_assoc]
      rfl
    rcases answer with kept | consumed
    · exact ⟨s.add inner (.offered frame), ⟨good', noted⟩, .inl (by simp only [Sink.accept, kept])⟩
    · exact ⟨s.add inner (.offered frame), ⟨good', noted⟩,
        .inr (by simp only [Sink.accept, consumed])⟩
  finish {frames s} here := by
    obtain ⟨inner, -, answer⟩ := willing.finish here.1
    exact ⟨s.add inner .ended, congrArg (· ++ [SinkCall.ended]) here.2,
      by simp only [Sink.finish, answer]⟩

namespace World

/-- The output link fits what the engine makes. A stage that synthesizes is configured for a link,
after whatever past, and its output link has rows or no columns. Then a queue of any frames is
pulled, any number of times, with a willing sink and a drain that puts up with one poll without
progress. No output fails, no drain fails, no worker is lost and every call returns: only
submissions are rejected. What goes out has the size of the link. Of the frames, a word has to count
the samples that they need: with longer rows a submission does not return. -/
theorem outputs_fit_the_link (willing : Sink.Willing good)
    {h₀ h : Host Simulated Processor (Noted σ SinkCall)}
    (synthesizes : h₀.stage.options.synthesizes = true)
    (patient : 1 ≤ h₀.stage.station.session.policy.maxStalledPolls)
    (here : good h₀.out.sink.inner) {link outLink : Link}
    (configured : h₀.configure link = (.ok outLink, h))
    (fillable : 0 < outLink.height ∨ outLink.width = 0) {frames : List Frame}
    (addressable : ∀ frame ∈ frames, Simulated.Addressable link.width link.height frame)
    (count : Nat) :
    ∃ answers h' rest, ∃ sent : List Frame, World.pulls count ⟨h, Queue.mk frames none⟩ =
        (answers, ⟨h', Queue.mk rest none⟩) ∧
      (∀ answer ∈ answers, Outcome.Fair answer) ∧
      (∀ frame ∈ sent, frame.Fits outLink) ∧
      h'.out.sink.notes = h₀.out.sink.notes ++ sent.map .offered ++
        (if h'.state = .closed then [.ended] else []) ∧
      (∀ handle, h'.stage.station.session.handle = some handle →
        handle.processor.lane.worker ≠ none) ∧
      (frames.length < count → h'.state = .closed) := by
  have blank : Noted.Offered good h₀.out.sink.notes [] h₀.out.sink := ⟨here, by simp⟩
  obtain ⟨settings, spec, kernel, begins⟩ := Host.begins_of_configure configured patient blank
  have streams := begins.streams
  rw [synthesizes] at streams
  have supplies : h.Supplies _ (Noted.Finished h₀.out.sink.notes) [] :=
    ⟨by simp, .inl ⟨kernel, 0, streams, begins.makes synthesizes⟩⟩
  obtain ⟨answers, h', rest, sent, pulled, fair, ⟨fit, goes_on⟩, closes⟩ :=
    supplies.pulls (willing.keeps h₀.out.sink.notes) fillable count addressable
  refine ⟨answers, h', rest, sent, pulled, fair, fit, ?_, fun handle there => ?_,
    fun enough => closes (.inl enough)⟩
  · rcases goes_on with ⟨kernel', submissions, streams', -⟩ | shuts
    · have noted := streams'.station.carries.book.2
      rw [if_neg (by simp [streams'.state]), List.append_nil]
      exact noted
    · rw [if_pos shuts.state]
      exact shuts.shut
  · rcases goes_on with ⟨kernel', submissions, streams', -⟩ | shuts
    · obtain ⟨handle', there', -, idle⟩ := streams'.station.handle
      obtain rfl : handle = handle' := Option.some.inj (there.symm.trans there')
      rw [idle]
      nofun
    · rw [shuts.vacant] at there
      cases there

/-- A picture of two pixels by one, doubled, and a frame that is one sample short. -/
theorem outputs_fit_the_link_upscale :
    let frame (samples : Array UInt16) : Frame := Frame.unpooled 2 1 .rgb48 samples
    let link : Link := ⟨2, 1, .rgb48, ⟨1, 25⟩, ⟨25, 1⟩, .one⟩
    let outLink : Link := { link with width := 4, height := 2 }
    let stage : Stage Simulated Processor (Noted Recorder SinkCall) :=
      .idle (.upscale { scale := 2 }) (.start 1 none) .postflight ⟨.empty, []⟩ .empty
    ∃ answers h' rest, ∃ sent : List Frame, World.pulls 3 ⟨((Host.start stage).configure link).2,
        Queue.mk [frame #[1, 2, 3, 4, 5, 6], frame #[1, 2, 3, 4, 5]] none⟩ =
        (answers, ⟨h', Queue.mk rest none⟩) ∧
      (∀ answer ∈ answers, Outcome.Fair answer) ∧ (∀ frame ∈ sent, frame.Fits outLink) ∧
      h'.out.sink.notes = [] ++ sent.map .offered ++
        (if h'.state = .closed then [.ended] else []) ∧
      (∀ handle, h'.stage.station.session.handle = some handle →
        handle.processor.lane.worker ≠ none) ∧
      (2 < 3 → h'.state = .closed) := by
  intro frame link outLink stage
  have configured : (Host.start stage).configure link =
      (.ok outLink, ((Host.start stage).configure link).2) := by
    subst outLink link stage
    rfl
  exact outputs_fit_the_link Recorder.willing_open rfl (by decide) ⟨rfl, rfl⟩ configured
    (.inl (by decide)) (by decide) 3

/-- Without rows there is nothing to be written, and yet an output does not get through. -/
theorem rowless_link_fails :
    let frame : Frame := Frame.unpooled 4 0 .rgb48 (Array.replicate 12 7)
    let link : Link := ⟨4, 0, .rgb48, ⟨1, 25⟩, ⟨25, 1⟩, .one⟩
    let stage : Stage Simulated Processor (Noted Recorder SinkCall) :=
      .idle (.upscale {}) (.start 1 none) .postflight ⟨.empty, []⟩ .empty
    ∃ h, (Host.start stage).configure link = (.ok link, h) ∧
      (World.pulls 1 ⟨h, Queue.mk [frame] none⟩).1 =
        [.error (.output 0 1 (.bufferTooSmall 12 0))] := by
  intro frame link stage
  subst frame link stage
  exact ⟨_, rfl, rfl⟩

end World

end noted

end FrameRelay
