import FrameRelay.Proofs.Sifting
import FrameRelay.Proofs.Workers

/-! Rejected frames leave no trace. After any history and a configuration that succeeds, the
scripted engine and the simulated one without injected failures are as good as before when they
refuse a frame, in what they answer from then on and in all that can be observed of them in the
end. -/

namespace FrameRelay

namespace Script

theorem knobs_process (frame : Frame) (script : Script) :
    (script.process frame).2.knobs = script.knobs := by
  unfold process
  split
  · rfl
  split <;> rfl

theorem knobs_pop (script : Script) : script.pop.2.knobs = script.knobs := by
  unfold pop
  split <;> rfl

theorem knobs_remaining (script : Script) : script.remaining.2.knobs = script.knobs := by
  unfold remaining
  dsimp only
  split <;> rfl

/-- The same script twice, whose knobs stay as they are while it serves. -/
def service (knobs : Knobs) : ServiceBisimulation Script Unit Script Unit where
  Vacant := Eq
  Serving _ x y := x = y ∧ y.2.knobs = knobs
  process frame alike := by
    obtain ⟨⟨⟩, same⟩ := alike
    exact ⟨_, _, _, rfl, (knobs_process frame _).trans same⟩
  ready alike := by
    obtain ⟨⟨⟩, same⟩ := alike
    exact ⟨_, _, _, rfl, same⟩
  discard alike := by
    obtain ⟨⟨⟩, same⟩ := alike
    exact ⟨_, _, _, rfl, (knobs_pop _).trans same⟩
  pull buffer alike := by
    obtain ⟨⟨⟩, same⟩ := alike
    exact ⟨_, _, _, rfl, (knobs_pop _).trans same⟩
  remaining alike := by
    obtain ⟨⟨⟩, same⟩ := alike
    exact ⟨_, _, _, rfl, (knobs_remaining _).trans same⟩
  endStream alike := by
    obtain ⟨⟨⟩, same⟩ := alike
    exact ⟨rfl, same⟩
  outputSize alike := by
    obtain ⟨⟨⟩, same⟩ := alike
    rfl
  release alike := by
    obtain ⟨⟨⟩, same⟩ := alike
    rfl

/-- What the script computes for a frame that it takes fits the words. -/
def Computable (knobs : Knobs) (frame : Frame) : Prop :=
  frame.pts ∉ knobs.failPts → Fits knobs frame

theorem filters_service (knobs : Knobs) :
    (service knobs).Filters (Computable knobs) fun frame => decide (frame.pts ∈ knobs.failPts) where
  takes alike here fit := by
    obtain ⟨⟨⟩, rfl⟩ := alike
    have taken := of_decide_eq_false fit
    simp only [Engine.process, Script.process, if_neg taken, if_pos (here taken)]
  rejects alike _ unfit := by
    obtain ⟨⟨⟩, rfl⟩ := alike
    simp only [Engine.process, Script.process, if_pos (of_decide_eq_true unfit)]
    exact ⟨_, _, rfl, rfl, rfl, rfl⟩
  same := id

end Script

namespace Simulated

/-- A processor twice that may have counted more submissions here than there. Until its stream ends
it works on frames of one size and injects no failure. -/
inductive Serves (width height : Nat) (stopped : Bool) :
    Processor × Simulated → Processor × Simulated → Prop where
  | intro (p : Processor) (engine : Simulated) (here there : Nat)
    (works : stopped = false → p.Works width height ∧ p.rejectEvery = none) :
    Serves width height stopped ({ p with submissions := here }, engine)
      ({ p with submissions := there }, engine)

variable {width height : Nat} {stopped : Bool} {p p' : Processor} {e e' : Simulated}

theorem Serves.refuses {frame : Frame} (alike : Serves width height false (p, e) (p', e'))
    (refused : unfit width height frame = true) : ∃ (cause : EngineError) (q q' : _),
      (cause.isFault = false ↔ Addressable width height frame) ∧
      Engine.process frame p e = (.error cause, q) ∧
      Engine.process frame p' e' = (.error cause, q') ∧
      Serves width height false q q' ∧ Serves width height false q (p', e') := by
  obtain ⟨p, e, here, there, works⟩ := alike
  obtain ⟨fine, reliable⟩ := works rfl
  obtain ⟨cause, orderly, refuses⟩ := fine.refuses reliable refused
  refine ⟨cause, ({ p with submissions := here + 1 }, e),
    ({ p with submissions := there + 1 }, e), orderly, ?_, ?_, ⟨p, e, _, _, works⟩,
    ⟨p, e, _, _, works⟩⟩
  all_goals
    simp only [Engine.process, refuses]
    rw [gather_of_gathered]
    exact fine.gathered

theorem Serves.takes {frame : Frame} (alike : Serves width height false (p, e) (p', e'))
    (fit : unfit width height frame = false) : ∃ q q',
      Engine.process frame p e = (.ok (), q) ∧ Engine.process frame p' e' = (.ok (), q') ∧
      Serves width height false q q' := by
  obtain ⟨p, e, here, there, works⟩ := alike
  obtain ⟨fine, reliable⟩ := works rfl
  obtain ⟨kernel, outputs, works', takes⟩ := fine.takes reliable fit
  refine ⟨({ p.after kernel outputs with submissions := here + 1 }, e),
    ({ p.after kernel outputs with submissions := there + 1 }, e), ?_, ?_,
    ⟨p.after kernel outputs, e, _, _, fun _ => ⟨works', reliable⟩⟩⟩
  all_goals
    simp only [Engine.process, takes]
    rw [gather_of_gathered]
    rfl

/-- The same engine twice, whose processors differ in their count of submissions only. -/
def service (width height : Nat) : ServiceBisimulation Simulated Processor Simulated Processor where
  Vacant := Eq
  Serving := Serves width height
  process frame alike := by
    cases fit : unfit width height frame with
    | true =>
      obtain ⟨cause, q, q', _, answer, answer', serves, _⟩ := alike.refuses fit
      rw [answer, answer']
      exact ⟨_, _, _, serves⟩
    | false =>
      obtain ⟨q, q', answer, answer', serves⟩ := alike.takes fit
      rw [answer, answer']
      exact ⟨_, _, _, serves⟩
  ready alike := by
    obtain ⟨p, _, here, there, works⟩ := alike
    have works' streaming := And.imp_left Processor.Works.collect (works streaming)
    exact ⟨_, _, _, p.collect, _, here, there, works'⟩
  discard alike := by
    obtain ⟨p, _, here, there, works⟩ := alike
    have works' streaming := And.imp Processor.Works.pop p.rejectEvery_pop.trans (works streaming)
    simp only [Engine.discard, Processor.pop_submissions]
    exact ⟨_, _, _, p.pop.2, _, here, there, works'⟩
  pull buffer alike := by
    obtain ⟨p, _, here, there, works⟩ := alike
    have works' streaming := And.imp Processor.Works.pop p.rejectEvery_pop.trans (works streaming)
    simp only [Engine.pull, Processor.pop_submissions]
    exact ⟨_, _, _, p.pop.2, _, here, there, works'⟩
  remaining alike := by
    obtain ⟨p, _, here, there, works⟩ := alike
    have works' streaming := And.imp_left Processor.Works.collect (works streaming)
    exact ⟨_, _, _, p.collect, _, here, there, works'⟩
  endStream {_ e _ _} alike := by
    obtain ⟨p, _, here, there, works⟩ := alike
    simp only [Engine.endStream, Processor.endStream_submissions]
    exact ⟨(e.gather p.endStream).1, _, here, there, fun streaming => nomatch streaming⟩
  outputSize alike := by
    cases alike
    rfl
  release alike := by
    cases alike
    rfl

theorem filters_service (width height : Nat) :
    (service width height).Filters (Addressable width height) (unfit width height) where
  takes alike _ fit := by
    obtain ⟨q, q', answer, _⟩ := Serves.takes alike fit
    rw [answer]
  rejects alike here unfit := by
    obtain ⟨cause, q, q', orderly, answer, _, _, serves⟩ := Serves.refuses alike unfit
    exact ⟨cause, q, answer, orderly.mpr here, serves⟩
  same := id

end Simulated

theorem Host.finish_ne_submission {ε π σ : Type} [Engine ε π] [Sink σ] (h : Host ε π σ) (pts : Int)
    (cause : EngineError) : h.finish.1 ≠ .error (.submission pts cause) := by
  have finishes := h.finishes_finish
  generalize h.finish = answer at finishes ⊢
  cases finishes with
  | @failed late stage drained => cases late <;> nofun
  | @closed report stage drained =>
    unfold Outlet.endStream
    split
    · nofun
    · rcases Sink.finish stage.station.out.sink with ⟨_ | _, sink⟩ <;> nofun

namespace World
variable {σ ρ : Type} [Sink σ] [Source ρ]

end World

end FrameRelay
