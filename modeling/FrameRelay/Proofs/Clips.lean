import FrameRelay.Proofs.Opening
import FrameRelay.Proofs.Sifting
import Mathlib.Data.Nat.Basic
import Mathlib.Algebra.Order.Group.Nat

/-! A clip pulled through a host. The frames of a clip are all of one size, without padding and with
all their samples, so that only the fault injection keeps one from becoming a picture. -/

namespace FrameRelay
open Simulated (Processor)

namespace Clip

/-- The clip when so many of its frames are taken. -/
def after (index : Nat) (clip : Clip) : Clip := { clip with index }

/-- One of its frames. -/
def frame (clip : Clip) (index : Nat) : Frame := (clip.render index .empty).1

theorem tight_frame (clip : Clip) (index : Nat) : (clip.frame index).Tight :=
  ⟨rfl, Array.size_ofFn⟩

theorem pictureOf_frame {clip : Clip} (rows : 0 < clip.height) (index : Nat) :
    ∃ picture, Simulated.pictureOf (clip.frame index) = .ok picture ∧
      picture.Packed clip.width clip.height ∧ picture.pts = index * ticks := by
  have needed : Simulated.neededSamples (3 * clip.width) clip.height (3 * clip.width) =
      3 * clip.width * clip.height :=
    Simulated.neededSamples_of_fillable (show clip.link.Fillable from .inl rows)
  have fit : Simulated.unfit clip.width clip.height (clip.frame index) = false := by
    have size := (clip.tight_frame index).size_eq
    simp only [Simulated.unfit, size]
    simp [frame, render, Pool.wrap, Pool.adopt, Frame.unpooled, Frame.rowSize, needed]
  obtain ⟨picture, made, -, pts⟩ := Simulated.pictureOf_of_fit fit
  exact ⟨picture, made, Simulated.packed_pictureOf made, pts⟩

theorem next_of_lt {clip : Clip} {index : Nat} (more : index < clip.total) (pool : Pool) :
    Source.next (clip.after index) pool =
      (.ok (some (clip.frame index)), clip.after (index + 1), ⟨pool.live + 1⟩) := by
  show (if clip.total ≤ index then _ else _) = _
  rw [if_neg (by omega)]
  rfl

theorem next_of_total (clip : Clip) (pool : Pool) :
    Source.next (clip.after clip.total) pool = (.ok none, clip.after clip.total, pool) := by
  show (if clip.total ≤ clip.total then _ else _) = _
  rw [if_pos (Nat.le_refl _)]

end Clip

namespace Channel
variable {σ : Type}

/-- Whether the fault injection hits a submission. -/
def hits (c : Channel σ) (submission : Nat) : Bool :=
  match c.rejectEvery with
  | some n => submission % n == 0
  | none => false

/-- The submissions that are hit among the first ones. -/
def failures (c : Channel σ) (submissions : Nat) : Nat :=
  (c.rejectEvery.map (submissions / ·)).getD 0

theorem failures_succ (c : Channel σ) (submissions : Nat) :
    c.failures (submissions + 1) =
      c.failures submissions + if c.hits (submissions + 1) then 1 else 0 := by
  unfold failures hits
  cases c.rejectEvery with
  | none => rfl
  | some n =>
    show (submissions + 1) / n = submissions / n + _
    rw [Nat.succ_div]
    simp [Nat.dvd_iff_mod_eq_zero]

theorem examine_of_hit {c : Channel σ} {submissions : Nat} (hit : c.hits (submissions + 1) = true)
    (kernel : Kernel) (frame : Frame) :
    ∃ cause, c.examine kernel submissions frame = .error cause ∧ cause.isFault = false := by
  have injected : (c.processor kernel (submissions + 1)).injectsFailure = true := hit
  rw [examine, Processor.examine, if_pos injected]
  exact ⟨_, rfl, rfl⟩

theorem examine_of_miss {c : Channel σ} {submissions : Nat}
    (missed : c.hits (submissions + 1) = false) {clip : Clip} (width : c.width = clip.width)
    (height : c.height = clip.height) (kernel : Kernel) (index : Nat) :
    c.examine kernel submissions (clip.frame index) = Simulated.pictureOf (clip.frame index) := by
  have spared : (c.processor kernel (submissions + 1)).injectsFailure = false := missed
  have shape : ¬ ((clip.frame index).width ≠ (c.processor kernel (submissions + 1)).width ∨
      (clip.frame index).height ≠ (c.processor kernel (submissions + 1)).height) := by
    simp only [processor, width, height]
    simp [Clip.frame, Clip.render, Pool.wrap, Pool.adopt, Frame.unpooled]
  rw [examine, Processor.examine, if_neg (by simp [spared]), if_neg shape]

end Channel

namespace Host
variable {ε π σ : Type} [Engine ε π] [Sink σ]

theorem request_clip {h : Host ε π σ} (streaming : h.state = .streaming) {clip : Clip}
    {index : Nat} (more : index < clip.total) :
    h.request (clip.after index) =
      let (answer, h') := (h.withPool ⟨h.out.pool.live + 1⟩).takeFrame (clip.frame index)
      (answer, h', clip.after (index + 1)) := by
  simp only [request, streaming, Clip.next_of_lt more]
  rfl

theorem request_clip_end {h : Host ε π σ} (streaming : h.state = .streaming) (clip : Clip) :
    h.request (clip.after clip.total) =
      let (answer, h') := (h.withPool h.out.pool).finish
      (answer, h', clip.after clip.total) := by
  simp only [request, streaming, Clip.next_of_total]
  rfl

/-- The run goes on after such an answer. -/
def Passes (policy : FailurePolicy) (answer : Outcome Flow) : Prop :=
  answer = .ok .more ∨ ∃ cause, answer = .error cause ∧ cause.isRecoverable = true ∧
    policy = .carryOn

variable {ρ : Type} [Source ρ]

theorem pullAll_of_passes {policy : FailurePolicy} {h h' : Host ε π σ} {source source' : ρ}
    {answer : Outcome Flow} (requested : h.request source = (answer, h', source'))
    (passes : Passes policy answer) (left requests : Nat) :
    h.pullAll policy (left + 1) requests source =
      h'.pullAll policy left (requests + 1) source' := by
  rcases passes with rfl | ⟨cause, rfl, recoverable, rfl⟩
  · simp only [pullAll, requested]
  · simp only [pullAll, requested, recoverable]
    rfl

theorem pullAll_of_error {policy : FailurePolicy} {h h' : Host ε π σ} {source source' : ρ}
    {cause : StageError} (requested : h.request source = (.error cause, h', source'))
    (stops : policy = .abort) (left requests : Nat) :
    h.pullAll policy (left + 1) requests source = (.error cause, h', source') := by
  subst stops
  simp only [pullAll, requested]
  simp

theorem pullAll_of_ended {policy : FailurePolicy} {h h' : Host ε π σ} {source source' : ρ}
    (requested : h.request source = (.ok .ended, h', source')) (left requests : Nat) :
    h.pullAll policy (left + 1) requests source = (.ok (requests + 1), h', source') := by
  simp only [pullAll, requested]

theorem run_of_pullAll {policy : FailurePolicy} {h h' : Host ε π σ} {source source' : ρ}
    {result : Outcome Nat}
    (pulled : h.pullAll policy (Source.left source + 1) 0 source = (result, h', source')) :
    h.run policy source =
      (result.map fun requests => .ofHost requests h'.stats, h', source') := by
  simp only [run, pulled]

/-- What each pull of a clip keeps, as long as the run goes on, holds of the host after all of
them. -/
theorem pullAll_advances {policy : FailurePolicy} {clip : Clip} {stop : Nat}
    {keeps : Nat → Host ε π σ → Prop}
    (step : ∀ index h, index < stop → keeps index h → ∃ answer h',
      h.request (clip.after index) = (answer, h', clip.after (index + 1)) ∧
        Passes policy answer ∧ keeps (index + 1) h')
    (left : Nat) {h : Host ε π σ} (start : keeps 0 h) :
    ∃ h', keeps stop h' ∧ h.pullAll policy (left + stop) 0 (clip.after 0) =
      h'.pullAll policy left stop (clip.after stop) := by
  have upTo (done : Nat) (within : done ≤ stop) : ∃ h', keeps done h' ∧
      h.pullAll policy (left + stop) 0 (clip.after 0) =
        h'.pullAll policy (left + (stop - done)) done (clip.after done) := by
    induction done with
    | zero => exact ⟨h, start, rfl⟩
    | succ done ih =>
      obtain ⟨h₁, here, pulled⟩ := ih (by omega)
      obtain ⟨answer, h₂, requested, passes, there⟩ := step done h₁ (by omega) here
      refine ⟨h₂, there, ?_⟩
      have more : left + (stop - done) = left + (stop - (done + 1)) + 1 := by omega
      rw [pulled, more, pullAll_of_passes requested passes]
  obtain ⟨h', there, pulled⟩ := upTo stop (Nat.le_refl _)
  rw [Nat.sub_self, Nat.add_zero] at pulled
  exact ⟨h', there, pulled⟩

theorem run_advances {policy : FailurePolicy} {clip : Clip} {keeps : Nat → Host ε π σ → Prop}
    {ends : Host ε π σ → Prop} (fresh : clip.index = 0)
    (step : ∀ index h, index < clip.total → keeps index h → ∃ answer h',
      h.request (clip.after index) = (answer, h', clip.after (index + 1)) ∧
        Passes policy answer ∧ keeps (index + 1) h')
    (finish : ∀ h, keeps clip.total h → ∃ h',
      h.request (clip.after clip.total) = (.ok .ended, h', clip.after clip.total) ∧ ends h')
    {h : Host ε π σ} (start : keeps 0 h) :
    ∃ h', h.run policy clip =
      (.ok (.ofHost (clip.total + 1) h'.stats), h', clip.after clip.total) ∧ ends h' := by
  obtain ⟨h₁, there, pulled⟩ := pullAll_advances step 1 start
  obtain ⟨h', ended, shut⟩ := finish h₁ there
  have begun : clip.after 0 = clip := by
    rw [Clip.after, ← fresh]
  have all : 1 + clip.total = Source.left clip + 1 := by
    show _ = clip.total - clip.index + 1
    omega
  rw [pullAll_of_ended ended, begun, all] at pulled
  exact ⟨h', run_of_pullAll pulled, shut⟩

end Host

end FrameRelay
