import FrameRelay.Proofs.Emission
import FrameRelay.Proofs.History
import FrameRelay.Proofs.Steps

/-! The slot of the last frame. Only a stage that synthesizes fills it, and it is empty as soon as
the stream is drained or given up, until frames of the next stream arrive. -/

namespace FrameRelay
variable {ε π σ ρ κ : Type} [Engine ε π]

namespace Station

theorem previous_configures {link : Link} {succeeds : Bool} {s s' : Station ε π σ}
    (configures : s.Configures link succeeds s')
    (empty : s.previous = none) : s'.previous = none := by
  induction configures with
  | left s => exact empty
  | opened settings s =>
    exact (openStream_apart settings link s).2.trans ((previous_close s).trans empty)
  | cleared _ ih => exact ih rfl

theorem previous_submit (frame : Frame) (s : Station ε π σ) :
    (s.submit frame).2.previous = s.previous := by
  rcases s with ⟨engine, ⟨_ | handle, settings, policy⟩, previous, out⟩
  · rfl
  · simp only [submit]
    rcases Lease.submit frame ⟨engine, handle⟩ with ⟨_ | _, l⟩ <;> rfl

theorem previous_passThrough [Sink σ] (frame : Frame) (s : Station ε π σ) :
    (s.passThrough frame).2.previous = s.previous := by
  have submitted := previous_submit frame s
  simp only [passThrough]
  generalize s.submit frame = answer at submitted ⊢
  rcases answer with ⟨_ | _, s'⟩
  · exact submitted
  · exact (ignoreOutput_apart s').2.trans submitted

end Station

namespace Stage

/-- Only a stage that synthesizes fills the slot. -/
def Tidy (stage : Stage ε π σ) : Prop :=
  stage.options.synthesizes = false → stage.station.previous = none

theorem previous_configure (link : Link) {stage : Stage ε π σ}
    (empty : stage.station.previous = none) :
    (stage.configure link).2.station.previous = none :=
  Station.previous_configures (stage.configures_configure link).1 empty

theorem tidy_configure (link : Link) {stage : Stage ε π σ} (tidy : stage.Tidy) :
    (stage.configure link).2.Tidy := by
  intro estimates
  rw [(stage.configures_configure link).2] at estimates
  exact previous_configure link (tidy estimates)

theorem previous_close {stage : Stage ε π σ} (tidy : stage.Tidy) :
    stage.close.station.previous = none := by
  cases synthesizes : stage.options.synthesizes with
  | false =>
    simp only [close, synthesizes, Bool.false_eq_true, if_false, Station.previous_close]
    exact tidy synthesizes
  | true =>
    simp only [close, synthesizes, if_true]
    rfl

variable [Sink σ]

theorem tidy_accept (frame : Frame) {stage : Stage ε π σ} (tidy : stage.Tidy) :
    (stage.accept frame).2.Tidy := by
  cases synthesizes : stage.options.synthesizes with
  | false =>
    simp only [accept, synthesizes, Bool.false_eq_true, if_false]
    intro _
    exact (Station.previous_passThrough frame stage.station).trans (tidy synthesizes)
  | true =>
    simp only [accept, synthesizes, if_true]
    intro estimates
    exact absurd (synthesizes.symm.trans estimates) Bool.noConfusion

theorem previous_drain {stage : Stage ε π σ} (tidy : stage.Tidy) :
    stage.drain.2.station.previous = none := by
  cases synthesizes : stage.options.synthesizes with
  | false =>
    simp only [drain, synthesizes, Bool.false_eq_true, if_false]
    exact (Station.drainIgnoring_apart stage.station).2.trans (tidy synthesizes)
  | true =>
    simp only [drain, synthesizes, if_true]
    rfl

end Stage

namespace Host

/-- The slot is empty where it has to be. -/
structure Tidy (h : Host ε π σ) : Prop where
  stage : h.stage.Tidy
  final : h.state = .closed ∨ h.state = .failed → h.stage.station.previous = none

theorem tidy_configure (link : Link) {h : Host ε π σ} (tidy : h.Tidy) :
    (h.configure link).2.Tidy := by
  have stays := Stage.tidy_configure link tidy.stage
  have empty := fun final => Stage.previous_configure link (tidy.final final)
  have links := h.links_configure link
  generalize h.configure link = answer at links ⊢
  cases links with
  | mismatched cause => exact tidy
  | refused configured =>
    rw [configured] at stays empty
    exact ⟨stays, empty⟩
  | linked configured =>
    rw [configured] at stays
    refine ⟨stays, ?_⟩
    rintro (closed | failed)
    · cases closed
    · cases failed

theorem tidy_close {h : Host ε π σ} (tidy : h.Tidy) : h.close.Tidy :=
  ⟨fun _ => Stage.previous_close tidy.stage, fun _ => Stage.previous_close tidy.stage⟩

variable [Sink σ]

theorem previous_finish {h : Host ε π σ} (tidy : h.Tidy) :
    h.finish.2.stage.station.previous = none := by
  have empty := Stage.previous_drain tidy.stage
  have finishes := h.finishes_finish
  generalize h.finish = answer at finishes ⊢
  cases finishes with
  | failed drained =>
    rw [drained] at empty
    exact empty
  | closed drained =>
    rw [drained] at empty
    exact empty

variable [Source ρ]

theorem tidy_request {h : Host ε π σ} (tidy : h.Tidy) (source : ρ) :
    (h.request source).2.1.Tidy := by
  have pooled (pool : Pool) : (h.withPool pool).Tidy := ⟨tidy.stage, tidy.final⟩
  have pulls := h.pulls_request source
  generalize h.request source = answer at pulls ⊢
  cases pulls with
  | ended state => exact tidy
  | repeated state => exact tidy
  | faulted pulling supplied => exact pooled _
  | took pulling supplied =>
    obtain ⟨failures, taken⟩ := takeFrame_eq _ (h.withPool _)
    rw [taken]
    exact ⟨Stage.tidy_accept _ tidy.stage, fun final => absurd final (not_or.mpr pulling)⟩
  | finished pulling supplied =>
    exact ⟨fun _ => previous_finish (pooled _), fun _ => previous_finish (pooled _)⟩

theorem previous_request {h : Host ε π σ} (tidy : h.Tidy) {source : ρ}
    (drained : (Source.next source h.out.pool).1 = .ok none) :
    (h.request source).2.1.stage.station.previous = none := by
  have pooled (pool : Pool) : (h.withPool pool).Tidy := ⟨tidy.stage, tidy.final⟩
  have pulls := h.pulls_request source
  generalize h.request source = answer at pulls ⊢
  cases pulls with
  | ended state => exact tidy.final (.inl state)
  | repeated state => exact tidy.final (.inr state)
  | faulted pulling supplied =>
    rw [supplied] at drained
    cases drained
  | took pulling supplied =>
    rw [supplied] at drained
    cases drained
  | finished pulling supplied => exact previous_finish (pooled _)

end Host

namespace World
variable [Sink σ] [Source ρ] (act : κ → Surroundings ε σ ρ → Surroundings ε σ ρ)

theorem tidy_perform (w : World ε π σ ρ) (call : Call κ) (tidy : w.host.Tidy) :
    (w.perform act call).2.host.Tidy := by
  cases call with
  | configure link => exact Host.tidy_configure link tidy
  | request => exact Host.tidy_request tidy w.source
  | close => exact Host.tidy_close tidy
  | outside event => exact ⟨tidy.stage, tidy.final⟩

theorem tidy_run {w : World ε π σ ρ} (tidy : w.host.Tidy) (calls : List (Call κ)) :
    (w.run act calls).host.Tidy :=
  run_invariant act (tidy_perform act) tidy calls

end World

end FrameRelay
