import FrameRelay.Proofs.Lifecycle

/-! What a host keeps over its whole life: the options of its stage and the policy of its drains.
The spacing of the open stream is only ever set by a stage that interpolates. -/

namespace FrameRelay
variable {ε π σ ρ κ : Type} [Engine ε π]

/-- Whether the stage gives its stream a spacing of its own. -/
def StageOptions.respaces : StageOptions → Bool
  | .interpolation _ => true
  | _ => false

namespace Stage

theorem retiming_configure (link : Link) {stage : Stage ε π σ}
    (plain : stage.options.respaces = false) :
    (stage.configure link).2.retiming = stage.retiming := by
  rcases stage with ⟨_ | _ | _ | _ | o, station, retiming⟩
  · rfl
  · rfl
  · cases plain
  · rfl
  · simp only [configure, configureStabilization, clearPrevious, openStream]
    rcases station.clearPrevious.openStream o.settings link with ⟨_ | _, station'⟩
    · rfl
    · dsimp only
      split <;> rfl

/-- What a stage goes by between two configurations. -/
def plan (stage : Stage ε π σ) : StageOptions × Option Retiming := (stage.options, stage.retiming)

theorem plan_accept [Sink σ] (frame : Frame) (stage : Stage ε π σ) :
    (stage.accept frame).2.plan = stage.plan := by
  simp only [accept]
  split <;> rfl

end Stage

namespace Host

theorem options_configure (link : Link) (h : Host ε π σ) :
    (h.configure link).2.stage.options = h.stage.options := by
  have same := (h.stage.configures_configure link).2
  have links := h.links_configure link
  generalize h.configure link = answer at links ⊢
  cases links with
  | mismatched cause => rfl
  | refused configured =>
    rw [configured] at same
    exact same
  | linked configured =>
    rw [configured] at same
    exact same

theorem retiming_configure (link : Link) {h : Host ε π σ}
    (plain : h.stage.options.respaces = false) :
    (h.configure link).2.stage.retiming = h.stage.retiming := by
  have same := Stage.retiming_configure link plain
  have links := h.links_configure link
  generalize h.configure link = answer at links ⊢
  cases links with
  | mismatched cause => rfl
  | refused configured =>
    rw [configured] at same
    exact same
  | linked configured =>
    rw [configured] at same
    exact same

variable [Sink σ]

theorem plan_takeFrame (frame : Frame) (h : Host ε π σ) :
    (h.takeFrame frame).2.stage.plan = h.stage.plan := by
  obtain ⟨failures, taken⟩ := takeFrame_eq frame h
  rw [taken]
  exact h.stage.plan_accept frame

theorem plan_finish (h : Host ε π σ) : h.finish.2.stage.plan = h.stage.plan := by
  have same : h.stage.drain.2.plan = h.stage.plan := rfl
  have finishes := h.finishes_finish
  generalize h.finish = answer at finishes ⊢
  cases finishes with
  | failed drained =>
    rw [drained] at same
    exact same
  | closed drained =>
    rw [drained] at same
    exact same

theorem plan_request [Source ρ] (h : Host ε π σ) (source : ρ) :
    (h.request source).2.1.stage.plan = h.stage.plan := by
  have pulls := h.pulls_request source
  generalize h.request source = answer at pulls ⊢
  cases pulls with
  | ended state => rfl
  | repeated state => rfl
  | faulted pulling supplied => rfl
  | took pulling supplied => exact plan_takeFrame _ _
  | finished pulling supplied => exact plan_finish _

end Host

namespace World
variable [Sink σ] [Source ρ] (act : κ → Surroundings ε σ ρ → Surroundings ε σ ρ)

theorem options_perform (w : World ε π σ ρ) (call : Call κ) :
    (w.perform act call).2.host.stage.options = w.host.stage.options := by
  cases call with
  | configure link => exact w.host.options_configure link
  | request => exact congrArg Prod.fst (w.host.plan_request w.source)
  | close => rfl
  | outside event => rfl

theorem options_run (w : World ε π σ ρ) (calls : List (Call κ)) :
    (w.run act calls).host.stage.options = w.host.stage.options :=
  run_invariant act (fun w' call same => (options_perform act w' call).trans same) rfl calls

theorem retiming_perform {w : World ε π σ ρ} (plain : w.host.stage.options.respaces = false)
    (call : Call κ) : (w.perform act call).2.host.stage.retiming = w.host.stage.retiming := by
  cases call with
  | configure link => exact Host.retiming_configure link plain
  | request => exact congrArg Prod.snd (w.host.plan_request w.source)
  | close => rfl
  | outside event => rfl

theorem retiming_run {w : World ε π σ ρ} (plain : w.host.stage.options.respaces = false)
    (calls : List (Call κ)) :
    (w.run act calls).host.stage.retiming = w.host.stage.retiming := by
  induction calls generalizing w with
  | nil => rfl
  | cons call rest ih =>
    have plain' : (w.perform act call).2.host.stage.options.respaces = false :=
      (congrArg StageOptions.respaces (options_perform act w call)).trans plain
    exact (ih plain').trans (retiming_perform act plain call)

theorem policy_perform (w : World ε π σ ρ) (call : Call κ) :
    (w.perform act call).2.host.station.session.policy = w.host.station.session.policy := by
  rcases advances_perform act w call with advances | ⟨event, rfl⟩
  · exact advances.policy
  · rfl

theorem policy_run (w : World ε π σ ρ) (calls : List (Call κ)) :
    (w.run act calls).host.station.session.policy = w.host.station.session.policy :=
  run_invariant act (fun w' call same => (policy_perform act w' call).trans same) rfl calls

end World

end FrameRelay
