import FrameRelay.Engine.Scripted
import FrameRelay.Proofs.Tenure
import Mathlib.Data.List.Count

/-! The life cycle of processors. What an engine is asked over any history of a host runs through
creation, service, end and release again and again, so its processors follow each other, each ended
once and then let go once, and the counters of the scripted engine balance between any two calls. -/

namespace FrameRelay

/-- Where the life of processors stands: there is none, there is one whose stream is open, or one
whose stream is over. -/
inductive Phase where
  | vacant
  | streaming
  | stopped
  deriving DecidableEq

namespace Phase

/-- Where one call leads, if it has its place there at all. -/
def after? : Phase → ProcessorCall → Option Phase
  | .vacant, .created => some .streaming
  | .streaming, .processed _ _ => some .streaming
  | .streaming, .asked => some .streaming
  | .streaming, .ended => some .stopped
  | .stopped, .asked => some .stopped
  | .stopped, .released => some .vacant
  | _, _ => none

/-- Where a list of calls leads, if each has its place. -/
def follow? (phase : Phase) (calls : List ProcessorCall) : Option Phase :=
  calls.foldlM after? phase

@[simp] theorem follow?_nil (phase : Phase) : phase.follow? [] = some phase := rfl

theorem follow?_cons (phase : Phase) (call : ProcessorCall) (calls : List ProcessorCall) :
    phase.follow? (call :: calls) = (phase.after? call).bind (·.follow? calls) := rfl

theorem follow?_append (phase : Phase) (first second : List ProcessorCall) :
    phase.follow? (first ++ second) = (phase.follow? first).bind (·.follow? second) :=
  List.foldlM_append

/-- Processors that are alive. -/
def alive : Phase → Nat
  | .vacant => 0
  | .streaming | .stopped => 1

/-- Streams that are over while their processors are alive. -/
def late : Phase → Nat
  | .vacant | .streaming => 0
  | .stopped => 1

/-- Calls that lead from one phase to another create, end and release in step. -/
theorem count_of_follow? {calls : List ProcessorCall} {phase last : Phase}
    (led : phase.follow? calls = some last) :
    phase.alive + calls.count .created = last.alive + calls.count .released ∧
      phase.late + calls.count .ended = last.late + calls.count .released := by
  induction calls generalizing phase with
  | nil =>
    cases led
    simp
  | cons call rest ih =>
    rw [follow?_cons] at led
    obtain ⟨next, step, rest_⟩ := Option.bind_eq_some_iff.mp led
    obtain ⟨made, ended⟩ := ih rest_
    cases phase <;> cases call <;> cases step <;> simp [alive, late] at made ended ⊢ <;> omega

theorem place_of_follow? {phase last : Phase} {before rest : List ProcessorCall}
    {call : ProcessorCall} (led : phase.follow? (before ++ call :: rest) = some last) :
    ∃ here next, phase.follow? before = some here ∧ here.after? call = some next := by
  rw [follow?_append] at led
  obtain ⟨here, first, later⟩ := Option.bind_eq_some_iff.mp led
  rw [follow?_cons] at later
  obtain ⟨next, step, _⟩ := Option.bind_eq_some_iff.mp later
  exact ⟨here, next, first, step⟩

theorem count_of_created {last : Phase} {before rest : List ProcessorCall}
    (led : vacant.follow? (before ++ .created :: rest) = some last) :
    before.count .ended = before.count .created ∧
      before.count .released = before.count .created := by
  obtain ⟨here, next, first, step⟩ := place_of_follow? led
  obtain ⟨made, ended⟩ := count_of_follow? first
  cases here <;> cases step
  simp only [alive, late] at made ended
  omega

theorem count_of_processed {last : Phase} {before rest : List ProcessorCall} {frame : Frame}
    {taken : Bool} (led : vacant.follow? (before ++ .processed frame taken :: rest) = some last) :
    before.count .created = before.count .ended + 1 ∧
      before.count .released = before.count .ended := by
  obtain ⟨here, next, first, step⟩ := place_of_follow? led
  obtain ⟨made, ended⟩ := count_of_follow? first
  cases here <;> cases step
  simp only [alive, late] at made ended
  omega

end Phase

namespace Tenure
variable {ε π : Type} [Engine ε π]

def phase : Tenure π → Phase
  | .vacant => .vacant
  | .held false _ => .streaming
  | .held true _ => .stopped

/-- An engine with notes moves along a tenure as its notes say. -/
theorem follow?_of_step {s s' : Tenure π × Noted ε ProcessorCall} (step : Step s s') :
    ∃ calls, s'.2.notes = s.2.notes ++ calls ∧ s.1.phase.follow? calls = some s'.1.phase := by
  cases step with
  | refused spec e answer =>
    simp only [Engine.create] at answer
    generalize Engine.create spec e.inner = inner at answer
    rcases inner with ⟨_ | _, _⟩ <;> cases answer
    exact ⟨[], by simp, rfl⟩
  | created spec e answer =>
    simp only [Engine.create] at answer
    generalize Engine.create spec e.inner = inner at answer
    rcases inner with ⟨_ | _, _⟩ <;> cases answer
    exact ⟨[.created], rfl, rfl⟩
  | processed frame p e =>
    simp only [Engine.process]
    rcases Engine.process frame p e.inner with ⟨_ | _, p', inner⟩
    · exact ⟨[.processed frame false], rfl, rfl⟩
    · exact ⟨[.processed frame true], rfl, rfl⟩
  | ready stopped p e => exact ⟨[.asked], rfl, by cases stopped <;> rfl⟩
  | discarded stopped p e => exact ⟨[.asked], rfl, by cases stopped <;> rfl⟩
  | pulled buffer stopped p e => exact ⟨[.asked], rfl, by cases stopped <;> rfl⟩
  | remaining stopped p e => exact ⟨[.asked], rfl, by cases stopped <;> rfl⟩
  | ended p e => exact ⟨[.ended], rfl, rfl⟩
  | released p e => exact ⟨[.released], rfl, rfl⟩

theorem follow?_of_path {s s' : Tenure π × Noted ε ProcessorCall} (path : Path s s') :
    ∃ calls, s'.2.notes = s.2.notes ++ calls ∧ s.1.phase.follow? calls = some s'.1.phase := by
  induction path with
  | refl => exact ⟨[], by simp, rfl⟩
  | tail _ step ih =>
    obtain ⟨first, noted, led⟩ := ih
    obtain ⟨second, noted', led'⟩ := follow?_of_step step
    refine ⟨first ++ second, by rw [noted', noted, List.append_assoc], ?_⟩
    rw [Phase.follow?_append, led]
    exact led'

end Tenure

namespace Script

/-- How often the script was asked to create, to end and to let go. -/
def counters (script : Script) : Nat × Nat × Nat :=
  (script.created, script.endStreamCalls, script.destroyed)

theorem counters_process (frame : Frame) (script : Script) :
    (script.process frame).2.counters = script.counters := by
  unfold process
  split
  · rfl
  split <;> rfl

theorem counters_pop (script : Script) : script.pop.2.counters = script.counters := by
  unfold pop
  split <;> rfl

theorem counters_remaining (script : Script) :
    script.remaining.2.counters = script.counters := by
  unfold remaining
  dsimp only
  split <;> rfl

/-- The counters of a script with notes, counted from those of `start`, are those of its notes. -/
def Tallies (start : Script) (s : Noted Script ProcessorCall) : Prop :=
  s.inner.counters = (start.created + s.notes.count .created,
    start.endStreamCalls + s.notes.count .ended, start.destroyed + s.notes.count .released)

theorem tallies_add {start : Script} {s : Noted Script ProcessorCall} (tallies : start.Tallies s)
    {inner : Script} (same : inner.counters = s.inner.counters) {note : ProcessorCall}
    (plain : note ≠ .created ∧ note ≠ .ended ∧ note ≠ .released) :
    start.Tallies (s.add inner note) := by
  obtain ⟨made, ended, gone⟩ := plain
  simpa only [Tallies, Noted.add, List.count_append, List.count_singleton, beq_iff_eq, made,
    ended, gone, if_false, Nat.add_zero] using same.trans tallies

theorem tallies_of_step {start : Script} {s s' : Tenure Unit × Noted Script ProcessorCall}
    (step : Tenure.Step s s') (tallies : start.Tallies s.2) : start.Tallies s'.2 := by
  cases step with
  | refused spec e answer =>
    simp only [Engine.create, create] at answer
    cases fails : e.inner.knobs.failCreate <;> simp only [fails] at answer <;> cases answer
    exact tallies
  | created spec e answer =>
    simp only [Engine.create, create] at answer
    cases fails : e.inner.knobs.failCreate <;> simp only [fails] at answer <;> cases answer
    simp_all [Tallies, counters, Noted.add, Nat.add_assoc]
  | processed frame p e =>
    have same := counters_process frame e.inner
    simp only [Engine.process]
    generalize e.inner.process frame = answer at same ⊢
    rcases answer with ⟨_ | _, inner⟩ <;> exact tallies_add tallies same (by simp)
  | ready stopped p e => exact tallies_add tallies rfl (by simp)
  | discarded stopped p e => exact tallies_add tallies (counters_pop e.inner) (by simp)
  | pulled buffer stopped p e => exact tallies_add tallies (counters_pop e.inner) (by simp)
  | remaining stopped p e => exact tallies_add tallies (counters_remaining e.inner) (by simp)
  | ended p e => simp_all [Tallies, counters, Noted.add, Engine.endStream, Nat.add_assoc]
  | released p e => simp_all [Tallies, counters, Noted.add, Engine.release, Nat.add_assoc]

theorem tallies_of_path {start : Script} {s s' : Tenure Unit × Noted Script ProcessorCall}
    (path : Tenure.Path s s') (tallies : start.Tallies s.2) : start.Tallies s'.2 := by
  induction path with
  | refl => exact tallies
  | tail _ step ih => exact tallies_of_step step ih

end Script

section station
variable {ε π σ ρ κ : Type}

namespace Station

/-- Where the life of the processor of a station stands. -/
def phase (s : Station ε π σ) : Phase := s.tenure.1.phase

/-- The session holds a handle. -/
def occupied (s : Station ε π σ) : Bool := s.session.handle.isSome

theorem engine_of_tenure (s : Station ε π σ) : s.tenure.2 = s.engine := by
  rcases s with ⟨engine, ⟨_ | handle, settings, policy⟩, previous, out⟩ <;> rfl

theorem phase_congr {ε' σ' : Type} {s : Station ε π σ} {s' : Station ε' π σ'}
    (same : s.session = s'.session) : s.phase = s'.phase := by
  rcases s with ⟨engine, session, previous, out⟩
  cases same
  rcases s' with ⟨engine', ⟨_ | handle, settings, policy⟩, previous', out'⟩ <;> rfl

theorem phase_of_steady {s : Station ε π σ} (steady : s.Steady) :
    s.phase = if s.occupied then .streaming else .vacant := by
  rcases s with ⟨engine, ⟨_ | handle, settings, policy⟩, previous, out⟩
  · rfl
  · have streaming : handle.state = .streaming := steady handle rfl
    simp [phase, tenure, Lease.tenure, Lease.stopped, streaming, Tenure.phase, occupied]

end Station

namespace World
variable [Engine ε π] [Sink σ] [Source ρ] (act : κ → Surroundings ε σ ρ → Surroundings ε σ ρ)

theorem advances_perform (w : World ε π σ ρ) (call : Call κ) :
    w.host.station.Advances (w.perform act call).2.host.station ∨
      ∃ event, call = .outside event := by
  cases call with
  | configure link => exact .inl (w.host.advances_configure link)
  | request => exact .inl (w.host.advances_request w.source)
  | close => exact .inl w.host.advances_close.1
  | outside event => exact .inr ⟨event, rfl⟩

theorem steady_perform (w : World ε π σ ρ) (call : Call κ) (steady : w.host.station.Steady) :
    (w.perform act call).2.host.station.Steady := by
  rcases advances_perform act w call with advances | ⟨event, rfl⟩
  · exact advances.steady steady
  · exact steady

theorem steady_run {w : World ε π σ ρ} (steady : w.host.station.Steady) (calls : List (Call κ)) :
    (w.run act calls).host.station.Steady :=
  run_invariant act (fun w call => steady_perform act w call) steady calls

theorem follow?_processorCalls (w : World ε π σ ρ) (call : Call κ) :
    w.host.station.phase.follow? (w.processorCalls act call) =
      some (w.perform act call).2.host.station.phase := by
  have before : w.noted.host.station.phase = w.host.station.phase := Station.phase_congr rfl
  have after : (w.noted.perform (besideNotes act) call).2.host.station.phase =
      (w.perform act call).2.host.station.phase := by
    rw [map_noted_perform act w call]
    exact Station.phase_congr rfl
  rw [← before, ← after]
  rcases advances_perform (besideNotes act) w.noted call with advances | ⟨event, rfl⟩
  · obtain ⟨calls, noted, led⟩ := Tenure.follow?_of_path advances.path
    simp only [Station.engine_of_tenure] at noted
    rw [processorCalls, noted]
    exact led
  · rw [show w.processorCalls act (.outside event) = [] from rfl, Phase.follow?_nil]
    exact congrArg some (Station.phase_congr rfl)

theorem follow?_processorHistory (w : World ε π σ ρ) (calls : List (Call κ)) :
    w.host.station.phase.follow? (w.processorHistory act calls) =
      some (w.run act calls).host.station.phase := by
  induction calls generalizing w with
  | nil => rfl
  | cons call rest ih =>
    rw [processorHistory, Phase.follow?_append, follow?_processorCalls]
    exact ih _

end World

end station

/-- New knobs for the scripted engine, and any sink, pool and source in place of the present
ones. -/
structure Turn (σ ρ : Type) where
  knobs : Knobs
  sink : σ
  pool : Pool
  source : ρ

section script
variable {σ ρ : Type}

def Turn.apply (turn : Turn σ ρ) (s : Surroundings Script σ ρ) : Surroundings Script σ ρ :=
  ⟨{ s.engine with knobs := turn.knobs }, turn.sink, turn.pool, turn.source⟩

namespace World
variable [Sink σ] [Source ρ]

theorem counters_perform (w : World Script Unit σ ρ) (call : Call (Turn σ ρ)) :
    (w.perform Turn.apply call).2.host.station.engine.counters =
      (w.host.station.engine.created + (w.processorCalls Turn.apply call).count .created,
        w.host.station.engine.endStreamCalls + (w.processorCalls Turn.apply call).count .ended,
        w.host.station.engine.destroyed + (w.processorCalls Turn.apply call).count .released) := by
  have start : w.host.station.engine.Tallies w.noted.host.station.tenure.2 := by
    rw [Station.engine_of_tenure]
    rfl
  rw [map_noted_perform Turn.apply w call]
  rcases advances_perform (besideNotes Turn.apply) w.noted call with advances | ⟨event, rfl⟩
  · have tallies := Script.tallies_of_path advances.path start
    rw [Station.engine_of_tenure] at tallies
    exact tallies
  · rfl

theorem counters_run (w : World Script Unit σ ρ) (calls : List (Call (Turn σ ρ))) :
    (w.run Turn.apply calls).host.station.engine.counters =
      (w.host.station.engine.created + (w.processorHistory Turn.apply calls).count .created,
        w.host.station.engine.endStreamCalls + (w.processorHistory Turn.apply calls).count .ended,
        w.host.station.engine.destroyed +
          (w.processorHistory Turn.apply calls).count .released) := by
  induction calls generalizing w with
  | nil => rfl
  | cons call rest ih =>
    have first := counters_perform w call
    simp only [Script.counters, Prod.mk.injEq] at first
    obtain ⟨made, ended, gone⟩ := first
    rw [run_cons, ih, made, ended, gone]
    simp only [processorHistory, List.count_append, Nat.add_assoc]

/-- As many processors are created as are destroyed or there, and as many ended as destroyed. -/
def Balanced (w : World Script Unit σ ρ) : Prop :=
  let s := w.host.station
  s.engine.created = s.engine.destroyed + (if s.occupied then 1 else 0) ∧
    s.engine.endStreamCalls = s.engine.destroyed

theorem balanced_run {w : World Script Unit σ ρ} (vacant : w.host.station.phase = .vacant)
    (unused : w.host.station.engine.counters = (0, 0, 0)) (steady : w.host.station.Steady)
    (calls : List (Call (Turn σ ρ))) : (w.run Turn.apply calls).Balanced := by
  have led := follow?_processorHistory Turn.apply w calls
  have phase := Station.phase_of_steady (steady_run Turn.apply steady calls)
  have counted := counters_run w calls
  rw [vacant, phase] at led
  obtain ⟨made, ended⟩ := Phase.count_of_follow? led
  simp only [Script.counters, Prod.mk.injEq] at counted unused
  unfold Balanced
  generalize (w.run Turn.apply calls).host.station = after at made ended counted ⊢
  cases there : after.occupied <;>
    simp [there, Phase.alive, Phase.late] at made ended ⊢ <;> omega

/-- After any history of a host on the scripted engine, its knobs turned at will, one processor
more was created than destroyed if the session holds a handle and none otherwise, and each one
destroyed was ended before. On the way a processor is created only when all before it have ended
and are gone, and a frame is processed only while one is there that has not ended. Giving up the
stream in the end leaves none. -/
theorem processor_life_cycle (options : StageOptions) (knobs : Knobs) (policy : DrainPolicy)
    (sink : σ) (pool : Pool) (source : ρ) (calls : List (Call (Turn σ ρ))) :
    let start : World Script Unit σ ρ := fresh options (.start knobs) policy sink pool source
    let w := start.run Turn.apply calls
    let script := w.host.station.engine
    let last := w.host.close.station
    let history := start.processorHistory Turn.apply calls
    script.created = script.destroyed + (if w.host.station.occupied then 1 else 0) ∧
    script.endStreamCalls = script.destroyed ∧
    (last.occupied = false ∧ last.engine.created = last.engine.destroyed ∧
      last.engine.endStreamCalls = last.engine.destroyed) ∧
    script.counters = (history.count .created, history.count .ended, history.count .released) ∧
    Phase.vacant.follow? history =
      some (if w.host.station.occupied then .streaming else .vacant) ∧
    (∀ before rest, history = before ++ .created :: rest →
      before.count .ended = before.count .created ∧
        before.count .released = before.count .created) ∧
    (∀ before frame taken rest, history = before ++ .processed frame taken :: rest →
      before.count .created = before.count .ended + 1 ∧
        before.count .released = before.count .ended) := by
  intro start w script last history
  have steady : start.host.station.Steady := by
    intro handle there
    cases there
  have led : Phase.vacant.follow? history = some w.host.station.phase :=
    follow?_processorHistory Turn.apply start calls
  have phase := Station.phase_of_steady (steady_run Turn.apply steady calls)
  have counted : script.counters = (0 + history.count .created, 0 + history.count .ended,
      0 + history.count .released) := counters_run start calls
  have balanced := balanced_run rfl rfl steady calls
  have dropped := balanced_run rfl rfl steady (calls ++ [.close])
  have gone : last.occupied = false := by
    rw [Station.occupied, w.host.advances_close.2]
    rfl
  have empty : last.engine.created = last.engine.destroyed ∧
      last.engine.endStreamCalls = last.engine.destroyed := by
    rw [run_append] at dropped
    have none_ : last.engine.created = last.engine.destroyed + (if last.occupied then 1 else 0) :=
      dropped.1
    exact ⟨by simpa only [gone, Bool.false_eq_true, if_false, Nat.add_zero] using none_, dropped.2⟩
  refine ⟨balanced.1, balanced.2, ⟨gone, empty⟩, ?_, phase ▸ led, ?_, ?_⟩
  · simpa only [Nat.zero_add] using counted
  · intro before rest split
    exact Phase.count_of_created (split ▸ led)
  · intro before frame taken rest split
    exact Phase.count_of_processed (split ▸ led)

end World

end script

end FrameRelay
