import FrameRelay.Proofs.Readings

/-! Drains of the scripted engine that throw its outputs away. Ready and held outputs are one list:
each poll throws away what was shown by the last count, and each count shows one output more unless
the engine stalls. The readings follow, and with them the number of polls and what is left. -/

namespace FrameRelay

namespace Script

/-- All outputs that are left, the oldest first. -/
def outputs (s : Script) : List (Int × UInt16) := s.ready ++ s.held

theorem length_outputs (s : Script) : s.outputs.length = s.pending := List.length_append

/-- How many of the outputs thrown away a handle counts as emitted. -/
def emits (knobs : Knobs) (thrown : Nat) : Nat := if knobs.failOutput then 0 else thrown

theorem emits_add (knobs : Knobs) (first second : Nat) :
    emits knobs first + emits knobs second = emits knobs (first + second) := by
  unfold emits
  split <;> rfl

/-- The count shows one more of the held outputs, once the stream has ended and unless the engine
stalls. -/
def shows (knobs : Knobs) : Nat := if knobs.stall then 0 else 1

theorem remaining_of_ended {s : Script} (ended : 0 < s.endStreamCalls) :
    s.remaining = (s.pending, { s with
      remainingCalls := s.remainingCalls + 1
      ready := s.ready ++ s.held.take (shows s.knobs)
      held := s.held.drop (shows s.knobs) }) := by
  cases stalls : s.knobs.stall <;> cases held : s.held <;>
    simp [remaining, shows, pending, stalls, held, ended, Nat.add_comm, Nat.add_left_comm]

end Script

namespace Lease

theorem discard_ready {l : Lease Script Unit} {output : Int × UInt16} {rest : List (Int × UInt16)}
    (ready : l.engine.ready = output :: rest) :
    l.discard.2 = ⟨{ l.engine with ready := rest },
      { l.handle with emitted := l.handle.emitted + Script.emits l.engine.knobs 1 }⟩ := by
  cases fails : l.engine.knobs.failOutput <;>
    simp [discard, Engine.discard, Script.pop, ready, fails, Except.map, withProcessor,
      Script.emits]

theorem ignoreOutput_script (l : Lease Script Unit) :
    l.ignoreOutput.2 = ⟨{ l.engine with ready := [] }, { l.handle with
      emitted := l.handle.emitted + Script.emits l.engine.knobs l.engine.ready.length }⟩ := by
  have many (outputs : List (Int × UInt16)) (l : Lease Script Unit)
      (ready : l.engine.ready = outputs) :
      l.discardMany outputs.length = ⟨{ l.engine with ready := [] }, { l.handle with
        emitted := l.handle.emitted + Script.emits l.engine.knobs outputs.length }⟩ := by
    induction outputs generalizing l with
    | nil =>
      have same : l.engine = { l.engine with ready := [] } := by rw [← ready]
      simp only [List.length_nil, discardMany, Script.emits, ite_self, Nat.add_zero, ← same]
    | cons output rest ih =>
      rw [List.length_cons, discardMany, discard_ready ready, ih _ rfl, Nat.add_comm rest.length,
        ← Script.emits_add, Nat.add_assoc]
  exact many _ l.ready.2 rfl

/-- A lease in the course of a drain: of the outputs there were at the start, the first `shown`
were shown to be ready and the first `thrown` were thrown away. -/
structure Thrown (start l : Lease Script Unit) (thrown shown : Nat) : Prop where
  draining : l.handle.state = .draining
  ended : 0 < l.engine.endStreamCalls
  knobs : l.engine.knobs = start.engine.knobs
  ready : l.engine.ready = (start.engine.outputs.take shown).drop thrown
  held : l.engine.held = start.engine.outputs.drop shown
  emitted : l.handle.emitted = start.handle.emitted +
    Script.emits start.engine.knobs (min thrown start.engine.pending)

namespace Thrown
variable {start l : Lease Script Unit} {thrown shown : Nat}

theorem endStream (streaming : start.handle.state = .streaming) :
    start.Thrown start.endStream 0 start.engine.ready.length := by
  rw [Lease.endStream, if_pos streaming]
  refine ⟨rfl, Nat.succ_pos _, rfl, ?_, ?_, ?_⟩
  · simp [Engine.endStream, Script.outputs]
  · simp [Engine.endStream, Script.outputs]
  · simp [Script.emits]

theorem pending (here : start.Thrown l thrown shown) (within : thrown ≤ shown) :
    l.engine.pending = start.engine.pending - thrown := by
  rw [Script.pending, here.ready, here.held, ← Script.length_outputs, List.length_drop,
    List.length_take, List.length_drop]
  omega

theorem remaining (here : start.Thrown l thrown shown) (within : thrown ≤ shown) :
    l.remaining.1 = start.engine.pending - thrown ∧
      start.Thrown l.remaining.2 thrown (shown + Script.shows start.engine.knobs) := by
  have counted := Script.remaining_of_ended here.ended
  have left := here.pending within
  simp only [Lease.remaining, Engine.remaining, counted, withProcessor]
  refine ⟨left, here.draining, here.ended, here.knobs, ?_, ?_, here.emitted⟩
  · simp only [here.ready, here.held, here.knobs, List.take_add]
    rcases Nat.le_total shown start.engine.outputs.length with some | none
    · rw [List.drop_append_of_le_length]
      rw [List.length_take]
      omega
    · rw [List.drop_eq_nil_of_le none, List.take_nil, List.append_nil, List.append_nil]
  · simp only [here.held, here.knobs, List.drop_drop]

theorem ignoreOutput (here : start.Thrown l thrown shown) (within : thrown ≤ shown) :
    start.Thrown l.ignoreOutput.2 shown shown := by
  rw [ignoreOutput_script]
  have gone : min thrown start.engine.pending + l.engine.ready.length =
      min shown start.engine.pending := by
    rw [here.ready, ← Script.length_outputs, List.length_drop, List.length_take]
    omega
  refine ⟨here.draining, here.ended, here.knobs, ?_, here.held, ?_⟩
  · rw [List.drop_eq_nil_of_le (List.length_take_le _ _)]
  · simp only [here.emitted, here.knobs, Nat.add_assoc, Script.emits_add, gone]

end Thrown

/-- The step of a drain that throws outputs away. -/
def throwAway {τ : Type} (l : Lease Script Unit) (t : τ) : Outcome Unit × Lease Script Unit × τ :=
  (.ok (), l.ignoreOutput.2, t)

end Lease

section drain
open Polling Lease
variable {τ : Type} {l : Lease Script Unit}

/-- The outputs that a drain has been shown at its reading `k`. -/
def shownAt (l : Lease Script Unit) (k : Nat) : Nat :=
  l.engine.ready.length + (k + 1) * Script.shows l.engine.knobs

/-- The outputs that it has thrown away, those it was shown at the reading before. -/
def thrownAt (l : Lease Script Unit) : Nat → Nat
  | 0 => 0
  | k + 1 => shownAt l k

theorem shownAt_succ (l : Lease Script Unit) (k : Nat) :
    shownAt l (k + 1) = shownAt l k + Script.shows l.engine.knobs := by
  rw [shownAt, Nat.succ_mul, ← Nat.add_assoc, shownAt]

theorem thrownAt_le (l : Lease Script Unit) (k : Nat) : thrownAt l k ≤ shownAt l k := by
  cases k with
  | zero => exact Nat.zero_le _
  | succ k =>
    rw [shownAt_succ]
    exact Nat.le_add_right _ _

/-- The reading after so many polls, and what the polls have done. -/
theorem thrown_after (streaming : l.handle.state = .streaming) (t : τ) (k : Nat) :
    reading throwAway l t k = l.engine.pending - thrownAt l k ∧
      l.Thrown (after throwAway l t k).lease (thrownAt l k) (shownAt l k) := by
  induction k with
  | zero =>
    have opened := (Thrown.endStream streaming).remaining (Nat.zero_le _)
    simpa [reading, after, opening, thrownAt, shownAt] using opened
  | succ k ih =>
    have polled := (ih.2.ignoreOutput (thrownAt_le l k)).remaining le_rfl
    rw [← shownAt_succ] at polled
    exact polled

theorem thrownAt_of_moving (moving : l.engine.knobs.stall = false) {k : Nat} (polled : 0 < k) :
    thrownAt l k = l.engine.ready.length + k := by
  obtain ⟨j, rfl⟩ := Nat.exists_eq_succ_of_ne_zero (Nat.pos_iff_ne_zero.mp polled)
  simp [thrownAt, shownAt, Script.shows, moving]

theorem shownAt_of_stalling (stalling : l.engine.knobs.stall = true) (k : Nat) :
    shownAt l k = l.engine.ready.length := by
  simp [shownAt, Script.shows, stalling]

theorem thrownAt_of_stalling (stalling : l.engine.knobs.stall = true) {k : Nat} (polled : 0 < k) :
    thrownAt l k = l.engine.ready.length := by
  obtain ⟨j, rfl⟩ := Nat.exists_eq_succ_of_ne_zero (Nat.pos_iff_ne_zero.mp polled)
  exact shownAt_of_stalling stalling j

/-- The polls of a drain that gives up on a stalling engine. One more than it is patient for if
the first poll brought the count down. -/
def pollsUntilStuck (policy : DrainPolicy) (ready : Nat) : Nat :=
  if ready = 0 then policy.maxStalledPolls else policy.maxStalledPolls + 1

/-- The polls of a drain that throws away so many ready and held outputs. -/
def discardPolls (policy : DrainPolicy) (stall : Bool) (ready held : Nat) : Nat :=
  if ready + held = 0 then 0
  else if policy.maxStalledPolls = 0 then 0
  else if stall = false then max 1 held
  else if held = 0 then 1
  else pollsUntilStuck policy ready

/-- How it ends. More polls than can be counted are a fault. -/
def discardEnd (policy : DrainPolicy) (stall : Bool) (ready held : Nat) : Outcome DrainReport :=
  let polls := discardPolls policy stall ready held
  let through := .ok ⟨polls, policy.interval.times polls⟩
  let givesUp (left : Nat) := .error (.drainTimeout left polls (policy.interval.times polls))
  if Number.shortLimit ≤ polls then .error (.fault .overflow)
  else if ready + held = 0 then through
  else if policy.maxStalledPolls = 0 then givesUp (ready + held)
  else if stall = false then through
  else if held = 0 then through
  else givesUp held

section ends
variable (policy : DrainPolicy) (streaming : l.handle.state = .streaming) {t : τ} {k : Nat}
  (counts : k < Number.shortLimit)
  (goes : ∀ j < k, GoesOn (reading throwAway l t) policy.maxStalledPolls j)
include streaming counts goes

theorem discards_all (empty : l.engine.pending ≤ thrownAt l k) :
    let answer := l.drainIgnoring policy t
    answer.1 = .ok ⟨k, policy.interval.times k⟩ ∧ answer.2.1.engine.pending = 0 ∧
      answer.2.1.handle.emitted = l.handle.emitted +
        Script.emits l.engine.knobs l.engine.pending := by
  obtain ⟨left, thrown⟩ := thrown_after streaming t k
  rw [Nat.sub_eq_zero_of_le empty] at left
  have answer := drain_of_empty counts goes (fun _ _ => rfl) left
  have closed : (after throwAway l t k).lease.close =
      ⟨(after throwAway l t k).lease.engine,
        { (after throwAway l t k).lease.handle with state := .closed }⟩ := by
    rw [Lease.close, Lease.endStream, if_neg (by simp [thrown.draining])]
  have pending := thrown.pending (thrownAt_le l k)
  have emitted := thrown.emitted
  rw [Nat.sub_eq_zero_of_le empty] at pending
  rw [Nat.min_eq_right empty] at emitted
  have same : l.drainIgnoring policy t = drain policy throwAway l t := rfl
  rw [same, answer, closed]
  exact ⟨rfl, pending, emitted⟩

theorem discards_until_stuck (some : thrownAt l k < l.engine.pending)
    (stuck : Stuck (reading throwAway l t) policy.maxStalledPolls k) :
    let answer := l.drainIgnoring policy t
    answer.1 = .error (.drainTimeout (l.engine.pending - thrownAt l k) k
      (policy.interval.times k)) ∧ l.Thrown answer.2.1 (thrownAt l k) (shownAt l k) := by
  obtain ⟨left, thrown⟩ := thrown_after streaming t k
  have answer := drain_of_stuck counts goes (fun _ _ => rfl) (by rw [left]; omega) stuck
  have same : l.drainIgnoring policy t = drain policy throwAway l t := rfl
  rw [same, answer, left]
  exact ⟨rfl, thrown⟩

end ends

theorem stuck_of_stalling (policy : DrainPolicy) (streaming : l.handle.state = .streaming) {t : τ}
    (stalling : l.engine.knobs.stall = true) :
    Stuck (reading throwAway l t) policy.maxStalledPolls
      (pollsUntilStuck policy l.engine.ready.length) := by
  have readings (j : Nat) := (thrown_after streaming t j).1
  rw [pollsUntilStuck]
  by_cases none : l.engine.ready.length = 0
  · have nothing (j : Nat) : thrownAt l j = 0 := by
      rcases Nat.eq_zero_or_pos j with rfl | polled
      · rfl
      · rw [thrownAt_of_stalling stalling polled, none]
    rw [if_pos none]
    exact ⟨le_rfl, fun i _ _ => by rw [readings, readings, nothing, nothing]⟩
  · rw [if_neg none]
    refine ⟨Nat.le_succ _, fun i low high => ?_⟩
    rw [readings, readings, thrownAt_of_stalling stalling (by omega),
      thrownAt_of_stalling stalling (Nat.succ_pos _)]

section patience
variable {policy : DrainPolicy} (streaming : l.handle.state = .streaming) {t : τ} {k : Nat}
  (patient : 0 < policy.maxStalledPolls)
include streaming patient

theorem goesOn_zero (some : 0 < l.engine.pending) :
    GoesOn (reading throwAway l t) policy.maxStalledPolls 0 := by
  refine ⟨?_, fun stuck => absurd stuck.1 (by omega)⟩
  rw [(thrown_after streaming t 0).1]
  exact some

/-- While the engine moves, each reading after the first is one below the reading before, so that
the last held output is thrown away by the poll of its number. -/
theorem goesOn_of_moving (moving : l.engine.knobs.stall = false) (some : 0 < l.engine.pending)
    (before : k < max 1 l.engine.held.length) :
    GoesOn (reading throwAway l t) policy.maxStalledPolls k := by
  have readings (j : Nat) := (thrown_after streaming t j).1
  have left : l.engine.pending = l.engine.ready.length + l.engine.held.length := rfl
  rcases Nat.eq_zero_or_pos k with rfl | polled
  · exact goesOn_zero streaming patient some
  have here := thrownAt_of_moving moving polled
  refine ⟨by rw [readings, here]; omega, fun ⟨long, same⟩ => ?_⟩
  have last := same (k - 1) (by omega) (Nat.sub_le k 1)
  rw [readings, readings, here] at last
  rcases Nat.eq_zero_or_pos (k - 1) with first | later
  · rw [first, thrownAt] at last
    omega
  · rw [thrownAt_of_moving moving later] at last
    omega

variable (stalling : l.engine.knobs.stall = true)
include stalling

theorem goesOn_of_stalling (some : 0 < l.engine.held.length)
    (before : k < pollsUntilStuck policy l.engine.ready.length) :
    GoesOn (reading throwAway l t) policy.maxStalledPolls k := by
  have readings (j : Nat) := (thrown_after streaming t j).1
  have left : l.engine.pending = l.engine.ready.length + l.engine.held.length := rfl
  rcases Nat.eq_zero_or_pos k with rfl | polled
  · exact goesOn_zero streaming patient (by omega)
  have here := thrownAt_of_stalling stalling polled
  refine ⟨by rw [readings, here]; omega, fun ⟨long, same⟩ => ?_⟩
  rw [pollsUntilStuck] at before
  by_cases none : l.engine.ready.length = 0
  · rw [if_pos none] at before
    omega
  · rw [if_neg none] at before
    have first := same 0 (by omega) (Nat.zero_le _)
    rw [readings, readings, here, thrownAt] at first
    omega

theorem discards_but_held (some : 0 < l.engine.held.length)
    (counts : pollsUntilStuck policy l.engine.ready.length < Number.shortLimit) :
    let polls := pollsUntilStuck policy l.engine.ready.length
    let answer := l.drainIgnoring policy t
    answer.1 = .error (.drainTimeout l.engine.held.length polls (policy.interval.times polls)) ∧
      answer.2.1.engine.ready = [] ∧ answer.2.1.engine.held = l.engine.held := by
  intro polls
  have polled : 0 < polls := by
    simp only [polls, pollsUntilStuck]
    split <;> omega
  have pending : l.engine.pending = l.engine.ready.length + l.engine.held.length := rfl
  have thrown := thrownAt_of_stalling stalling polled
  obtain ⟨gave_up, left⟩ := discards_until_stuck policy streaming (t := t) (k := polls) counts
    (fun j before => goesOn_of_stalling streaming patient stalling some before) (by omega)
    (stuck_of_stalling policy streaming stalling)
  rw [thrown, pending, Nat.add_sub_cancel_left] at gave_up
  rw [thrown, shownAt_of_stalling stalling] at left
  exact ⟨gave_up, left.ready.trans (List.drop_eq_nil_of_le (List.length_take_le _ _)),
    left.held.trans List.drop_left⟩

end patience

theorem goesOn_before (policy : DrainPolicy) (streaming : l.handle.state = .streaming) {t : τ}
    {k : Nat} (before : k < discardPolls policy l.engine.knobs.stall l.engine.ready.length
      l.engine.held.length) : GoesOn (reading throwAway l t) policy.maxStalledPolls k := by
  unfold discardPolls at before
  by_cases none : l.engine.ready.length + l.engine.held.length = 0
  · rw [if_pos none] at before
    omega
  have some : 0 < l.engine.pending := Nat.pos_of_ne_zero none
  by_cases impatient : policy.maxStalledPolls = 0
  · rw [if_neg none, if_pos impatient] at before
    omega
  have patient : 0 < policy.maxStalledPolls := Nat.pos_of_ne_zero impatient
  rw [if_neg none, if_neg impatient] at before
  cases stalls : l.engine.knobs.stall with
  | false =>
    rw [if_pos stalls] at before
    exact goesOn_of_moving streaming patient stalls some before
  | true =>
    rw [if_neg (by simp [stalls])] at before
    by_cases empty : l.engine.held.length = 0
    · rw [if_pos empty] at before
      exact (Nat.lt_one_iff.mp before) ▸ goesOn_zero streaming patient some
    · rw [if_neg empty] at before
      exact goesOn_of_stalling streaming patient stalls (Nat.pos_of_ne_zero empty) before

end drain

end FrameRelay
