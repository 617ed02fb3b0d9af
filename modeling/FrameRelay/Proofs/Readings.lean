import FrameRelay.Engine.Scripted
import FrameRelay.Proofs.Notes
import Mathlib.Data.Nat.Find
import Mathlib.Logic.Relation

/-! A drain told by its readings: the count that is left when the stream has ended, and the count
after each poll. They alone say whether the drain goes on, is through or gives up. A count that
never goes up bounds the number of polls. -/

namespace FrameRelay

section readings
variable {reading : Nat → Nat} {patience : Nat}

/-- The reading at `k` and the `patience` readings before it are the same. -/
def Stuck (reading : Nat → Nat) (patience k : Nat) : Prop :=
  patience ≤ k ∧ ∀ i, k - patience ≤ i → i ≤ k → reading i = reading k

/-- How many readings before the one at `k` are the same as it, without a break. -/
def stalls (reading : Nat → Nat) : Nat → Nat
  | 0 => 0
  | k + 1 => if reading (k + 1) = reading k then stalls reading k + 1 else 0

theorem le_stalls_iff (reading : Nat → Nat) (patience k : Nat) :
    patience ≤ stalls reading k ↔ Stuck reading patience k := by
  induction k generalizing patience with
  | zero =>
    constructor
    · intro short
      exact ⟨short, fun i _ first => by rw [Nat.le_zero.mp first]⟩
    · exact fun stuck => stuck.1
  | succ k ih =>
    rcases patience with _ | patience
    · exact iff_of_true (Nat.zero_le _)
        ⟨Nat.zero_le _, fun i low high => by rw [Nat.le_antisymm high low]⟩
    rw [stalls]
    by_cases same : reading (k + 1) = reading k
    · rw [if_pos same, Nat.succ_le_succ_iff, ih]
      constructor
      · rintro ⟨long, equal⟩
        refine ⟨Nat.succ_le_succ long, fun i low high => ?_⟩
        rcases Nat.eq_or_lt_of_le high with rfl | before
        · rfl
        · exact (equal i (by omega) (by omega)).trans same.symm
      · rintro ⟨long, equal⟩
        refine ⟨by omega, fun i low high => ?_⟩
        exact (equal i (by omega) (by omega)).trans same
    · rw [if_neg same]
      refine iff_of_false (by omega) fun stuck => same ?_
      exact (stuck.2 k (by omega) (Nat.le_succ k)).symm

/-- Before a drain is stuck, each value of a count that never goes up lasts for at most `patience`
polls. -/
theorem polls_le {k : Nat} (goes : ∀ j < k, ¬ Stuck reading patience j)
    (falls : ∀ j < k, reading (j + 1) ≤ reading j) :
    reading k ≤ reading 0 ∧
      k ≤ (reading 0 - reading k) * patience + stalls reading k ∧ stalls reading k ≤ patience := by
  induction k with
  | zero => simp [stalls]
  | succ k ih =>
    obtain ⟨below, bound, -⟩ := ih (fun j before => goes j (by omega)) fun j before =>
      falls j (by omega)
    have fall := falls k (Nat.lt_succ_self k)
    have moving : stalls reading k < patience := by
      have open_ := goes k (Nat.lt_succ_self k)
      rw [← le_stalls_iff] at open_
      omega
    rw [stalls]
    by_cases same : reading (k + 1) = reading k
    · rw [if_pos same, same]
      omega
    · rw [if_neg same]
      have lost : reading 0 - reading k + 1 ≤ reading 0 - reading (k + 1) := by omega
      have longer : (reading 0 - reading k + 1) * patience ≤
          (reading 0 - reading (k + 1)) * patience := Nat.mul_le_mul_right _ lost
      rw [Nat.add_mul, Nat.one_mul] at longer
      omega

/-- The drain polls once more after the reading at `k`. -/
def GoesOn (reading : Nat → Nat) (patience k : Nat) : Prop :=
  0 < reading k ∧ ¬ Stuck reading patience k

theorem exists_first_end {k : Nat} (ends : ¬ GoesOn reading patience k) :
    ∃ k, ¬ GoesOn reading patience k ∧ ∀ j < k, GoesOn reading patience j := by
  classical
  have some : ∃ k, ¬ GoesOn reading patience k := ⟨k, ends⟩
  exact ⟨Nat.find some, Nat.find_spec some, fun j before => not_not.mp (Nat.find_min some before)⟩

theorem exists_end_le (falls : ∀ k, (∀ j ≤ k, GoesOn reading patience j) →
      reading (k + 1) ≤ reading k) :
    ∃ k ≤ reading 0 * patience, ¬ GoesOn reading patience k ∧
      ∀ j < k, GoesOn reading patience j := by
  have bounds {k : Nat} (goes : ∀ j < k, GoesOn reading patience j) :=
    polls_le (fun j before => (goes j before).2) fun j before =>
      falls j fun i early => goes i (by omega)
  obtain ⟨k, ends, goes⟩ :
      ∃ k, ¬ GoesOn reading patience k ∧ ∀ j < k, GoesOn reading patience j := by
    by_contra endless
    have always (k : Nat) : GoesOn reading patience k := by
      by_contra ends
      exact endless (exists_first_end ends)
    -- so many polls are more than all values of the count allow
    obtain ⟨-, bound, short⟩ :=
      bounds (k := reading 0 * patience + patience + 1) fun j _ => always j
    have most := Nat.mul_le_mul_right patience
      (Nat.sub_le (reading 0) (reading (reading 0 * patience + patience + 1)))
    omega
  obtain ⟨below, bound, short⟩ := bounds goes
  refine ⟨k, ?_, ends, goes⟩
  rcases Nat.eq_zero_or_pos (reading k) with empty | left
  · -- the last poll brought the count to zero, so that it broke the stall
    have fresh : stalls reading k = 0 := by
      rcases k with _ | k
      · rfl
      · have before := (goes k (Nat.lt_succ_self k)).1
        rw [stalls, if_neg (by omega)]
    rw [empty, fresh, Nat.sub_zero] at bound
    exact bound
  · have lower : (reading 0 - reading k) * patience + patience ≤ reading 0 * patience := by
      rw [← Nat.succ_mul]
      exact Nat.mul_le_mul_right _ (by omega)
    omega

end readings

section polling
variable {ε π τ : Type} [Engine ε π]

namespace Polling

/-- A drain that has ended the stream and taken its first reading. -/
def opening (l : Lease ε π) (t : τ) : Polling ε π τ :=
  ⟨0, 0, l.endStream.remaining.1, l.endStream.remaining.2, t⟩

/-- One poll, whatever comes of its step. -/
def next (step : Lease ε π → τ → Outcome Unit × Lease ε π × τ) (p : Polling ε π τ) :
    Polling ε π τ :=
  let taken := step p.lease p.other
  let counted := taken.2.1.remaining
  ⟨p.polls + 1, if counted.1 = p.remaining then p.stalled + 1 else 0, counted.1, counted.2,
    taken.2.2⟩

/-- The drain after so many polls, if it were to make them all. -/
def after (step : Lease ε π → τ → Outcome Unit × Lease ε π × τ) (l : Lease ε π) (t : τ) :
    Nat → Polling ε π τ
  | 0 => opening l t
  | k + 1 => (after step l t k).next step

variable (step : Lease ε π → τ → Outcome Unit × Lease ε π × τ) (l : Lease ε π) (t : τ)

/-- The count that is left after so many polls. -/
def reading (k : Nat) : Nat := (after step l t k).remaining

/-- What the step comes to at the poll after the reading at `k`. -/
def taken (k : Nat) : Outcome Unit × Lease ε π × τ :=
  step (after step l t k).lease (after step l t k).other

theorem polls_after (k : Nat) : (after step l t k).polls = k := by
  induction k with
  | zero => rfl
  | succ k ih => exact congrArg (· + 1) ih

theorem stalled_after (k : Nat) : (after step l t k).stalled = stalls (reading step l t) k := by
  induction k with
  | zero => rfl
  | succ k ih =>
    rw [stalls, ← ih]
    rfl

variable {step l t} {policy : DrainPolicy} {k : Nat}

theorem poll_of_ok {p : Polling ε π τ} (left : p.remaining ≠ 0)
    (moving : ¬ policy.maxStalledPolls ≤ p.stalled)
    (works : (step p.lease p.other).1 = .ok ()) (counts : p.polls + 1 < Number.shortLimit) :
    p.poll policy step = .inr (p.next step) := by
  rw [poll, if_neg left, if_neg moving, next]
  generalize step p.lease p.other = taken at works ⊢
  rcases taken with ⟨cause | _, l', t'⟩
  · cases works
  · exact if_neg (Nat.not_le.mpr counts)

theorem run_after (counts : k < Number.shortLimit)
    (goes : ∀ j < k, GoesOn (reading step l t) policy.maxStalledPolls j)
    (works : ∀ j < k, (taken step l t j).1 = .ok ()) :
    (opening l t).run policy step = (after step l t k).run policy step := by
  induction k with
  | zero => rfl
  | succ k ih =>
    obtain ⟨left, moving⟩ := goes k (Nat.lt_succ_self k)
    rw [← le_stalls_iff, ← stalled_after] at moving
    have room : (after step l t k).polls + 1 < Number.shortLimit := by rwa [polls_after]
    have polled := poll_of_ok (Nat.pos_iff_ne_zero.mp left) moving (works k (Nat.lt_succ_self k))
      room
    rw [ih (by omega) (fun j before => goes j (by omega)) fun j before => works j (by omega),
      run_of_next polled]
    rfl

theorem run_of_poll {answer : Outcome Nat × Lease ε π × τ} (counts : k < Number.shortLimit)
    (goes : ∀ j < k, GoesOn (reading step l t) policy.maxStalledPolls j)
    (works : ∀ j < k, (taken step l t j).1 = .ok ())
    (polled : (after step l t k).poll policy step = .inl answer) :
    (opening l t).run policy step = answer := by
  rw [run_after counts goes works, run_of_answer polled]

end Polling

open Polling

section outcomes
variable {policy : DrainPolicy} {step : Lease ε π → τ → Outcome Unit × Lease ε π × τ}
  {l : Lease ε π} {t : τ} {k : Nat} (counts : k < Number.shortLimit)
  (goes : ∀ j < k, GoesOn (reading step l t) policy.maxStalledPolls j)
  (works : ∀ j < k, (taken step l t j).1 = .ok ())
include counts goes works

theorem drain_of_empty (empty : reading step l t k = 0) :
    drain policy step l t = (.ok ⟨k, policy.interval.times k⟩, (after step l t k).lease.close,
      (after step l t k).other) := by
  have polled : (after step l t k).poll policy step =
      .inl (.ok k, (after step l t k).lease, (after step l t k).other) := by
    rw [reading] at empty
    rw [poll, if_pos empty, polls_after]
  have answer := run_of_poll counts goes works polled
  simp only [opening] at answer
  simp only [drain, answer]

theorem drain_of_stuck (left : 0 < reading step l t k)
    (stuck : Stuck (reading step l t) policy.maxStalledPolls k) :
    drain policy step l t =
      (.error (.drainTimeout (reading step l t k) k (policy.interval.times k)),
        (after step l t k).lease, (after step l t k).other) := by
  rw [← le_stalls_iff, ← stalled_after] at stuck
  have polled : (after step l t k).poll policy step =
      .inl (.error (.drainTimeout (reading step l t k) k (policy.interval.times k)),
        (after step l t k).lease, (after step l t k).other) := by
    rw [reading] at left ⊢
    rw [poll, if_neg (Nat.pos_iff_ne_zero.mp left), if_pos stuck, polls_after]
  have answer := run_of_poll counts goes works polled
  simp only [opening] at answer
  simp only [drain, answer]

theorem drain_of_error (here : GoesOn (reading step l t) policy.maxStalledPolls k)
    {cause : StageError} (fails : (taken step l t k).1 = .error cause) :
    drain policy step l t = (.error cause, (taken step l t k).2) := by
  obtain ⟨left, moving⟩ := here
  rw [← le_stalls_iff, ← stalled_after] at moving
  have polled : (after step l t k).poll policy step =
      .inl (.error cause, (taken step l t k).2) := by
    rw [reading] at left
    rw [poll, if_neg (Nat.pos_iff_ne_zero.mp left), if_neg moving]
    unfold taken at fails ⊢
    generalize step (after step l t k).lease (after step l t k).other = outcome at fails ⊢
    rcases outcome with ⟨cause' | _, l', t'⟩
    · cases fails
      rfl
    · cases fails
  have answer := run_of_poll counts goes works polled
  simp only [opening] at answer
  simp only [drain, answer]

theorem drain_of_full (last : Number.shortLimit ≤ k + 1)
    (here : GoesOn (reading step l t) policy.maxStalledPolls k)
    (worked : (taken step l t k).1 = .ok ()) :
    (drain policy step l t).1 = .error (.fault .overflow) := by
  obtain ⟨left, moving⟩ := here
  rw [← le_stalls_iff, ← stalled_after] at moving
  have polled : (after step l t k).poll policy step =
      .inl (.error (.fault .overflow), (taken step l t k).2) := by
    rw [reading] at left
    rw [poll, if_neg (Nat.pos_iff_ne_zero.mp left), if_neg moving, polls_after]
    unfold taken at worked ⊢
    generalize step (after step l t k).lease (after step l t k).other = outcome at worked ⊢
    rcases outcome with ⟨cause | _, l', t'⟩
    · cases worked
    · exact if_pos last
  have answer := run_of_poll counts goes works polled
  simp only [opening] at answer
  simp only [drain, answer]

end outcomes

section unfailing
variable {policy : DrainPolicy} {step : Lease ε π → τ → Outcome Unit × Lease ε π × τ}
  {l : Lease ε π} {t : τ} {k : Nat}
  (works : ∀ k, (∀ j ≤ k, GoesOn (reading step l t) policy.maxStalledPolls j) →
    (taken step l t k).1 = .ok ())
include works

theorem drain_at_end (counts : k < Number.shortLimit)
    (ends : ¬ GoesOn (reading step l t) policy.maxStalledPolls k)
    (goes : ∀ j < k, GoesOn (reading step l t) policy.maxStalledPolls j) :
    reading step l t k = 0 ∧ (drain policy step l t).1 = .ok ⟨k, policy.interval.times k⟩ ∨
      (0 < reading step l t k ∧ Stuck (reading step l t) policy.maxStalledPolls k) ∧
        (drain policy step l t).1 =
          .error (.drainTimeout (reading step l t k) k (policy.interval.times k)) := by
  have worked : ∀ j < k, (taken step l t j).1 = .ok () := fun j before =>
    works j fun i early => goes i (by omega)
  rcases Nat.eq_zero_or_pos (reading step l t k) with empty | left
  · exact .inl ⟨empty, congrArg Prod.fst (drain_of_empty counts goes worked empty)⟩
  · have stuck : Stuck (reading step l t) policy.maxStalledPolls k := by
      by_contra moving
      exact ends ⟨left, moving⟩
    exact .inr ⟨⟨left, stuck⟩, congrArg Prod.fst (drain_of_stuck counts goes worked left stuck)⟩

theorem drain_of_endless
    (goes : ∀ k < Number.shortLimit, GoesOn (reading step l t) policy.maxStalledPolls k) :
    (drain policy step l t).1 = .error (.fault .overflow) := by
  have worked (k : Nat) (counts : k < Number.shortLimit) : (taken step l t k).1 = .ok () :=
    works k fun j before => goes j (by omega)
  have last : Number.shortLimit - 1 < Number.shortLimit := by decide
  exact drain_of_full last (fun j before => goes j (by omega))
    (fun j before => worked j (by omega)) (by decide) (goes _ last) (worked _ last)

theorem drain_cases :
    (∃ k < Number.shortLimit, (∀ j < k, GoesOn (reading step l t) policy.maxStalledPolls j) ∧
      (reading step l t k = 0 ∧ (drain policy step l t).1 = .ok ⟨k, policy.interval.times k⟩ ∨
        (0 < reading step l t k ∧ Stuck (reading step l t) policy.maxStalledPolls k) ∧
          (drain policy step l t).1 =
            .error (.drainTimeout (reading step l t k) k (policy.interval.times k)))) ∨
    (∀ k < Number.shortLimit, GoesOn (reading step l t) policy.maxStalledPolls k) ∧
      (drain policy step l t).1 = .error (.fault .overflow) := by
  by_cases endless : ∀ k < Number.shortLimit, GoesOn (reading step l t) policy.maxStalledPolls k
  · exact .inr ⟨endless, drain_of_endless works endless⟩
  · obtain ⟨some, counts, stops⟩ : ∃ k < Number.shortLimit,
        ¬ GoesOn (reading step l t) policy.maxStalledPolls k := by simpa using endless
    obtain ⟨k, ends, goes⟩ := exists_first_end stops
    have first : k ≤ some := by
      by_contra later
      exact stops (goes some (by omega))
    have counted : k < Number.shortLimit := by omega
    exact .inl ⟨k, counted, goes, drain_at_end works counted ends goes⟩

theorem drain_ok_iff : (drain policy step l t).1.map DrainReport.polls = .ok k ↔
    k < Number.shortLimit ∧ reading step l t k = 0 ∧ (∀ j < k, reading step l t j ≠ 0) ∧
      ∀ j < k, ¬ Stuck (reading step l t) policy.maxStalledPolls j := by
  constructor
  · intro through
    rcases drain_cases works with ⟨k', counts, goes, ⟨empty, answer⟩ | ⟨-, answer⟩⟩ | ⟨-, answer⟩
    · rw [answer] at through
      obtain rfl : k' = k := by simpa [Except.map] using through
      exact ⟨counts, empty, fun j before => Nat.pos_iff_ne_zero.mp (goes j before).1,
        fun j before => (goes j before).2⟩
    · simp [answer, Except.map] at through
    · simp [answer, Except.map] at through
  · rintro ⟨counts, empty, first, moving⟩
    have goes : ∀ j < k, GoesOn (reading step l t) policy.maxStalledPolls j := fun j before =>
      ⟨Nat.pos_of_ne_zero (first j before), moving j before⟩
    rw [drain_of_empty counts goes (fun j before => works j fun i early => goes i (by omega)) empty]
    rfl

theorem drain_timeout_iff {left : Nat} :
    (∃ waited, (drain policy step l t).1 = .error (.drainTimeout left k waited)) ↔
      k < Number.shortLimit ∧ left = reading step l t k ∧
        (0 < reading step l t k ∧ Stuck (reading step l t) policy.maxStalledPolls k) ∧
        (∀ j < k, ¬ (0 < reading step l t j ∧ Stuck (reading step l t) policy.maxStalledPolls j)) ∧
        ∀ j < k, reading step l t j ≠ 0 := by
  constructor
  · rintro ⟨waited, gave_up⟩
    rcases drain_cases works with ⟨k', counts, goes, ⟨-, answer⟩ | ⟨stuck, answer⟩⟩ | ⟨-, answer⟩
    · simp [answer] at gave_up
    · rw [answer] at gave_up
      cases gave_up
      exact ⟨counts, rfl, stuck, fun j before both => (goes j before).2 both.2,
        fun j before => Nat.pos_iff_ne_zero.mp (goes j before).1⟩
    · simp [answer] at gave_up
  · rintro ⟨counts, rfl, ⟨some, stuck⟩, first, ever⟩
    have goes : ∀ j < k, GoesOn (reading step l t) policy.maxStalledPolls j := fun j before => by
      have here := Nat.pos_of_ne_zero (ever j before)
      exact ⟨here, fun stuck => first j before ⟨here, stuck⟩⟩
    rw [drain_of_stuck counts goes (fun j before => works j fun i early => goes i (by omega)) some
      stuck]
    exact ⟨_, rfl⟩

theorem drain_fault_iff : (drain policy step l t).1 = .error (.fault .overflow) ↔
    ∀ k < Number.shortLimit, GoesOn (reading step l t) policy.maxStalledPolls k := by
  constructor
  · intro fault
    rcases drain_cases works with ⟨k, -, -, ⟨-, answer⟩ | ⟨-, answer⟩⟩ | ⟨endless, -⟩
    · simp [answer] at fault
    · simp [answer] at fault
    · exact endless
  · exact drain_of_endless works

theorem drain_ends_in_time
    (falls : ∀ k, (∀ j ≤ k, GoesOn (reading step l t) policy.maxStalledPolls j) →
      reading step l t (k + 1) ≤ reading step l t k) :
    (∃ k ≤ reading step l t 0 * policy.maxStalledPolls,
      (drain policy step l t).1.map DrainReport.polls = .ok k ∨
        ∃ waited, (drain policy step l t).1 =
          .error (.drainTimeout (reading step l t k) k waited)) ∨
    Number.shortLimit ≤ reading step l t 0 * policy.maxStalledPolls ∧
      (drain policy step l t).1 = .error (.fault .overflow) := by
  obtain ⟨k, in_time, ends, goes⟩ := exists_end_le falls
  by_cases counts : k < Number.shortLimit
  · refine .inl ⟨k, in_time, ?_⟩
    rcases drain_at_end works counts ends goes with ⟨-, through⟩ | ⟨-, gave_up⟩
    · rw [through]
      exact .inl rfl
    · exact .inr ⟨_, gave_up⟩
  · exact .inr ⟨by omega, drain_of_endless works fun j before => goes j (by omega)⟩

end unfailing

/-- A count of the streams that processors were told the end of. No other call of a processor
changes it. -/
structure EndCount (ε π : Type) [Engine ε π] where
  count : ε → Nat
  process (frame : Frame) (p : π) (e : ε) : count (Engine.process frame p e).2.2 = count e
  ready (p : π) (e : ε) : count (Engine.ready p e).2.2 = count e
  discard (p : π) (e : ε) : count (Engine.discard p e).2.2 = count e
  pull (buffer : Buffer) (p : π) (e : ε) : count (Engine.pull buffer p e).2.2 = count e
  endStream (p : π) (e : ε) : count (Engine.endStream p e).2 = count e + 1
  remaining (p : π) (e : ε) : count (Engine.remaining p e).2.2 = count e

namespace Lease

/-- What a step may do with the handle that a drain lends it. It may close it only if `closes`. -/
inductive Touch (closes : Prop) : Lease ε π → Lease ε π → Prop where
  | process (frame : Frame) (l : Lease ε π) : Touch closes l (l.process frame).2
  | ready (l : Lease ε π) : Touch closes l l.ready.2
  | discard (l : Lease ε π) : Touch closes l l.discard.2
  | pull (buffer : Buffer) (l : Lease ε π) : Touch closes l (l.pull buffer).2
  | endStream (l : Lease ε π) : Touch closes l l.endStream
  | remaining (l : Lease ε π) : Touch closes l l.remaining.2
  | close (allowed : closes) (l : Lease ε π) : Touch closes l l.close

/-- Any number of such calls. -/
abbrev Uses (closes : Prop) : Lease ε π → Lease ε π → Prop := Relation.ReflTransGen (Touch closes)

/-- A later state of a handle whose processor was told the end of its stream once in between. -/
structure Ended (closes : Prop) (l l' : Lease ε π) : Prop where
  stopped : l'.handle.state ≠ .streaming
  draining : ¬ closes → l'.handle.state = .draining
  once : ∀ counter : EndCount ε π, counter.count l'.engine = counter.count l.engine + 1

variable {closes : Prop} {l l' l'' : Lease ε π}

theorem ended_endStream (streaming : l.handle.state = .streaming) : l.Ended closes l.endStream := by
  rw [endStream, if_pos streaming]
  refine ⟨by simp, fun _ => rfl, fun counter => ?_⟩
  exact counter.endStream l.handle.processor l.engine

theorem Ended.same (ended : l.Ended closes l') (state : l''.handle.state = l'.handle.state)
    (count : ∀ counter : EndCount ε π, counter.count l''.engine = counter.count l'.engine) :
    l.Ended closes l'' :=
  ⟨state ▸ ended.stopped, fun open_ => state.trans (ended.draining open_),
    fun counter => (count counter).trans (ended.once counter)⟩

theorem Ended.touch (ended : l.Ended closes l') (touch : l'.Touch closes l'') :
    l.Ended closes l'' := by
  cases touch with
  | process frame =>
    rw [Lease.process, if_pos ended.stopped]
    exact ended
  | ready => exact ended.same rfl fun counter => counter.ready _ _
  | discard =>
    have count (counter : EndCount ε π) := counter.discard l'.handle.processor l'.engine
    unfold Lease.discard
    generalize Engine.discard l'.handle.processor l'.engine = answer at count ⊢
    rcases answer with ⟨_ | _, p, e⟩ <;> exact ended.same rfl count
  | pull buffer =>
    have count (counter : EndCount ε π) := counter.pull buffer l'.handle.processor l'.engine
    unfold Lease.pull
    generalize Engine.pull buffer l'.handle.processor l'.engine = answer at count ⊢
    rcases answer with ⟨_ | _, p, e⟩ <;> exact ended.same rfl count
  | endStream =>
    rw [Lease.endStream, if_neg ended.stopped]
    exact ended
  | remaining => exact ended.same rfl fun counter => counter.remaining _ _
  | close allowed =>
    rw [Lease.close, Lease.endStream, if_neg ended.stopped]
    exact ⟨by simp, fun open_ => absurd allowed open_, ended.once⟩

theorem Ended.uses (ended : l.Ended closes l') (uses : l'.Uses closes l'') :
    l.Ended closes l'' := by
  induction uses with
  | refl => exact ended
  | tail _ touch ih => exact ih.touch touch

end Lease

/-- A drain closes the handle on success, and otherwise leaves it draining unless its step closed
it. In any case its processor is told the end of the stream once. -/
theorem drain_handle {policy : DrainPolicy}
    {step : Lease ε π → τ → Outcome Unit × Lease ε π × τ} {l : Lease ε π} {t : τ} {closes : Prop}
    (streaming : l.handle.state = .streaming) (uses : ∀ l t, Lease.Uses closes l (step l t).2.1) :
    let answer := drain policy step l t
    (answer.1.isOk = true → answer.2.1.handle.state = .closed) ∧
      (answer.1.isOk = false → ¬ closes → answer.2.1.handle.state = .draining) ∧
      ∀ counter : EndCount ε π, counter.count answer.2.1.engine = counter.count l.engine + 1 := by
  intro answer
  obtain ⟨l', ended, last⟩ := drain_keeps (fun l' _ => l.Ended closes l') policy step
    (fun l' t' ended => ended.uses (uses l' t'))
    (fun l' _ ended => ended.touch (.remaining l')) (t := t) (Lease.ended_endStream streaming)
  rcases last with ⟨failed, left⟩ | ⟨passed, closed⟩
  · refine ⟨fun ok => ?_, fun _ open_ => ?_, fun counter => ?_⟩
    · rw [failed] at ok
      cases ok
    · rw [left]
      exact ended.draining open_
    · rw [left]
      exact ended.once counter
  · refine ⟨fun _ => ?_, fun error => ?_, fun counter => ?_⟩
    · rw [closed]
      rfl
    · rw [passed] at error
      cases error
    · rw [closed, Lease.close, Lease.endStream, if_neg ended.stopped]
      exact ended.once counter

end polling

end FrameRelay
