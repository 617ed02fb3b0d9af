import FrameRelay.Engine.Handle
import FrameRelay.Stage.Outlet

/-! Draining at the end of a stream: the processor is polled until nothing remains. A count that
does not move for too many polls in a row fails the drain. -/

namespace FrameRelay

inductive StreamState where
  | streaming
  | draining
  | closed
  | failed
  deriving Repr, DecidableEq, Inhabited

def StreamState.text : StreamState → String
  | .streaming => "streaming"
  | .draining => "draining"
  | .closed => "closed"
  | .failed => "failed"

structure DrainPolicy where
  interval : Duration
  maxStalledPolls : Nat
  deriving Repr, DecidableEq, Inhabited

namespace DrainPolicy

/-- Stages that hand frames on poll often, since their outputs are discarded. -/
def estimation : DrainPolicy := ⟨.ofMillis 20, 250⟩

/-- Stages that synthesize wait longer. -/
def postflight : DrainPolicy := ⟨.ofMillis 500, 50⟩

/-- The longest wait without progress, if its seconds can be counted. -/
def budget (policy : DrainPolicy) : Except Fault Duration :=
  let wait := policy.interval.times policy.maxStalledPolls
  if wait.seconds < Number.sizeLimit then .ok wait else .error .overflow

end DrainPolicy

structure DrainReport where
  polls : Nat
  waited : Duration
  deriving Repr, DecidableEq, Inhabited

/-- A drain under way: the polls so far, how many of the last ones brought nothing, and the count
that remains. -/
structure Polling (ε π τ : Type) where
  polls : Nat
  stalled : Nat
  remaining : Nat
  lease : Lease ε π
  other : τ

section
variable {ε π τ : Type} [Engine ε π]

/-- Pulls what is ready and asks what remains. Answers when nothing does, when the count did not
move for too long, when the pull fails, and when the polls outgrow their counter. The waits add up
to `polls` intervals. -/
def Polling.poll (policy : DrainPolicy) (step : Lease ε π → τ → Outcome Unit × Lease ε π × τ)
    (p : Polling ε π τ) : (Outcome Nat × Lease ε π × τ) ⊕ Polling ε π τ :=
  if p.remaining = 0 then .inl (.ok p.polls, p.lease, p.other)
  else if policy.maxStalledPolls ≤ p.stalled then
    .inl (.error (.drainTimeout p.remaining p.polls (policy.interval.times p.polls)),
      p.lease, p.other)
  else
    match step p.lease p.other with
    | (.error cause, l, t) => .inl (.error cause, l, t)
    | (.ok (), l, t) =>
      if Number.shortLimit ≤ p.polls + 1 then .inl (.error (.fault .overflow), l, t)
      else
        let (now, l) := l.remaining
        .inr ⟨p.polls + 1, if now = p.remaining then p.stalled + 1 else 0, now, l, t⟩

theorem Polling.fewer_left {policy : DrainPolicy}
    {step : Lease ε π → τ → Outcome Unit × Lease ε π × τ} {p next : Polling ε π τ}
    (polled : p.poll policy step = .inr next) :
    Number.shortLimit - next.polls < Number.shortLimit - p.polls := by
  unfold poll at polled
  split at polled
  · cases polled
  split at polled
  · cases polled
  split at polled
  · cases polled
  split at polled
  · cases polled
  · cases polled
    dsimp only
    omega

/-- Polls until there is an answer, which the counter of the polls brings about in any case. -/
def Polling.run (policy : DrainPolicy) (step : Lease ε π → τ → Outcome Unit × Lease ε π × τ)
    (p : Polling ε π τ) : Outcome Nat × Lease ε π × τ :=
  match polled : p.poll policy step with
  | .inl answer => answer
  | .inr next =>
    have := fewer_left polled
    next.run policy step
termination_by Number.shortLimit - p.polls

/-- Ends the stream and polls with `step`. The handle is closed on success and left draining on
failure. -/
def drain (policy : DrainPolicy) (step : Lease ε π → τ → Outcome Unit × Lease ε π × τ)
    (l : Lease ε π) (t : τ) : Outcome DrainReport × Lease ε π × τ :=
  let (remaining, l) := l.endStream.remaining
  match Polling.run policy step ⟨0, 0, remaining, l, t⟩ with
  | (.error cause, l, t) => (.error cause, l, t)
  | (.ok polls, l, t) => (.ok ⟨polls, policy.interval.times polls⟩, l.close, t)

end

end FrameRelay
