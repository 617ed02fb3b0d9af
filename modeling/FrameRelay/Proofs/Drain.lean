import FrameRelay.Stage.Run

/-! What a drain leaves as it was: all that its steps and the counts between them leave. -/

namespace FrameRelay

section
variable {ε π τ : Type} [Engine ε π]

theorem Polling.poll_keeps {Holds : Lease ε π → τ → Prop} (policy : DrainPolicy)
    {step : Lease ε π → τ → Outcome Unit × Lease ε π × τ}
    (kept : ∀ l t, Holds l t → Holds (step l t).2.1 (step l t).2.2)
    (counted : ∀ l t, Holds l t → Holds l.remaining.2 t) (p : Polling ε π τ)
    (here : Holds p.lease p.other) :
    Sum.elim (fun answer => Holds answer.2.1 answer.2.2) (fun next => Holds next.lease next.other)
      (p.poll policy step) := by
  unfold poll
  split
  · exact here
  split
  · exact here
  have next := kept p.lease p.other here
  generalize step p.lease p.other = taken at next
  rcases taken with ⟨_ | _, l, t⟩
  · exact next
  · dsimp only
    split
    · exact next
    · exact counted l t next

theorem Polling.run_of_answer {policy : DrainPolicy}
    {step : Lease ε π → τ → Outcome Unit × Lease ε π × τ} {p : Polling ε π τ}
    {answer : Outcome Nat × Lease ε π × τ} (polled : p.poll policy step = .inl answer) :
    p.run policy step = answer := by
  rw [run]
  split
  · next answer' polled' => rw [polled] at polled'; cases polled'; rfl
  · next polled' => rw [polled] at polled'; cases polled'

theorem Polling.run_of_empty (policy : DrainPolicy)
    (step : Lease ε π → τ → Outcome Unit × Lease ε π × τ) {p : Polling ε π τ}
    (empty : p.remaining = 0) : p.run policy step = (.ok p.polls, p.lease, p.other) :=
  run_of_answer (if_pos empty)

theorem Polling.run_of_next {policy : DrainPolicy}
    {step : Lease ε π → τ → Outcome Unit × Lease ε π × τ} {p later : Polling ε π τ}
    (polled : p.poll policy step = .inr later) : p.run policy step = later.run policy step := by
  rw [run]
  split
  · next polled' => rw [polled] at polled'; cases polled'
  · next polled' => rw [polled] at polled'; cases polled'; rfl

theorem Polling.run_keeps {Holds : Lease ε π → τ → Prop} (policy : DrainPolicy)
    {step : Lease ε π → τ → Outcome Unit × Lease ε π × τ}
    (kept : ∀ l t, Holds l t → Holds (step l t).2.1 (step l t).2.2)
    (counted : ∀ l t, Holds l t → Holds l.remaining.2 t) (p : Polling ε π τ)
    (here : Holds p.lease p.other) :
    Holds (p.run policy step).2.1 (p.run policy step).2.2 := by
  have passed (p : Polling ε π τ) (here : Holds p.lease p.other) :=
    poll_keeps policy kept counted p here
  fun_induction run policy step p with
  | case1 p answer polled =>
    have last := passed p here
    rw [polled] at last
    exact last
  | case2 p next polled _ ih =>
    have later := passed p here
    rw [polled] at later
    exact ih later

/-- A drain keeps what its steps keep. On success it closes the handle in the end, and otherwise it
leaves it. -/
theorem drain_keeps (Holds : Lease ε π → τ → Prop) (policy : DrainPolicy)
    (step : Lease ε π → τ → Outcome Unit × Lease ε π × τ)
    (kept : ∀ l t, Holds l t → Holds (step l t).2.1 (step l t).2.2)
    (counted : ∀ l t, Holds l t → Holds l.remaining.2 t) {l : Lease ε π} {t : τ}
    (start : Holds l.endStream t) :
    ∃ l', Holds l' (drain policy step l t).2.2 ∧
      ((drain policy step l t).1.isOk = false ∧ (drain policy step l t).2.1 = l' ∨
        (drain policy step l t).1.isOk = true ∧ (drain policy step l t).2.1 = l'.close) := by
  have first := counted _ _ start
  unfold drain
  generalize l.endStream.remaining = answer at first
  have last := Polling.run_keeps policy kept counted ⟨0, 0, answer.1, answer.2, t⟩ first
  dsimp only
  generalize Polling.run policy step _ = r at last ⊢
  rcases r with ⟨_ | polls, l', t'⟩
  · exact ⟨_, last, Or.inl ⟨rfl, rfl⟩⟩
  · exact ⟨_, last, Or.inr ⟨rfl, rfl⟩⟩

namespace Lease
variable (Holds : Lease ε π → Prop)

theorem ignoreOutput_keeps (looked : ∀ l, Holds l → Holds l.ready.2)
    (discarded : ∀ l, Holds l → Holds l.discard.2) {l : Lease ε π} (here : Holds l) :
    Holds l.ignoreOutput.2 := by
  have many (count : Nat) (l : Lease ε π) (here : Holds l) : Holds (l.discardMany count) := by
    induction count generalizing l with
    | zero => exact here
    | succ count ih => exact ih _ (discarded l here)
  exact many _ _ (looked l here)

variable {σ : Type} [Sink σ]

theorem addFrom_keeps (pulled : ∀ buffer l, Holds l → Holds (l.pull buffer).2) (reference : Frame)
    (count left index pushed : Nat) {l : Lease ε π} (out : Outlet σ) (here : Holds l) :
    Holds (addFrom reference count left index pushed l out).2.1 := by
  induction left generalizing index pushed l out with
  | zero => exact here
  | succ left ih =>
    simp only [addFrom]
    rcases out.buffer with ⟨_ | frame, out⟩
    · exact here
    have next := pulled ⟨frame.samples, frame.lineSize⟩ l here
    dsimp only
    generalize l.pull ⟨frame.samples, frame.lineSize⟩ = answer at next ⊢
    rcases answer with ⟨_ | ⟨pts, samples⟩, l'⟩
    · exact next
    dsimp only
    split
    · exact ih _ _ _ next
    · rcases out.push { frame.withPropsOf reference with pts, samples } with ⟨_ | _, out⟩
      · exact next
      · exact ih _ _ _ next

theorem addOutput_keeps (looked : ∀ l, Holds l → Holds l.ready.2)
    (pulled : ∀ buffer l, Holds l → Holds (l.pull buffer).2) (reference : Frame) {l : Lease ε π}
    (out : Outlet σ) (here : Holds l) : Holds (addOutput reference l out).2.1 :=
  addFrom_keeps Holds pulled reference _ _ _ _ out (looked l here)

end Lease

end

end FrameRelay
