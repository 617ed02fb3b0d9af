import FrameRelay.Proofs.Drain
import FrameRelay.Proofs.Steps
import Mathlib.Logic.Relation

/-! What serving a processor does to an outlet: buffers are taken for outputs, and each is dropped
or handed to the sink. Nothing else happens to the outlet while a stream runs or is drained. -/

namespace FrameRelay

namespace Outlet
variable {σ : Type}

theorem buffer_of_error {o o' : Outlet σ} {cause : StageError}
    (refused : o.buffer = (.error cause, o')) : o' = o := by
  rcases o with ⟨_ | link, sink, pool, pushed, endSent⟩
  · cases refused
    rfl
  · cases refused

variable [Sink σ]

/-- One buffer is taken and, filled or not, let go or handed on. -/
inductive Emits : Outlet σ → Outlet σ → Prop where
  | dropped {o o' : Outlet σ} {buffer filled : Frame} (taken : o.buffer = (.ok buffer, o'))
      (same : filled.pooled = buffer.pooled) : Emits o (o'.release filled)
  | handed {o o' : Outlet σ} {buffer filled : Frame} (taken : o.buffer = (.ok buffer, o'))
      (same : filled.pooled = buffer.pooled) : Emits o (o'.push filled).2

/-- Any number of buffers, one after another. -/
abbrev Emission : Outlet σ → Outlet σ → Prop := Relation.ReflTransGen Emits

end Outlet

namespace Lease
variable {ε π σ τ : Type} [Engine ε π] [Sink σ]

theorem emission_addFrom (reference : Frame) (count left index pushed : Nat) (l : Lease ε π)
    (out : Outlet σ) :
    out.Emission (addFrom reference count left index pushed l out).2.2 := by
  induction left generalizing index pushed l out with
  | zero => exact .refl
  | succ left ih =>
    simp only [addFrom]
    cases taken : out.buffer with
    | mk result out' =>
    rcases result with cause | frame
    · rw [Outlet.buffer_of_error taken]
    dsimp only
    rcases l.pull ⟨frame.samples, frame.lineSize⟩ with ⟨_ | ⟨pts, samples⟩, l'⟩
    · exact .single (.dropped taken rfl)
    dsimp only
    split
    · exact .head (.dropped taken rfl) (ih _ _ _ _)
    · have handed : out.Emits (out'.push { frame.withPropsOf reference with pts, samples }).2 :=
        .handed taken rfl
      generalize out'.push { frame.withPropsOf reference with pts, samples } = answer at handed ⊢
      rcases answer with ⟨_ | _, out''⟩
      · exact .single handed
      · exact .head handed (ih _ _ _ _)

theorem emission_addOutput (reference : Frame) (l : Lease ε π) (out : Outlet σ) :
    out.Emission (addOutput reference l out).2.2 := emission_addFrom _ _ _ _ _ _ _

theorem drainIgnoring_other (policy : DrainPolicy) (l : Lease ε π) (t : τ) :
    (l.drainIgnoring policy t).2.2 = t := by
  obtain ⟨_, same, _⟩ := drain_keeps (fun (_ : Lease ε π) t' => t' = t) policy
    (fun l t => (.ok (), l.ignoreOutput.2, t)) (fun _ _ same => same) (fun _ _ same => same)
    (l := l) rfl
  exact same

theorem emission_postflight (policy : DrainPolicy) (previous : Option Frame) (l : Lease ε π)
    (out : Outlet σ) : out.Emission (l.postflight policy previous out).2.2 := by
  cases previous with
  | none => rw [postflight, drainIgnoring_other]
  | some reference =>
    obtain ⟨_, emitted, _⟩ := drain_keeps (fun (_ : Lease ε π) out' => out.Emission out') policy
      (pass reference)
      (fun l out' emitted => emitted.trans (emission_addOutput reference l out'))
      (fun _ _ emitted => emitted) (l := l) .refl
    exact emitted

end Lease

namespace Station
variable {ε π σ : Type} [Engine ε π]

theorem out_close (s : Station ε π σ) : s.close.out = s.out := by
  rcases s with ⟨engine, ⟨_ | handle, settings, policy⟩, previous, out⟩ <;> rfl

theorem previous_close (s : Station ε π σ) : s.close.previous = s.previous := by
  rcases s with ⟨engine, ⟨_ | handle, settings, policy⟩, previous, out⟩ <;> rfl

theorem openStream_apart (settings : StreamSettings) (link : Link) (s : Station ε π σ) :
    (s.openStream settings link).2.out = s.close.out ∧
      (s.openStream settings link).2.previous = s.close.previous := by
  simp only [openStream]
  rcases settings.resolve (Engine.offer s.close.engine) link with _ | ⟨spec, outLink⟩
  · exact ⟨rfl, rfl⟩
  · dsimp only
    rcases Engine.create spec s.close.engine with ⟨_ | _, engine⟩ <;> exact ⟨rfl, rfl⟩

theorem pushed_configures {link : Link} {succeeds : Bool} {s s' : Station ε π σ}
    (configures : s.Configures link succeeds s') : s'.out.pushed = s.out.pushed := by
  induction configures with
  | left s => rfl
  | opened settings s => rw [(openStream_apart settings link s).1, out_close]
  | cleared _ ih => exact ih

theorem ignoreOutput_apart (s : Station ε π σ) :
    s.ignoreOutput.out = s.out ∧ s.ignoreOutput.previous = s.previous := by
  rcases s with ⟨engine, ⟨_ | handle, settings, policy⟩, previous, out⟩ <;> exact ⟨rfl, rfl⟩

theorem drainIgnoring_apart (s : Station ε π σ) :
    s.drainIgnoring.2.out = s.out ∧ s.drainIgnoring.2.previous = s.previous := by
  rcases s with ⟨engine, ⟨_ | handle, settings, policy⟩, previous, out⟩
  · exact ⟨rfl, rfl⟩
  · exact ⟨Lease.drainIgnoring_other policy ⟨engine, handle⟩ out, rfl⟩

variable [Sink σ]

theorem emission_addOutput (reference : Frame) (s : Station ε π σ) :
    s.out.Emission (s.addOutput reference).2.out ∧
      (s.addOutput reference).2.previous = s.previous := by
  rcases s with ⟨engine, ⟨_ | handle, settings, policy⟩, previous, out⟩
  · exact ⟨.refl, rfl⟩
  · exact ⟨Lease.emission_addOutput reference ⟨engine, handle⟩ out, rfl⟩

theorem emission_postflight (s : Station ε π σ) :
    s.out.Emission s.postflight.2.out ∧ s.postflight.2.previous = s.previous := by
  rcases s with ⟨engine, ⟨_ | handle, settings, policy⟩, previous, out⟩
  · exact ⟨.refl, rfl⟩
  · exact ⟨Lease.emission_postflight policy previous ⟨engine, handle⟩ out, rfl⟩

end Station

end FrameRelay
