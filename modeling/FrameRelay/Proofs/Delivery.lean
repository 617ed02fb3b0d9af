import FrameRelay.Engine.Scripted
import FrameRelay.Proofs.Notes

/-! What goes out of a stage on the scripted engine when its sink is willing: each output that is
ready becomes one frame on the link, and a drain brings out what the engine still holds, one output
for each poll. -/

namespace FrameRelay

/-- A sink that accepts everything for as long as `good` holds, which it does from then on. -/
structure Sink.Willing {σ : Type} [Sink σ] (good : σ → Prop) : Prop where
  accept (frame : Frame) {s : σ} (here : good s) : ∃ s', good s' ∧
    (Sink.accept frame s = (.kept, s') ∨ Sink.accept frame s = (.consumed, s'))
  finish {s : σ} (here : good s) : ∃ s', good s' ∧ Sink.finish s = (.ok (), s')

/-- A recorder that was told to refuse nothing. -/
def Recorder.Open (r : Recorder) : Prop := r.refusedPts = [] ∧ r.refusesEnd = false

theorem Recorder.willing_open : Sink.Willing Recorder.Open where
  accept frame r here := by
    obtain ⟨frames, ends⟩ := here
    simp only [Sink.accept, Recorder.accept, frames, List.not_mem_nil, if_false]
    cases r.keeps with
    | true =>
      refine ⟨_, ?_, .inl rfl⟩
      exact ⟨rfl, ends⟩
    | false =>
      refine ⟨_, ?_, .inr rfl⟩
      exact ⟨rfl, ends⟩
  finish {r} here := by
    obtain ⟨frames, ends⟩ := here
    simp only [Sink.finish, Recorder.finish, ends, Bool.false_eq_true, if_false]
    refine ⟨_, ?_, rfl⟩
    exact ⟨frames, rfl⟩

/-- The frame that an output of the scripted engine, a pts and a fill value, is sent as. -/
def Link.filled (link : Link) (aspect : Ratio) (output : Int × UInt16) : Frame where
  width := link.width
  height := link.height
  format := link.format
  pts := output.1
  aspect := aspect
  lineSize := 3 * link.width
  samples := Array.replicate (3 * link.width * link.height) output.2
  pooled := true

/-- A buffer before it is filled. -/
def Link.blank (link : Link) : Frame := link.filled .one (0, 0)

/-- The frames that go out for some outputs, those with a negative pts left out. -/
def Link.send (link : Link) (aspect : Ratio) (outputs : List (Int × UInt16)) : List Frame :=
  (outputs.filter fun output => 0 ≤ output.1).map (link.filled aspect)

theorem Link.send_append (link : Link) (aspect : Ratio) (first second : List (Int × UInt16)) :
    link.send aspect (first ++ second) = link.send aspect first ++ link.send aspect second := by
  rw [send, List.filter_append, List.map_append, ← send, ← send]

section cons
variable {output : Int × UInt16}

theorem Link.send_cons_of_neg (link : Link) (aspect : Ratio) (suppressed : output.1 < 0)
    (rest : List (Int × UInt16)) : link.send aspect (output :: rest) = link.send aspect rest := by
  have left_out : ¬ 0 ≤ output.1 := by omega
  simp [send, left_out]

theorem Link.send_cons_of_not_neg (link : Link) (aspect : Ratio) (wanted : ¬ output.1 < 0)
    (rest : List (Int × UInt16)) :
    link.send aspect (output :: rest) = link.filled aspect output :: link.send aspect rest := by
  have kept : 0 ≤ output.1 := by omega
  simp [send, kept]

end cons

section delivery
variable {σ : Type}

/-- The outlet of a stream that is open on a link, its sink willing and offered the frames. -/
structure Outlet.Delivered (link : Link) (good : σ → Prop) (frames : List Frame)
    (o : Outlet (Noted σ SinkCall)) : Prop where
  link : o.link = some link
  endSent : o.endSent = false
  good : good o.sink.inner
  notes : o.sink.notes = frames.map .offered

namespace Outlet
variable {link : Link} {good : σ → Prop} {frames : List Frame}
  {o : Outlet (Noted σ SinkCall)}

theorem Delivered.release (delivered : o.Delivered link good frames) (frame : Frame) :
    (o.release frame).Delivered link good frames :=
  ⟨delivered.link, delivered.endSent, delivered.good, delivered.notes⟩

theorem Delivered.releaseSlot (delivered : o.Delivered link good frames) (slot : Option Frame) :
    (o.releaseSlot slot).Delivered link good frames :=
  ⟨delivered.link, delivered.endSent, delivered.good, delivered.notes⟩

variable [Sink σ]

theorem Delivered.push (willing : Sink.Willing good) (delivered : o.Delivered link good frames)
    (frame : Frame) :
    ∃ o', o.push frame = (.ok (), o') ∧ o'.Delivered link good (frames ++ [frame]) := by
  obtain ⟨sink, here, answer⟩ := willing.accept frame delivered.good
  have noted : o.sink.notes ++ [.offered frame] = (frames ++ [frame]).map .offered := by
    rw [delivered.notes, List.map_append]
    rfl
  unfold Outlet.push
  rcases answer with kept | consumed
  · simp only [Sink.accept, kept]
    exact ⟨_, rfl, delivered.link, delivered.endSent, here, noted⟩
  · simp only [Sink.accept, consumed]
    exact ⟨_, rfl, delivered.link, delivered.endSent, here, noted⟩

theorem Delivered.endStream (willing : Sink.Willing good)
    (delivered : o.Delivered link good frames) :
    ∃ o', o.endStream = (.ok (), o') ∧ o'.endSent = true ∧
      o'.sink.notes = frames.map .offered ++ [.ended] := by
  obtain ⟨sink, _, answer⟩ := willing.finish delivered.good
  unfold Outlet.endStream
  simp only [delivered.endSent, Bool.false_eq_true, if_false, Sink.finish, answer]
  exact ⟨_, rfl, rfl, congrArg (· ++ [SinkCall.ended]) delivered.notes⟩

end Outlet

namespace Lease

/-- The lease after so many outputs were pulled, with what is still ready. -/
def leftWith (ready : List (Int × UInt16)) (pulled : Nat) (l : Lease Script Unit) :
    Lease Script Unit :=
  ⟨{ l.engine with ready }, { l.handle with emitted := l.handle.emitted + pulled }⟩

variable [Sink σ] {link : Link} {good : σ → Prop}

theorem pull_ready {l : Lease Script Unit} {output : Int × UInt16} {rest : List (Int × UInt16)}
    (works : l.engine.knobs.failOutput = false) (ready : l.engine.ready = output :: rest)
    (buffer : Buffer) :
    l.pull buffer = (.ok (output.1, Array.replicate buffer.samples.size output.2),
      l.leftWith rest 1) := by
  simp only [pull, Engine.pull, Script.pop, ready, works, Bool.false_eq_true, if_false, Except.map]
  rfl

theorem addFrom_cons (reference : Frame) (count left index pushed : Nat) {l : Lease Script Unit}
    {out : Outlet σ} {output : Int × UInt16} {rest : List (Int × UInt16)}
    (works : l.engine.knobs.failOutput = false) (linked : out.link = some link)
    (ready : l.engine.ready = output :: rest) :
    addFrom reference count (left + 1) index pushed l out =
      if output.1 < 0 then
        addFrom reference count left (index + 1) pushed (l.leftWith rest 1) out
      else
        match { out with pool := ⟨out.pool.live + 1⟩ }.push
          (link.filled reference.aspect output) with
        | (.error cause, out) => (.error cause, l.leftWith rest 1, out)
        | (.ok (), out) =>
          addFrom reference count left (index + 1) (pushed + 1) (l.leftWith rest 1) out := by
  have buffered : out.buffer = (.ok link.blank, { out with pool := ⟨out.pool.live + 1⟩ }) := by
    rw [Outlet.buffer, linked]
    rfl
  have filled : { link.blank.withPropsOf reference with
      pts := output.1, samples := Array.replicate link.blank.samples.size output.2 } =
        link.filled reference.aspect output := by
    simp [Frame.withPropsOf, Link.blank, Link.filled]
  have let_go : { out with pool := ⟨out.pool.live + 1⟩ }.release
      (link.filled reference.aspect output) = out := by
    simp [Outlet.release, Pool.release, Link.filled]
  by_cases suppressed : output.1 < 0
  · simp only [addFrom, buffered, pull_ready works ready, filled, let_go, if_pos suppressed]
  · rw [if_neg suppressed]
    rcases handed : { out with pool := ⟨out.pool.live + 1⟩ }.push
      (link.filled reference.aspect output) with ⟨cause | ⟨⟩, out'⟩ <;>
      simp only [addFrom, buffered, pull_ready works ready, filled, if_neg suppressed, handed]

theorem addFrom_delivers (willing : Sink.Willing good) (reference : Frame) (count : Nat)
    {outputs : List (Int × UInt16)} (index pushed : Nat) {l : Lease Script Unit}
    {out : Outlet (Noted σ SinkCall)} {frames : List Frame}
    (works : l.engine.knobs.failOutput = false) (ready : l.engine.ready = outputs)
    (delivered : out.Delivered link good frames) :
    ∃ total l' out', addFrom reference count outputs.length index pushed l out =
        (.ok total, l', out') ∧ l'.engine = { l.engine with ready := [] } ∧
      l'.handle.state = l.handle.state ∧
      out'.Delivered link good (frames ++ link.send reference.aspect outputs) := by
  induction outputs generalizing index pushed l out frames with
  | nil =>
    have same : l.engine = { l.engine with ready := [] } := by rw [← ready]
    exact ⟨pushed, l, out, rfl, same, rfl, by simpa [Link.send] using delivered⟩
  | cons output rest ih =>
    rw [List.length_cons, addFrom_cons reference count _ index pushed works delivered.link ready]
    by_cases suppressed : output.1 < 0
    · rw [if_pos suppressed]
      obtain ⟨total, l', out', added, engine, state, sent⟩ :=
        ih (index + 1) pushed (l := l.leftWith rest 1) works rfl delivered
      refine ⟨total, l', out', added, engine, state, ?_⟩
      rwa [link.send_cons_of_neg reference.aspect suppressed]
    · have blank : { out with pool := ⟨out.pool.live + 1⟩ }.Delivered link good frames :=
        ⟨delivered.link, delivered.endSent, delivered.good, delivered.notes⟩
      obtain ⟨out', handed, sent_one⟩ := blank.push willing (link.filled reference.aspect output)
      simp only [if_neg suppressed, handed]
      obtain ⟨total, l', out', added, engine, state, sent⟩ :=
        ih (index + 1) (pushed + 1) (l := l.leftWith rest 1) works rfl sent_one
      refine ⟨total, l', out', added, engine, state, ?_⟩
      rw [link.send_cons_of_not_neg reference.aspect suppressed]
      simpa using sent

theorem addOutput_delivers (willing : Sink.Willing good) (reference : Frame)
    {l : Lease Script Unit} {out : Outlet (Noted σ SinkCall)} {frames : List Frame}
    (works : l.engine.knobs.failOutput = false) (delivered : out.Delivered link good frames) :
    ∃ total l' out', addOutput reference l out = (.ok total, l', out') ∧
      l'.engine = { l.engine with ready := [] } ∧ l'.handle.state = l.handle.state ∧
      out'.Delivered link good (frames ++ link.send reference.aspect l.engine.ready) :=
  addFrom_delivers willing reference l.engine.ready.length 0 0 (l := l.ready.2) works rfl delivered

end Lease

theorem Script.remaining_of_held {s : Script} {outputs : List (Int × UInt16)}
    (moves : s.knobs.stall = false) (ended : 0 < s.endStreamCalls) (ready : s.ready = [])
    (held : s.held = outputs) :
    s.remaining = (outputs.length, { s with
      remainingCalls := s.remainingCalls + 1
      ready := outputs.take 1
      held := outputs.drop 1 }) := by
  cases outputs with
  | nil => simp [remaining, pending, ready, held]
  | cons output rest => simp [remaining, pending, ready, held, moves, ended, Nat.add_comm]

/-- The engine while it is drained: one of the outputs that remain is ready, the others are held. -/
structure Script.Drains (outputs : List (Int × UInt16)) (s : Script) : Prop where
  works : s.knobs.failOutput = false
  moves : s.knobs.stall = false
  ended : 0 < s.endStreamCalls
  ready : s.ready = outputs.take 1
  held : s.held = outputs.drop 1

theorem Script.Drains.remaining {s : Script} {output : Int × UInt16}
    {rest : List (Int × UInt16)} (drains : s.Drains (output :: rest)) :
    ∃ s', { s with ready := [] }.remaining = (rest.length, s') ∧ s'.Drains rest :=
  ⟨_, remaining_of_held (s := { s with ready := [] }) drains.moves drains.ended rfl drains.held,
    drains.works, drains.moves, drains.ended, rfl, rfl⟩

theorem remaining_of_endStream {l : Lease Script Unit} (streaming : l.handle.state = .streaming)
    (works : l.engine.knobs.failOutput = false) (moves : l.engine.knobs.stall = false)
    (ready : l.engine.ready = []) :
    ∃ l', l.endStream.remaining = (l.engine.held.length, l') ∧
      l'.engine.Drains l.engine.held := by
  have counted := Script.remaining_of_held
    (s := { l.engine with endStreamCalls := l.engine.endStreamCalls + 1 })
    moves (Nat.succ_pos _) ready rfl
  simp only [Lease.endStream, streaming, if_true, Engine.endStream, Lease.remaining,
    Engine.remaining, counted]
  exact ⟨_, rfl, works, moves, Nat.succ_pos _, rfl, rfl⟩

theorem drainIgnoring_delivers (policy : DrainPolicy) {l : Lease Script Unit}
    (out : Outlet (Noted σ SinkCall)) (streaming : l.handle.state = .streaming)
    (works : l.engine.knobs.failOutput = false) (moves : l.engine.knobs.stall = false)
    (ready : l.engine.ready = []) (held : l.engine.held = []) :
    ∃ report l', l.drainIgnoring policy out = (.ok report, l', out) := by
  obtain ⟨l₁, found, _⟩ := remaining_of_endStream streaming works moves ready
  rw [Lease.drainIgnoring, drain, found, held]
  simp only [List.length_nil, Polling.run_of_empty]
  exact ⟨_, _, rfl⟩

section drain
variable [Sink σ] {link : Link} {good : σ → Prop} {policy : DrainPolicy} {l : Lease Script Unit}
  {out : Outlet (Noted σ SinkCall)} {frames : List Frame}

/-- One poll sends the output that is ready. It brings the count down by one unless that would be
one poll too many for the counter. -/
theorem poll_delivers (willing : Sink.Willing good) (patient : 1 ≤ policy.maxStalledPolls)
    (reference : Frame) (polls : Nat) {output : Int × UInt16} {rest : List (Int × UInt16)}
    (drains : l.engine.Drains (output :: rest)) (delivered : out.Delivered link good frames) :
    ∃ l₁ l' out', (Polling.mk polls 0 (output :: rest).length l out).poll policy
        (Lease.pass reference) =
          (if Number.shortLimit ≤ polls + 1 then .inl (.error (.fault .overflow), l₁, out')
          else .inr ⟨polls + 1, 0, rest.length, l', out'⟩) ∧
      l'.engine.Drains rest ∧
      out'.Delivered link good (frames ++ link.send reference.aspect [output]) := by
  obtain ⟨total, l₁, out', added, engine, -, sent⟩ :=
    Lease.addOutput_delivers willing reference drains.works delivered
  rw [drains.ready] at sent
  obtain ⟨s', counted, drains'⟩ := drains.remaining
  refine ⟨l₁, l₁.withProcessor () s', out', ?_, drains', sent⟩
  have waits : ¬ policy.maxStalledPolls ≤ 0 := by omega
  have progress : rest.length ≠ rest.length + 1 := by omega
  simp only [Polling.poll, List.length_cons, Nat.succ_ne_zero, if_false, if_neg waits, Lease.pass,
    added, Except.map, Lease.remaining, Engine.remaining, engine, counted, if_neg progress]

/-- With each poll the count goes down by one, so that a drain which puts up with a single poll
without progress comes to its end. -/
theorem polling_delivers (willing : Sink.Willing good) (patient : 1 ≤ policy.maxStalledPolls)
    (reference : Frame) {outputs : List (Int × UInt16)} (polls : Nat)
    (drains : l.engine.Drains outputs) (few : polls + outputs.length < Number.shortLimit)
    (delivered : out.Delivered link good frames) :
    ∃ l' out', (Polling.mk polls 0 outputs.length l out).run policy (Lease.pass reference) =
        (.ok (polls + outputs.length), l', out') ∧
      out'.Delivered link good (frames ++ link.send reference.aspect outputs) := by
  induction outputs generalizing polls l out frames with
  | nil =>
    exact ⟨l, out, Polling.run_of_empty _ _ rfl, by simpa [Link.send] using delivered⟩
  | cons output rest ih =>
    have total : polls + (output :: rest).length = polls + 1 + rest.length := by
      rw [List.length_cons]
      omega
    have counts : ¬ Number.shortLimit ≤ polls + 1 := by omega
    obtain ⟨_, l₁, out₁, polled, drains', sent⟩ :=
      poll_delivers willing patient reference polls drains delivered
    rw [if_neg counts] at polled
    obtain ⟨l', out', ran, done⟩ := ih (polls + 1) drains' (total ▸ few) sent
    rw [List.append_assoc, ← Link.send_append] at done
    refine ⟨l', out', ?_, done⟩
    rw [Polling.run_of_next polled, total]
    exact ran

/-- More outputs than the polls can count end the drain in a fault. -/
theorem polling_overflows (willing : Sink.Willing good) (patient : 1 ≤ policy.maxStalledPolls)
    (reference : Frame) {outputs : List (Int × UInt16)} (polls : Nat)
    (drains : l.engine.Drains outputs) (counts : polls < Number.shortLimit)
    (many : Number.shortLimit ≤ polls + outputs.length)
    (delivered : out.Delivered link good frames) :
    ∃ l' out', (Polling.mk polls 0 outputs.length l out).run policy (Lease.pass reference) =
      (.error (.fault .overflow), l', out') := by
  induction outputs generalizing polls l out frames with
  | nil =>
    rw [List.length_nil] at many
    omega
  | cons output rest ih =>
    obtain ⟨l₁, l', out', polled, drains', sent⟩ :=
      poll_delivers willing patient reference polls drains delivered
    by_cases last : Number.shortLimit ≤ polls + 1
    · rw [if_pos last] at polled
      exact ⟨l₁, out', Polling.run_of_answer polled⟩
    · rw [if_neg last] at polled
      rw [Polling.run_of_next polled]
      rw [List.length_cons] at many
      exact ih (polls + 1) drains' (by omega) (by omega) sent

/-- The drain with the last frame as the reference brings out all that is held, as far as the polls
can be counted. -/
theorem postflight_delivers (willing : Sink.Willing good) (patient : 1 ≤ policy.maxStalledPolls)
    (reference : Frame) (streaming : l.handle.state = .streaming)
    (works : l.engine.knobs.failOutput = false) (moves : l.engine.knobs.stall = false)
    (ready : l.engine.ready = []) (delivered : out.Delivered link good frames) :
    (l.engine.held.length < Number.shortLimit →
      ∃ report l' out', l.postflight policy (some reference) out = (.ok report, l', out') ∧
        out'.Delivered link good (frames ++ link.send reference.aspect l.engine.held)) ∧
    (Number.shortLimit ≤ l.engine.held.length →
      ∃ l' out', l.postflight policy (some reference) out =
        (.error (.fault .overflow), l', out')) := by
  obtain ⟨l₁, found, drains⟩ := remaining_of_endStream streaming works moves ready
  have passes : l.postflight policy (some reference) out =
      drain policy (Lease.pass reference) l out := rfl
  rw [passes, drain, found]
  refine ⟨fun few => ?_, fun many => ?_⟩
  · obtain ⟨l₂, out', polled, done⟩ :=
      polling_delivers willing patient reference 0 drains (by omega) delivered
    simp only [polled]
    exact ⟨_, _, out', rfl, done⟩
  · obtain ⟨l₂, out', polled⟩ := polling_overflows willing patient reference 0 drains
      (by decide) (by omega) delivered
    simp only [polled]
    exact ⟨l₂, out', rfl⟩

end drain

end delivery

end FrameRelay
