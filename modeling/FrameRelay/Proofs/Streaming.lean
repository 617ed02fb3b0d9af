import FrameRelay.Proofs.Delivery
import FrameRelay.Proofs.Painting
import FrameRelay.Proofs.Steps

/-! A stream on the simulated engine, from one pull to the next. The worker is idle between two
calls of the stage, so a processor is told by its kernel and the number of its submissions; what the
kernel makes of a frame goes out before the next one comes in, and the drain brings out the rest. -/

namespace FrameRelay
open Simulated (Processor)

/-- Rows without padding, and exactly the samples of them. -/
structure Frame.Tight (frame : Frame) : Prop where
  lineSize_eq : frame.lineSize = 3 * frame.width
  size_eq : frame.samples.size = 3 * frame.width * frame.height

/-- A sink that takes every tight frame. `book` tells which ones it took, and `shut` that the stream
has ended after them. -/
structure Sink.Keeps {σ : Type} [Sink σ] (book shut : List Frame → σ → Prop) : Prop where
  accept {frames : List Frame} {frame : Frame} {s : σ} (here : book frames s)
    (tight : frame.Tight) : ∃ s', book (frames ++ [frame]) s' ∧
      (Sink.accept frame s = (.kept, s') ∨ Sink.accept frame s = (.consumed, s'))
  finish {frames : List Frame} {s : σ} (here : book frames s) :
    ∃ s', shut frames s' ∧ Sink.finish s = (.ok (), s')

namespace Link

/-- A link whose frames have a row, or rows without samples. An output without rows still needs a
buffer of one row. -/
def Fillable (link : Link) : Prop := 0 < link.height ∨ link.width = 0

/-- The frame that an output of the simulated engine is sent as. -/
def framed (link : Link) (aspect : Ratio) (output : Output) : Frame where
  width := link.width
  height := link.height
  format := link.format
  pts := output.pts
  aspect := aspect
  lineSize := 3 * link.width
  samples := output.samples.getD #[]
  pooled := true

/-- The frames that go out for some outputs, those with a negative pts left out. -/
def relay (link : Link) (aspect : Ratio) (outputs : List Output) : List Frame :=
  (outputs.filter fun output => 0 ≤ output.pts).map (link.framed aspect)

theorem tight_framed {link : Link} {output : Output}
    (packed : output.Packed link.width link.height) (aspect : Ratio) :
    (link.framed aspect output).Tight := by
  obtain ⟨samples, there, size⟩ := packed.samples
  refine ⟨rfl, ?_⟩
  simp only [framed, there, Option.getD_some]
  exact size

theorem tight_relay {link : Link} {outputs : List Output}
    (packed : ∀ output ∈ outputs, output.Packed link.width link.height) (aspect : Ratio) :
    ∀ frame ∈ link.relay aspect outputs, frame.Tight := by
  simp only [relay, List.forall_mem_map]
  exact fun output inside => tight_framed (packed output (List.mem_filter.mp inside).1) aspect

end Link

section outlet
variable {σ : Type}

/-- The outlet of a stream that is open on a link, after its sink took the frames. -/
structure Outlet.Carries (link : Link) (book : List Frame → σ → Prop) (earlier : Nat)
    (frames : List Frame) (o : Outlet σ) : Prop where
  link : o.link = some link
  endSent : o.endSent = false
  book : book frames o.sink
  pushed : o.pushed = earlier + frames.length

namespace Outlet
variable {link : Link} {book shut : List Frame → σ → Prop} {earlier : Nat} {frames : List Frame}
  {o : Outlet σ}

theorem Carries.release (carries : o.Carries link book earlier frames) (frame : Frame) :
    (o.release frame).Carries link book earlier frames :=
  ⟨carries.link, carries.endSent, carries.book, carries.pushed⟩

theorem Carries.releaseSlot (carries : o.Carries link book earlier frames) (slot : Option Frame) :
    (o.releaseSlot slot).Carries link book earlier frames :=
  ⟨carries.link, carries.endSent, carries.book, carries.pushed⟩

theorem Carries.buffer (carries : o.Carries link book earlier frames) :
    ∃ o', o.buffer = (.ok link.blank, o') ∧ o'.Carries link book earlier frames := by
  rw [Outlet.buffer, carries.link]
  exact ⟨_, rfl, rfl, carries.endSent, carries.book, carries.pushed⟩

variable [Sink σ]

theorem Carries.push (keeps : Sink.Keeps book shut) (carries : o.Carries link book earlier frames)
    {frame : Frame} (tight : frame.Tight) :
    ∃ o', o.push frame = (.ok (), o') ∧ o'.Carries link book earlier (frames ++ [frame]) := by
  obtain ⟨sink, here, answer⟩ := keeps.accept carries.book tight
  have more : o.pushed + 1 = earlier + (frames ++ [frame]).length := by
    rw [carries.pushed, List.length_append, List.length_singleton, Nat.add_assoc]
  unfold Outlet.push
  rcases answer with kept | consumed
  · simp only [kept]
    exact ⟨_, rfl, carries.link, carries.endSent, here, more⟩
  · simp only [consumed]
    exact ⟨_, rfl, carries.link, carries.endSent, here, more⟩

theorem Carries.endStream (keeps : Sink.Keeps book shut)
    (carries : o.Carries link book earlier frames) :
    ∃ o', o.endStream = (.ok (), o') ∧ o'.endSent = true ∧ shut frames o'.sink ∧
      o'.pushed = earlier + frames.length := by
  obtain ⟨sink, here, answer⟩ := keeps.finish carries.book
  unfold Outlet.endStream
  simp only [carries.endSent, Bool.false_eq_true, if_false, answer]
  exact ⟨_, rfl, rfl, here, carries.pushed⟩

end Outlet

end outlet

namespace Simulated

theorem neededSamples_of_fillable {link : Link} (fillable : link.Fillable) :
    neededSamples (3 * link.width) link.height (3 * link.width) =
      3 * link.width * link.height := by
  unfold neededSamples
  rcases fillable with rows | empty
  · rw [← Nat.mul_succ, Nat.succ_eq_add_one, Nat.sub_add_cancel rows]
  · simp [empty]

theorem paint?_of_size {pixels : Array UInt16} {row rows : Nat} (buffer : Buffer)
    (pixels_size : pixels.size = row * rows) (buffer_size : buffer.samples.size = row * rows)
    (lineSize_eq : buffer.lineSize = row) (fills : 0 < rows ∨ row = 0) :
    paint? pixels row buffer = some pixels := by
  have fits : neededSamples buffer.lineSize rows row ≤ buffer.samples.size := by
    rw [lineSize_eq, buffer_size]
    rcases fills with some_rows | rfl
    · obtain ⟨before, rfl⟩ := Nat.exists_eq_add_one.mpr some_rows
      exact Nat.le_refl _
    · simp [neededSamples]
  obtain ⟨samples, painting, painted⟩ :=
    paint?_of_fits pixels_size (Nat.le_of_eq lineSize_eq.symm) fits
  have same : samples = pixels := by
    apply ext_rows (painted.size_eq.trans buffer_size) pixels_size
    intro y j line inside
    rw [← painted.pixel line inside, lineSize_eq]
  rw [painting, same]

theorem deliver_blank {link : Link} (fillable : link.Fillable) {output : Output}
    (packed : output.Packed link.width link.height) :
    deliver output ⟨link.blank.samples, link.blank.lineSize⟩ =
      .ok (output.pts, output.samples.getD #[]) := by
  obtain ⟨samples, there, size⟩ := packed.samples
  have blank_size : link.blank.samples.size = 3 * link.width * link.height := by
    simp [Link.blank, Link.filled]
  have line : link.blank.lineSize = 3 * link.width := rfl
  have enough : ¬ (link.blank.lineSize < 3 * link.width ∨ link.blank.samples.size <
      neededSamples link.blank.lineSize link.height (3 * link.width)) := by
    rw [line, neededSamples_of_fillable fillable, blank_size]
    omega
  have fills : 0 < link.height ∨ 3 * link.width = 0 := by
    rcases fillable with rows | empty
    · exact .inl rows
    · exact .inr (by omega)
  simp only [deliver, there, packed.width_eq, packed.height_eq, if_neg enough,
    paint?_of_size ⟨link.blank.samples, link.blank.lineSize⟩ size blank_size line fills,
    Option.getD_some]

end Simulated

/-- What a stream on the simulated engine runs with: the size of its pictures, the processor's word
on the size of its outputs, the period of the injected failures, the link it goes out on, what the
sink knows of the frames, and how many went out before the stream. -/
structure Channel (σ : Type) where
  width : Nat
  height : Nat
  outputSize : Option (Nat × Nat)
  rejectEvery : Option Nat
  link : Link
  book : List Frame → σ → Prop
  earlier : Nat

namespace Channel
variable {σ : Type}

/-- The processor of the stream when nothing is under way. -/
def processor (c : Channel σ) (kernel : Kernel) (submissions : Nat) : Processor where
  width := c.width
  height := c.height
  outputSize := c.outputSize
  rejectEvery := c.rejectEvery
  lane := .start kernel
  submissions := submissions
  ended := false

/-- What the processor finds in the frame it is given after so many others. -/
def examine (c : Channel σ) (kernel : Kernel) (submissions : Nat) (frame : Frame) :
    Except EngineError Picture :=
  (c.processor kernel (submissions + 1)).examine frame

theorem inService (c : Channel σ) (kernel : Kernel) (submissions : Nat) :
    (c.processor kernel submissions).InService kernel := ⟨rfl, rfl, rfl, rfl⟩

variable {c : Channel σ} {kernel kernel' : Kernel} {submissions : Nat} {frame : Frame}

theorem process_eq (c : Channel σ) (kernel : Kernel) (submissions : Nat) (frame : Frame) :
    (c.processor kernel submissions).process frame =
      match c.examine kernel submissions frame with
      | .error cause => (.error cause, c.processor kernel (submissions + 1))
      | .ok picture => (c.processor kernel (submissions + 1)).give (.picture picture) :=
  (c.inService kernel submissions).process frame

theorem process_of_taken {picture : Picture} {outputs : List Output}
    (taken : c.examine kernel submissions frame = .ok picture)
    (pushed : kernel.push? picture = some (kernel', outputs)) :
    (c.processor kernel submissions).process frame =
      (.ok (), (c.processor kernel (submissions + 1)).after kernel' outputs) := by
  rw [process_eq, taken]
  exact (c.inService kernel (submissions + 1)).give pushed

end Channel

namespace Simulated.Processor

/-- The processor with other outputs to be pulled. -/
def withReady (ready : List Output) (p : Processor) : Processor :=
  { p with lane := { p.lane with ready } }

theorem pop_of_cons {p : Processor} {output : Output} {rest : List Output}
    (ready : p.lane.ready = output :: rest) : p.pop = (.ok output, p.withReady rest) := by
  simp only [pop, ready]
  rfl

theorem endStream_of_finish {p : Processor} {kernel kernel' : Kernel} {outputs : List Output}
    {artifacts : List Artifact} (open_ : p.ended = false) (idle : p.lane = .start kernel)
    (finished : kernel.finish? = some (kernel', outputs, artifacts)) :
    p.endStream =
      { p with ended := true, lane := ⟨some kernel', [], 0, outputs, [], artifacts⟩ } := by
  obtain ⟨width, height, size, rejectEvery, lane, submissions, ended⟩ := p
  cases idle
  cases open_
  have ran : Lane.run? kernel .finish = some (kernel', outputs, artifacts) := finished
  have given := give_of_run (p := ⟨width, height, size, rejectEvery, .start kernel, submissions,
    true⟩) rfl rfl ran
  exact congrArg Prod.snd given

end Simulated.Processor

namespace Lease
variable {σ : Type} {link : Link} {book : List Frame → σ → Prop} {earlier : Nat}
  {frames : List Frame} {outputs : List Output} {l : Lease Simulated Processor} {out : Outlet σ}

theorem pull_blank (fillable : link.Fillable) {output : Output} {rest : List Output}
    (packed : output.Packed link.width link.height)
    (ready : l.handle.processor.lane.ready = output :: rest) :
    ∃ handle, l.pull ⟨link.blank.samples, link.blank.lineSize⟩ =
        (.ok (output.pts, output.samples.getD #[]), ⟨l.engine, handle⟩) ∧
      handle.state = l.handle.state ∧
      handle.processor = l.handle.processor.withReady rest := by
  simp only [pull, Engine.pull, Processor.pop_of_cons ready, Except.bind,
    Simulated.deliver_blank fillable packed]
  exact ⟨_, rfl, rfl, rfl⟩

theorem discardMany_ready (ready : l.handle.processor.lane.ready = outputs) :
    ∃ handle, l.discardMany outputs.length = ⟨l.engine, handle⟩ ∧
      handle.state = l.handle.state ∧ handle.processor = l.handle.processor.withReady [] := by
  induction outputs generalizing l with
  | nil =>
    refine ⟨l.handle, rfl, rfl, ?_⟩
    rw [Processor.withReady, ← ready]
  | cons output rest ih =>
    have first : l.discard.2 = ⟨l.engine, { l.handle with
        processor := l.handle.processor.withReady rest, emitted := l.handle.emitted + 1 }⟩ := by
      simp only [discard, Engine.discard, Processor.pop_of_cons ready, Except.map]
    rw [List.length_cons, discardMany, first]
    exact ih rfl

variable [Sink σ] {shut : List Frame → σ → Prop}

theorem addFrom_relays (keeps : Sink.Keeps book shut) (fillable : link.Fillable) (reference : Frame)
    (count index pushed : Nat)
    (packed : ∀ output ∈ outputs, output.Packed link.width link.height)
    (ready : l.handle.processor.lane.ready = outputs)
    (carries : out.Carries link book earlier frames) :
    ∃ total handle out', addFrom reference count outputs.length index pushed l out =
        (.ok total, ⟨l.engine, handle⟩, out') ∧ handle.state = l.handle.state ∧
      handle.processor = l.handle.processor.withReady [] ∧
      out'.Carries link book earlier (frames ++ link.relay reference.aspect outputs) := by
  induction outputs generalizing index pushed l out frames with
  | nil =>
    refine ⟨pushed, l.handle, out, rfl, rfl, ?_, by simpa [Link.relay] using carries⟩
    rw [Processor.withReady, ← ready]
  | cons output rest ih =>
    rw [List.forall_mem_cons] at packed
    obtain ⟨out₁, taken, blank⟩ := carries.buffer
    obtain ⟨handle, pulled, state, processor⟩ := pull_blank fillable packed.1 ready
    have filled : { link.blank.withPropsOf reference with
        pts := output.pts, samples := output.samples.getD #[] } =
          link.framed reference.aspect output := rfl
    have ready' : handle.processor.lane.ready = rest := by
      rw [processor]
      rfl
    have cleared : handle.processor.withReady [] = l.handle.processor.withReady [] := by
      rw [processor]
      rfl
    simp only [List.length_cons, addFrom, taken, pulled, filled]
    by_cases suppressed : output.pts < 0
    · rw [if_pos suppressed]
      obtain ⟨total, handle', out', added, state', processor', sent⟩ :=
        ih (index + 1) pushed packed.2 (l := ⟨l.engine, handle⟩) ready'
          (blank.release (link.framed reference.aspect output))
      refine ⟨total, handle', out', added, state'.trans state, processor'.trans cleared, ?_⟩
      have left_out : ¬ 0 ≤ output.pts := by omega
      simpa [Link.relay, List.filter_cons, left_out] using sent
    · obtain ⟨out₂, handed, sent_one⟩ := blank.push keeps
        (Link.tight_framed packed.1 reference.aspect)
      rw [if_neg suppressed]
      simp only [handed]
      obtain ⟨total, handle', out', added, state', processor', sent⟩ :=
        ih (index + 1) (pushed + 1) packed.2 (l := ⟨l.engine, handle⟩) ready' sent_one
      refine ⟨total, handle', out', added, state'.trans state, processor'.trans cleared, ?_⟩
      have kept : 0 ≤ output.pts := by omega
      simpa [Link.relay, List.filter_cons, kept] using sent

end Lease

/-- A processor from which everything was pulled. -/
def Simulated.Processor.cleared (p : Processor) : Processor :=
  { p with lane := { p.lane with results := [], ready := [] } }

namespace Lease
variable {σ : Type} {link : Link} {book : List Frame → σ → Prop} {earlier : Nat}
  {frames : List Frame} {outputs : List Output} {l : Lease Simulated Processor} {out : Outlet σ}

theorem ignoreOutput_clears (l : Lease Simulated Processor) :
    ∃ handle, l.ignoreOutput.2 = ⟨l.engine, handle⟩ ∧ handle.state = l.handle.state ∧
      handle.processor = l.handle.processor.cleared :=
  discardMany_ready (l := l.ready.2) rfl

variable [Sink σ] {shut : List Frame → σ → Prop}

theorem addOutput_relays (keeps : Sink.Keeps book shut) (fillable : link.Fillable)
    (reference : Frame) (packed : ∀ output ∈ outputs, output.Packed link.width link.height)
    (waiting : l.handle.processor.lane.ready ++ l.handle.processor.lane.results = outputs)
    (carries : out.Carries link book earlier frames) :
    ∃ total handle out', addOutput reference l out = (.ok total, ⟨l.engine, handle⟩, out') ∧
      handle.state = l.handle.state ∧ handle.processor = l.handle.processor.cleared ∧
      out'.Carries link book earlier (frames ++ link.relay reference.aspect outputs) := by
  have found := addFrom_relays keeps fillable reference outputs.length 0 0 packed (l := l.ready.2)
    waiting carries
  rw [← waiting] at found ⊢
  exact found

theorem remaining_of_finish {kernel kernel' : Kernel} {artifacts : List Artifact}
    (streaming : l.handle.state = .streaming) (open_ : l.handle.processor.ended = false)
    (idle : l.handle.processor.lane = .start kernel)
    (finished : kernel.finish? = some (kernel', outputs, artifacts)) :
    ∃ l', l.endStream.remaining = (outputs.length, l') ∧
      l'.handle.processor.lane = ⟨some kernel', [], 0, [], outputs, []⟩ := by
  have ended := Processor.endStream_of_finish open_ idle finished
  simp only [endStream, streaming, if_true, Engine.endStream, ended, Simulated.gather, remaining,
    Engine.remaining, Processor.remaining, Lane.remaining, Lane.collect, List.nil_append,
    Nat.zero_add]
  exact ⟨_, rfl, rfl⟩

/-- The drain of a stage that synthesizes: the outputs of the last job go out with the first poll,
and the second finds nothing. -/
theorem drain_relays (keeps : Sink.Keeps book shut) (fillable : link.Fillable)
    {policy : DrainPolicy} (patient : 1 ≤ policy.maxStalledPolls) (reference : Frame)
    {kernel kernel' : Kernel} {artifacts : List Artifact}
    (streaming : l.handle.state = .streaming) (open_ : l.handle.processor.ended = false)
    (idle : l.handle.processor.lane = .start kernel)
    (finished : kernel.finish? = some (kernel', outputs, artifacts))
    (packed : ∀ output ∈ outputs, output.Packed link.width link.height)
    (carries : out.Carries link book earlier frames) :
    ∃ report l' out', drain policy (pass reference) l out = (.ok report, l', out') ∧
      out'.Carries link book earlier (frames ++ link.relay reference.aspect outputs) := by
  obtain ⟨l₁, found, lane⟩ := remaining_of_finish streaming open_ idle finished
  have waiting : l₁.handle.processor.lane.ready ++ l₁.handle.processor.lane.results = outputs := by
    rw [lane]
    exact List.append_nil _
  rw [drain, found]
  dsimp only
  by_cases nothing : outputs.length = 0
  · have none_made : outputs = [] := List.eq_nil_of_length_eq_zero nothing
    rw [Polling.run_of_empty _ _ nothing]
    exact ⟨_, _, out, rfl, by simpa [none_made, Link.relay] using carries⟩
  · obtain ⟨total, handle, out₁, added, state, processor, sent⟩ :=
      addOutput_relays keeps fillable reference packed waiting carries
    have left : (remaining (⟨l₁.engine, handle⟩ : Lease Simulated Processor)).1 = 0 := by
      simp only [remaining, Engine.remaining, Processor.remaining, processor, Lane.remaining,
        Processor.cleared, lane, Lane.collect, List.append_nil, List.length_nil]
    have patient' : ¬ policy.maxStalledPolls ≤ 0 := by omega
    have progress : ¬ 0 = outputs.length := fun same => nothing same.symm
    have counts : ¬ Number.shortLimit ≤ 0 + 1 := by decide
    have once : (Polling.mk 0 0 outputs.length l₁ out).poll policy (pass reference) =
        .inr ⟨1, 0, 0, (remaining (⟨l₁.engine, handle⟩ : Lease Simulated Processor)).2, out₁⟩ := by
      simp only [Polling.poll, nothing, if_false, patient', pass, added, Except.map, left, progress,
        counts]
    rw [Polling.run_of_next once, Polling.run_of_empty _ _ rfl]
    exact ⟨_, _, out₁, rfl, sent⟩

omit [Sink σ] in
theorem drainIgnoring_of_still (policy : DrainPolicy) (out : Outlet σ) {kernel kernel' : Kernel}
    {artifacts : List Artifact} (streaming : l.handle.state = .streaming)
    (open_ : l.handle.processor.ended = false) (idle : l.handle.processor.lane = .start kernel)
    (finished : kernel.finish? = some (kernel', [], artifacts)) :
    ∃ report l', l.drainIgnoring policy out = (.ok report, l', out) := by
  obtain ⟨l₁, found, -⟩ := remaining_of_finish streaming open_ idle finished
  rw [drainIgnoring, drain, found]
  dsimp only
  rw [Polling.run_of_empty _ _ rfl]
  exact ⟨_, _, rfl⟩

end Lease

section station
variable {σ : Type} {c : Channel σ} {kernel kernel' : Kernel} {submissions : Nat}
  {frames : List Frame} {outputs : List Output} {frame : Frame}

/-- A station in the middle of a stream, between two calls. Without a frame to anchor them no
outputs are to come. -/
structure Station.Streams (c : Channel σ) (kernel : Kernel) (submissions : Nat)
    (frames : List Frame) (s : Station Simulated Processor σ) : Prop where
  handle : ∃ handle, s.session.handle = some handle ∧ handle.state = .streaming ∧
    handle.processor = c.processor kernel submissions
  patient : 1 ≤ s.session.policy.maxStalledPolls
  anchored : s.previous = none → kernel.Still
  carries : s.out.Carries c.link c.book c.earlier frames

namespace Station
variable {s : Station Simulated Processor σ}

theorem Streams.submit_refused (streams : s.Streams c kernel submissions frames)
    {cause : EngineError} (refused : c.examine kernel submissions frame = .error cause) :
    ∃ s', s.submit frame = (.error (.submission frame.pts cause), s') ∧
      s'.Streams c kernel (submissions + 1) frames := by
  obtain ⟨handle, there, state, idle⟩ := streams.handle
  have answer : handle.processor.process frame =
      (.error cause, c.processor kernel (submissions + 1)) := by
    rw [idle, Channel.process_eq, refused]
  have nothing_left : (c.processor kernel (submissions + 1)).lane.artifacts = [] := rfl
  simp only [submit, there, Lease.submit, Lease.process, state, ne_eq, not_true_eq_false, if_false,
    Engine.process, answer, Simulated.gather_of_gathered _ nothing_left]
  exact ⟨_, rfl, ⟨_, rfl, state, rfl⟩, streams.patient, streams.anchored,
    streams.carries.release frame⟩

theorem Streams.submit_taken (streams : s.Streams c kernel submissions frames) {picture : Picture}
    (taken : c.examine kernel submissions frame = .ok picture)
    (pushed : kernel.push? picture = some (kernel', outputs)) :
    ∃ handle, s.submit frame = (.ok (), s.withLease ⟨s.engine, handle⟩) ∧
      handle.state = .streaming ∧
      handle.processor = (c.processor kernel (submissions + 1)).after kernel' outputs := by
  obtain ⟨handle, there, state, idle⟩ := streams.handle
  have answer : handle.processor.process frame =
      (.ok (), (c.processor kernel (submissions + 1)).after kernel' outputs) := by
    rw [idle]
    exact Channel.process_of_taken taken pushed
  have nothing_left :
      ((c.processor kernel (submissions + 1)).after kernel' outputs).lane.artifacts = [] := rfl
  simp only [submit, there, Lease.submit, Lease.process, state, ne_eq, not_true_eq_false, if_false,
    Engine.process, answer, Simulated.gather_of_gathered _ nothing_left]
  exact ⟨_, rfl, rfl, rfl⟩

variable [Sink σ] {shut : List Frame → σ → Prop}

theorem Streams.synthesizes (keeps : Sink.Keeps c.book shut) (fillable : c.link.Fillable)
    (streams : s.Streams c kernel submissions frames) {picture : Picture}
    (taken : c.examine kernel submissions frame = .ok picture)
    (pushed : kernel.push? picture = some (kernel', outputs))
    (packed : ∀ output ∈ outputs, output.Packed c.link.width c.link.height) :
    ∃ total s', s.synthesize frame = (.ok total, s') ∧
      s'.Streams c kernel' (submissions + 1) (frames ++ c.link.relay frame.aspect outputs) := by
  obtain ⟨handle, submitted, state, processor⟩ := streams.submit_taken taken pushed
  have waiting : handle.processor.lane.ready ++ handle.processor.lane.results = outputs := by
    rw [processor]
    rfl
  obtain ⟨total, handle', out', added, state', cleared, sent⟩ :=
    Lease.addOutput_relays keeps fillable frame packed (l := ⟨s.engine, handle⟩) waiting
      (streams.carries.releaseSlot s.previous)
  have at_rest : handle'.processor = c.processor kernel' (submissions + 1) := by
    rw [cleared, processor]
    rfl
  simp only [synthesize, submitted, addOutput, keepPrevious, withLease, added]
  exact ⟨total, _, rfl, ⟨_, rfl, state'.trans state, at_rest⟩, streams.patient,
    fun absent => (by cases absent), sent⟩

theorem Streams.passes (keeps : Sink.Keeps c.book shut)
    (streams : s.Streams c kernel submissions frames) {picture : Picture}
    (taken : c.examine kernel submissions frame = .ok picture)
    (pushed : kernel.push? picture = some (kernel', outputs)) (still : kernel'.Still)
    (tight : frame.Tight) :
    ∃ s', s.passThrough frame = (.ok (), s') ∧
      s'.Streams c kernel' (submissions + 1) (frames ++ [frame]) := by
  obtain ⟨handle, submitted, state, processor⟩ := streams.submit_taken taken pushed
  obtain ⟨handle', ignored, state', cleared⟩ := Lease.ignoreOutput_clears ⟨s.engine, handle⟩
  obtain ⟨out', handed, sent⟩ := streams.carries.push keeps tight
  have at_rest : handle'.processor = c.processor kernel' (submissions + 1) := by
    rw [cleared, processor]
    rfl
  simp only [passThrough, submitted, ignoreOutput, withLease, ignored, handed]
  exact ⟨_, rfl, ⟨_, rfl, state'.trans state, at_rest⟩, streams.patient, fun _ => still, sent⟩

theorem Streams.finishes (keeps : Sink.Keeps c.book shut) (fillable : c.link.Fillable)
    (streams : s.Streams c kernel submissions frames) {artifacts : List Artifact}
    (finished : kernel.finish? = some (kernel', outputs, artifacts))
    (packed : ∀ output ∈ outputs, output.Packed c.link.width c.link.height) :
    ∃ report s' aspect, s.finishSynthesis = (.ok report, s') ∧
      s'.out.Carries c.link c.book c.earlier (frames ++ c.link.relay aspect outputs) := by
  obtain ⟨handle, there, state, idle⟩ := streams.handle
  have open_ : handle.processor.ended = false := by rw [idle]; rfl
  have lane : handle.processor.lane = .start kernel := by rw [idle]; rfl
  cases previous : s.previous with
  | none =>
    obtain ⟨_, _, silent⟩ := streams.anchored previous
    obtain ⟨rfl, rfl, rfl⟩ : kernel' = _ ∧ outputs = [] ∧ artifacts = _ := by
      simpa using finished.symm.trans silent
    obtain ⟨report, l', drained⟩ := Lease.drainIgnoring_of_still (l := ⟨s.engine, handle⟩)
      s.session.policy s.out state open_ lane silent
    simp only [finishSynthesis, postflight, drainAndDestroy, there, previous, Lease.postflight,
      drained]
    refine ⟨report, _, .one, rfl, ?_⟩
    rw [show c.link.relay .one [] = [] from rfl, List.append_nil]
    exact streams.carries.releaseSlot none
  | some reference =>
    obtain ⟨report, l', out', drained, sent⟩ := Lease.drain_relays keeps fillable
      (l := ⟨s.engine, handle⟩) streams.patient reference state open_ lane finished packed
      streams.carries
    simp only [finishSynthesis, postflight, drainAndDestroy, there, previous, Lease.postflight,
      drained]
    exact ⟨report, _, reference.aspect, rfl, sent.releaseSlot (some reference)⟩

omit [Sink σ] in
theorem Streams.drains (streams : s.Streams c kernel submissions frames) (still : kernel.Still) :
    ∃ report s', s.drainIgnoring = (.ok report, s') ∧
      s'.out.Carries c.link c.book c.earlier frames := by
  obtain ⟨handle, there, state, idle⟩ := streams.handle
  obtain ⟨_, _, silent⟩ := still
  have open_ : handle.processor.ended = false := by rw [idle]; rfl
  have lane : handle.processor.lane = .start kernel := by rw [idle]; rfl
  obtain ⟨report, l', drained⟩ := Lease.drainIgnoring_of_still (l := ⟨s.engine, handle⟩)
    s.session.policy s.out state open_ lane silent
  rw [Lease.drainIgnoring] at drained
  simp only [drainIgnoring, drainWith, drainAndDestroy, there, drained]
  exact ⟨report, _, rfl, streams.carries⟩

end Station

end station

section host
variable {σ : Type} {c : Channel σ} {synthesizes : Bool} {kernel kernel' : Kernel}
  {submissions : Nat} {frames : List Frame} {outputs : List Output} {frame : Frame}

/-- A host in the middle of a stream, between two pulls. -/
structure Host.Streams (c : Channel σ) (synthesizes : Bool) (kernel : Kernel) (submissions : Nat)
    (frames : List Frame) (h : Host Simulated Processor σ) : Prop where
  state : h.state = .streaming
  synthesizes : h.stage.options.synthesizes = synthesizes
  station : h.stage.station.Streams c kernel submissions frames

/-- What is left of a host whose stream ended after the frames. -/
structure Host.Shuts (shut : List Frame → σ → Prop) (earlier : Nat) (frames : List Frame)
    (h : Host Simulated Processor σ) : Prop where
  state : h.state = .closed
  vacant : h.stage.station.session.handle = none
  endSent : h.out.endSent = true
  shut : shut frames h.out.sink
  pushed : h.out.pushed = earlier + frames.length

namespace Host
variable {h : Host Simulated Processor σ}

theorem Streams.withPool (streams : h.Streams c synthesizes kernel submissions frames)
    (pool : Pool) : (h.withPool pool).Streams c synthesizes kernel submissions frames :=
  ⟨streams.state, streams.synthesizes, streams.station.handle, streams.station.patient,
    streams.station.anchored, streams.station.carries.link, streams.station.carries.endSent,
    streams.station.carries.book, streams.station.carries.pushed⟩

variable [Sink σ] {shut : List Frame → σ → Prop}

theorem Streams.refuses (streams : h.Streams c synthesizes kernel submissions frames)
    {cause : EngineError} (refused : c.examine kernel submissions frame = .error cause) :
    ∃ h', h.takeFrame frame = (.error (.submission frame.pts cause), h') ∧
      h'.Streams c synthesizes kernel (submissions + 1) frames ∧
      h'.framesIn = h.framesIn + 1 ∧ h'.submissionFailures = h.submissionFailures + 1 := by
  obtain ⟨s', submitted, streams'⟩ := streams.station.submit_refused refused
  have flag := streams.synthesizes
  cases synthesizes with
  | true =>
    simp only [takeFrame, Stage.accept, flag, if_true, Station.synthesize, submitted, Except.map,
      StageError.kind]
    exact ⟨_, rfl, ⟨streams.state, flag, streams'⟩, rfl, rfl⟩
  | false =>
    simp only [takeFrame, Stage.accept, flag, Bool.false_eq_true, if_false, Station.passThrough,
      submitted, StageError.kind, if_true]
    exact ⟨_, rfl, ⟨streams.state, flag, streams'⟩, rfl, rfl⟩

theorem Streams.takes (keeps : Sink.Keeps c.book shut) (fillable : c.link.Fillable)
    (streams : h.Streams c true kernel submissions frames) {picture : Picture}
    (taken : c.examine kernel submissions frame = .ok picture)
    (pushed : kernel.push? picture = some (kernel', outputs))
    (packed : ∀ output ∈ outputs, output.Packed c.link.width c.link.height) :
    ∃ h', h.takeFrame frame = (.ok .more, h') ∧
      h'.Streams c true kernel' (submissions + 1) (frames ++ c.link.relay frame.aspect outputs) ∧
      h'.framesIn = h.framesIn + 1 ∧ h'.submissionFailures = h.submissionFailures := by
  obtain ⟨total, s', answer, streams'⟩ :=
    streams.station.synthesizes keeps fillable taken pushed packed
  simp only [takeFrame, Stage.accept, streams.synthesizes, if_true, answer, Except.map]
  exact ⟨_, rfl, ⟨streams.state, streams.synthesizes, streams'⟩, rfl, rfl⟩

theorem Streams.passes (keeps : Sink.Keeps c.book shut)
    (streams : h.Streams c false kernel submissions frames) {picture : Picture}
    (taken : c.examine kernel submissions frame = .ok picture)
    (pushed : kernel.push? picture = some (kernel', outputs)) (still : kernel'.Still)
    (tight : frame.Tight) :
    ∃ h', h.takeFrame frame = (.ok .more, h') ∧
      h'.Streams c false kernel' (submissions + 1) (frames ++ [frame]) ∧
      h'.framesIn = h.framesIn + 1 ∧ h'.submissionFailures = h.submissionFailures := by
  obtain ⟨s', answer, streams'⟩ := streams.station.passes keeps taken pushed still tight
  simp only [takeFrame, Stage.accept, streams.synthesizes, Bool.false_eq_true, if_false, answer]
  exact ⟨_, rfl, ⟨streams.state, streams.synthesizes, streams'⟩, rfl, rfl⟩

theorem Streams.finishes (keeps : Sink.Keeps c.book shut) (fillable : c.link.Fillable)
    (streams : h.Streams c true kernel submissions frames) {artifacts : List Artifact}
    (finished : kernel.finish? = some (kernel', outputs, artifacts))
    (packed : ∀ output ∈ outputs, output.Packed c.link.width c.link.height) :
    ∃ h' aspect, h.finish = (.ok .ended, h') ∧
      h'.Shuts shut c.earlier (frames ++ c.link.relay aspect outputs) ∧
      h'.framesIn = h.framesIn ∧ h'.submissionFailures = h.submissionFailures := by
  obtain ⟨report, s', aspect, answer, carries⟩ :=
    streams.station.finishes keeps fillable finished packed
  have vacant := h.stage.station.advances_finishSynthesis.2
  rw [answer] at vacant
  obtain ⟨out, ended, endSent, closed, pushed⟩ := carries.endStream keeps
  simp only [finish, Stage.drain, streams.synthesizes, if_true, answer, Host.out, ended, Except.map]
  exact ⟨_, aspect, rfl, ⟨rfl, vacant, endSent, closed, pushed⟩, rfl, rfl⟩

theorem Streams.drains (keeps : Sink.Keeps c.book shut)
    (streams : h.Streams c false kernel submissions frames) (still : kernel.Still) :
    ∃ h', h.finish = (.ok .ended, h') ∧ h'.Shuts shut c.earlier frames ∧
      h'.framesIn = h.framesIn ∧ h'.submissionFailures = h.submissionFailures := by
  obtain ⟨report, s', answer, carries⟩ := streams.station.drains still
  have vacant := h.stage.station.advances_drainIgnoring.2
  rw [answer] at vacant
  obtain ⟨out, ended, endSent, closed, pushed⟩ := carries.endStream keeps
  simp only [finish, Stage.drain, streams.synthesizes, Bool.false_eq_true, if_false, answer,
    Host.out, ended, Except.map]
  exact ⟨_, rfl, ⟨rfl, vacant, endSent, closed, pushed⟩, rfl, rfl⟩

end Host

end host

end FrameRelay
