import FrameRelay.Proofs.Clips
import FrameRelay.Proofs.Doubles
import FrameRelay.Proofs.Fixtures

/-! Stages that give one frame for each frame they take, at once or after a window. A clip is pulled
through such a stage while failures are injected at every so many submissions. What went out and
what the window holds back are the frames taken so far, in their order. -/

namespace FrameRelay
open Simulated (Processor)

theorem queue_split {α : Type} {window : Nat} {sent held taken : List α}
    (order : sent ++ held = taken) (full : held.length = min window taken.length) (last : α) :
    let queue := held ++ [last]
    let surplus := queue.length - window
    sent ++ queue.take surplus ++ queue.drop surplus = taken ++ [last] ∧
      (queue.drop surplus).length = min window (taken ++ [last]).length := by
  intro queue surplus
  constructor
  · rw [List.append_assoc, List.take_append_drop, ← order, List.append_assoc]
  · have parts := congrArg List.length order
    simp only [List.length_append] at parts
    simp only [List.length_drop, List.length_append, List.length_singleton, queue, surplus]
    omega

namespace Kernel
variable {window width height outWidth outHeight : Nat} {held : List Int} {kernel : Kernel}
  {picture : Picture}

/-- The kernel gives one output for each picture, in their order, and holds back the last ones up to
a window. -/
def Delays (window : Nat) (held : List Int) : Kernel → Prop
  | .upscale _ => window = 0 ∧ held = []
  | .stabilization state => state.window = window ∧ state.held.map Picture.pts = held
  | _ => False

/-- The kernel only looks at its pictures. -/
def Watches : Kernel → Prop
  | .estimation _ | .pose _ => True
  | _ => False

theorem Delays.push? (delays : kernel.Delays window held)
    (makes : kernel.Makes width height outWidth outHeight) (packed : picture.Packed width height) :
    let queue := held ++ [picture.pts]
    let surplus := queue.length - window
    ∃ kernel' outputs, kernel.push? picture = some (kernel', outputs) ∧
      kernel'.Makes width height outWidth outHeight ∧
      kernel'.Delays window (queue.drop surplus) ∧
      (∀ output ∈ outputs, output.Packed outWidth outHeight) ∧
      outputs.map Output.pts = queue.take surplus := by
  intro queue surplus
  cases kernel with
  | estimation state => exact delays.elim
  | pose file => exact delays.elim
  | interpolation state => exact delays.elim
  | upscale scale =>
    obtain ⟨rfl, rfl, words⟩ := makes
    obtain ⟨rfl, rfl⟩ := delays
    obtain ⟨output, made, fits, pts⟩ := Upscale.packed_output? words packed
    refine ⟨.upscale scale, [output], ?_, ⟨rfl, rfl, words⟩, ⟨rfl, rfl⟩, by simpa using fits, ?_⟩
    · simp only [Kernel.push?, made, Option.map_some]
    · show [output.pts] = [picture.pts]
      rw [pts]
  | stabilization state =>
    obtain ⟨rfl, rfl⟩ := delays
    obtain ⟨outputs, pushed, holds, each, pts⟩ := Stabilization.Holds.push? makes packed
    have queue_eq : queue = (state.held ++ [picture]).map Picture.pts := by
      rw [List.map_append]
      rfl
    have surplus_eq : surplus = (state.held ++ [picture]).length - state.window := by
      simp [surplus, queue]
    simp only [Kernel.push?, pushed, Option.map_some]
    refine ⟨_, outputs, rfl, holds, ⟨rfl, ?_⟩, each, ?_⟩
    · rw [queue_eq, surplus_eq, List.map_drop]
    · rw [queue_eq, surplus_eq, pts, List.map_take]

theorem Delays.finish? (delays : kernel.Delays window held)
    (makes : kernel.Makes width height outWidth outHeight) :
    ∃ kernel' outputs, kernel.finish? = some (kernel', outputs, []) ∧
      (∀ output ∈ outputs, output.Packed outWidth outHeight) ∧ outputs.map Output.pts = held := by
  cases kernel with
  | estimation state => exact delays.elim
  | pose file => exact delays.elim
  | interpolation state => exact delays.elim
  | upscale scale =>
    obtain ⟨-, rfl⟩ := delays
    exact ⟨_, [], rfl, by simp, rfl⟩
  | stabilization state =>
    obtain ⟨-, rfl⟩ := delays
    obtain ⟨outputs, finished, each, pts⟩ := Stabilization.Holds.finish? makes
    simp only [Kernel.finish?, finished, Option.map_some]
    exact ⟨_, outputs, rfl, each, pts⟩

theorem Watches.push? (watches : kernel.Watches) (packed : picture.Packed width height) :
    ∃ kernel' outputs, kernel.push? picture = some (kernel', outputs) ∧ kernel'.Watches := by
  cases kernel with
  | estimation state => exact ⟨_, _, rfl, trivial⟩
  | pose file =>
    obtain ⟨pose, seen, -⟩ := Pose.ofPicture?_of_filled packed.fills.filled
    simp only [Kernel.push?, PoseFile.push?, seen, Option.map_some]
    exact ⟨_, _, rfl, trivial⟩
  | upscale scale => exact watches.elim
  | interpolation state => exact watches.elim
  | stabilization state => exact watches.elim

theorem Watches.still (watches : kernel.Watches) : kernel.Still := by
  cases kernel with
  | estimation state => exact still_estimation state
  | pose file => exact still_pose file
  | upscale scale => exact watches.elim
  | interpolation state => exact watches.elim
  | stabilization state => exact watches.elim

end Kernel

namespace Kernel.Stabilization
open Number

/-- The window that the second and the sixth parameter ask for, both read as whole numbers. -/
def windowOf (parameters : List Float32) : Nat :=
  min (wholeNat 18446744073709551615 (parameters.getD 1 0))
    (wholeNat 18446744073709551615 (parameters.getD 5 0))

theorem windowOf_of_counts {parameters : List Float32} {window cache : Nat}
    (second : parameters.getD 1 0 = narrow (.ofNat window)) (small : window < 2 ^ 24)
    (sixth : parameters.getD 5 0 = narrow (.ofNat cache)) (small' : cache < 2 ^ 24) :
    windowOf parameters = min window cache := by
  rw [windowOf, second, sixth, wholeNat_narrow_ofNat small (by omega),
    wholeNat_narrow_ofNat small' (by omega)]

end Kernel.Stabilization

namespace StageOptions

/-- How many frames a stage holds back: a stabilization looks ahead as far as its window and its
cache both reach. -/
def window : StageOptions → Nat
  | .stabilization o => min o.ws o.cache
  | _ => 0

end StageOptions

theorem le_of_checkCount {name : String} {value bound : Nat} {low high : Float}
    (holds : Number.Holds high bound) (small : bound < 2 ^ 53)
    (passed : checkCount name value low high = .ok ()) : value ≤ bound := by
  by_contra above
  have next : ((bound + 1 : Nat) : ℚ) ≤ value := by exact_mod_cast Nat.lt_of_not_le above
  have refused : !(Float.ofNat value).isFinite || Float.ofNat value < low ||
      high < Float.ofNat value := by
    obtain ⟨result, packed, rounds⟩ := Number.ofNat_rounds value
    rw [packed]
    rcases rounds.holds_or_overflows with ⟨rounded, held, nearest⟩ | overflows
    · have more := nearest.ge_of_ge (Number.fine_natCast small) next
      have exceeds : high < Float.ofModel (.pack result) := by
        refine (holds.lt_iff held).mpr (lt_of_lt_of_le ?_ more)
        exact_mod_cast Nat.lt_succ_self bound
      simp [exceeds]
    · simp [overflows]
  rw [checkCount, checkRange, if_pos refused] at passed
  cases passed

theorem StabilizationOptions.counts_of_validate {o : StabilizationOptions}
    (valid : o.validate = .ok ()) : o.ws ≤ 512 ∧ o.cache ≤ 256 := by
  have wsBound : Number.Holds 512.0 (512 : Nat) :=
    .of_power (-43) (by decide +kernel) (by norm_num) (by norm_num)
  have cacheBound : Number.Holds 256.0 (256 : Nat) :=
    .of_power (-44) (by decide +kernel) (by norm_num) (by norm_num)
  obtain ⟨-, -, valid⟩ := ok_of_bind valid
  obtain ⟨-, -, valid⟩ := ok_of_bind valid
  obtain ⟨-, -, valid⟩ := ok_of_bind valid
  obtain ⟨-, -, valid⟩ := ok_of_bind valid
  obtain ⟨-, -, valid⟩ := ok_of_bind valid
  obtain ⟨⟨⟩, ws, valid⟩ := ok_of_bind valid
  obtain ⟨-, -, valid⟩ := ok_of_bind valid
  obtain ⟨-, -, valid⟩ := ok_of_bind valid
  obtain ⟨-, -, valid⟩ := ok_of_bind valid
  obtain ⟨⟨⟩, cache, -⟩ := ok_of_bind valid
  exact ⟨le_of_checkCount wsBound (by norm_num) ws, le_of_checkCount cacheBound (by norm_num) cache⟩

/-- What a stage that keeps the spacing of its stream starts with: a kernel that delays, or one that
only looks. -/
theorem Host.Begins.kernel {σ : Type} {book : List Frame → σ → Prop} {link outLink : Link}
    {settings : StreamSettings} {spec : ProcessorSpec} {kernel : Kernel}
    {h h' : Host Simulated Processor σ}
    (begins : h.Begins link outLink book settings spec kernel h')
    (valid : h.stage.options.validate = .ok ()) (plain : h.stage.options.respaces = false) :
    if h.stage.options.synthesizes then kernel.Delays h.stage.options.window []
    else kernel.Watches ∧ h.stage.options.window = 0 := by
  obtain ⟨model, rfl⟩ := begins.granted
  have asked := begins.asked
  have built := begins.built
  generalize h.stage.options = options at asked valid plain ⊢
  cases options with
  | interpolation o => cases plain
  | pose o =>
    cases asked
    cases built
    exact ⟨trivial, rfl⟩
  | estimation o =>
    cases asked
    cases built
    exact ⟨trivial, rfl⟩
  | upscale o =>
    cases asked
    cases built
    exact ⟨rfl, rfl⟩
  | stabilization o =>
    cases asked
    cases built
    obtain ⟨ws, cache⟩ := StabilizationOptions.counts_of_validate valid
    refine ⟨?_, rfl⟩
    show Kernel.Stabilization.windowOf (o.settings.specFor model link).parameters = min o.ws o.cache
    exact Kernel.Stabilization.windowOf_of_counts rfl (by omega) rfl (by omega)

namespace Channel
variable {σ : Type}

/-- The pts of the frames of a clip that are taken among the first ones. -/
def taken (c : Channel σ) : Nat → List Int
  | 0 => []
  | index + 1 => if c.hits (index + 1) then c.taken index else c.taken index ++ [index * Clip.ticks]

theorem length_taken (c : Channel σ) (index : Nat) :
    (c.taken index).length + c.failures index = index := by
  induction index with
  | zero =>
    unfold failures
    cases c.rejectEvery <;> simp [taken]
  | succ index ih =>
    rw [failures_succ]
    cases hit : c.hits (index + 1) with
    | true =>
      simp only [taken, hit, if_true]
      omega
    | false =>
      simp only [taken, hit, Bool.false_eq_true, if_false, List.length_append,
        List.length_singleton]
      omega

theorem pts_of_taken (c : Channel σ) (index : Nat) :
    ∀ pts ∈ c.taken index, 0 ≤ pts ∧ pts ≤ index * Clip.ticks := by
  induction index with
  | zero => simp [taken]
  | succ index ih =>
    have later : ((index + 1 : Nat) : Int) * Clip.ticks = index * Clip.ticks + 1000 := by
      simp only [Clip.ticks]
      omega
    have positive : 0 ≤ (index : Int) * Clip.ticks := by
      simp only [Clip.ticks]
      omega
    intro pts inside
    cases hit : c.hits (index + 1) with
    | true =>
      simp only [taken, hit, if_true] at inside
      have bounds := ih pts inside
      omega
    | false =>
      simp only [taken, hit, Bool.false_eq_true, if_false, List.mem_append,
        List.mem_singleton] at inside
      rcases inside with earlier | rfl
      · have bounds := ih pts earlier
        omega
      · omega

theorem sorted_taken (c : Channel σ) (index : Nat) : (c.taken index).Pairwise (· ≤ ·) := by
  induction index with
  | zero => exact .nil
  | succ index ih =>
    cases hit : c.hits (index + 1) with
    | true =>
      simp only [taken, hit, if_true]
      exact ih
    | false =>
      simp only [taken, hit, Bool.false_eq_true, if_false]
      refine List.pairwise_append.mpr ⟨ih, List.pairwise_singleton _ _, fun pts inside last => ?_⟩
      rintro inside'
      rw [List.mem_singleton.mp inside']
      exact (c.pts_of_taken index pts inside).2

end Channel

theorem Link.pts_relay {link : Link} {outputs : List Output}
    (late : ∀ output ∈ outputs, 0 ≤ output.pts) (aspect : Ratio) :
    (link.relay aspect outputs).map Frame.pts = outputs.map Output.pts := by
  have kept : outputs.filter (fun output => 0 ≤ output.pts) = outputs :=
    List.filter_eq_self.mpr fun output inside => decide_eq_true (late output inside)
  rw [relay, kept, List.map_map]
  rfl

theorem Channel.taken_relay {σ : Type} (c : Channel σ) {index : Nat} {frames : List Frame}
    {outputs : List Output} {held : List Int}
    (order : frames.map Frame.pts ++ outputs.map Output.pts ++ held = c.taken index)
    (aspect : Ratio) :
    (frames ++ c.link.relay aspect outputs).map Frame.pts ++ held = c.taken index := by
  have late : ∀ output ∈ outputs, 0 ≤ output.pts := by
    intro output inside
    refine (c.pts_of_taken index _ ?_).1
    rw [← order]
    exact List.mem_append_left _ (List.mem_append_right _ (List.mem_map_of_mem inside))
  rw [List.map_append, Link.pts_relay late]
  exact order

section host
variable {σ : Type} {c : Channel σ} {shut : List Frame → σ → Prop} {window index : Nat}
  {h : Host Simulated Processor σ} {clip : Clip}

/-- The kernel of a stage that synthesizes delays its pictures, any other one only looks at them. -/
def Channel.Paces (c : Channel σ) (window : Nat) (held : List Int) (kernel : Kernel) : Bool → Prop
  | true => kernel.Delays window held ∧ kernel.Makes c.width c.height c.link.width c.link.height
  | false => kernel.Watches ∧ window = 0

/-- The host in the middle of a clip: what went out and what the kernel holds back are the frames
taken, in their order. -/
structure Host.Forwards (c : Channel σ) (window index : Nat) (h : Host Simulated Processor σ) :
    Prop where
  stream : ∃ synthesizes kernel frames held, frames.map Frame.pts ++ held = c.taken index ∧
    held.length = min window (c.taken index).length ∧
    h.Streams c synthesizes kernel index frames ∧ c.Paces window held kernel synthesizes
  framesIn : h.framesIn = index
  failures : h.submissionFailures = c.failures index

namespace Host
variable [Sink σ]

theorem Forwards.refuses (forwards : h.Forwards c window index) (hit : c.hits (index + 1) = true)
    (pool : Pool) (frame : Frame) :
    ∃ cause h', (h.withPool pool).takeFrame frame =
        (.error (.submission frame.pts cause), h') ∧ cause.isFault = false ∧
        h'.Forwards c window (index + 1) := by
  obtain ⟨synthesizes, kernel, frames, held, order, full, streams, paces⟩ := forwards.stream
  have same : c.taken (index + 1) = c.taken index := by simp [Channel.taken, hit]
  have counted : c.failures (index + 1) = c.failures index + 1 := by
    rw [Channel.failures_succ, if_pos hit]
  obtain ⟨cause, refused, orderly⟩ := Channel.examine_of_hit hit kernel frame
  obtain ⟨h', answer, streams', framesIn, failures⟩ := (streams.withPool pool).refuses refused
  rw [← same] at order full
  exact ⟨cause, h', answer, orderly,
    ⟨synthesizes, kernel, frames, held, order, full, streams', paces⟩,
    framesIn.trans (congrArg (· + 1) forwards.framesIn),
    (failures.trans (congrArg (· + 1) forwards.failures)).trans counted.symm⟩

/-- Any other frame of the clip is taken. It goes out itself, or what is beyond the window does. -/
theorem Forwards.takes (keeps : Sink.Keeps c.book shut) (fillable : c.link.Fillable)
    (forwards : h.Forwards c window index) (missed : c.hits (index + 1) = false)
    (width : c.width = clip.width) (height : c.height = clip.height) (rows : 0 < clip.height)
    (pool : Pool) :
    ∃ h', (h.withPool pool).takeFrame (clip.frame index) = (.ok .more, h') ∧
      h'.Forwards c window (index + 1) := by
  obtain ⟨synthesizes, kernel, frames, held, order, full, streams, paces⟩ := forwards.stream
  have longer : c.taken (index + 1) = c.taken index ++ [index * Clip.ticks] := by
    simp [Channel.taken, missed]
  have counted : c.failures (index + 1) = c.failures index := by
    rw [Channel.failures_succ, missed]
    rfl
  obtain ⟨picture, made, packed, pts⟩ := Clip.pictureOf_frame rows index
  have taken := Channel.examine_of_miss missed width height kernel index
  rw [made] at taken
  rw [← width, ← height] at packed
  cases synthesizes with
  | true =>
    obtain ⟨delays, makes⟩ := paces
    obtain ⟨kernel', outputs, pushed, makes', delays', each, given⟩ := delays.push? makes packed
    obtain ⟨h', answer, streams', framesIn, failures⟩ :=
      (streams.withPool pool).takes keeps fillable taken pushed each
    obtain ⟨order', full'⟩ := queue_split order full picture.pts
    rw [pts, ← longer] at order' full'
    rw [pts] at given delays'
    rw [← given] at order'
    exact ⟨h', answer,
      ⟨true, kernel', _, _, c.taken_relay order' _, full', streams', delays', makes'⟩,
      framesIn.trans (congrArg (· + 1) forwards.framesIn),
      (failures.trans forwards.failures).trans counted.symm⟩
  | false =>
    obtain ⟨watches, none⟩ := paces
    obtain ⟨kernel', outputs, pushed, watches'⟩ := watches.push? packed
    obtain ⟨h', answer, streams', framesIn, failures⟩ :=
      (streams.withPool pool).passes keeps taken pushed watches'.still (clip.tight_frame index)
    subst none
    obtain rfl : held = [] := List.eq_nil_of_length_eq_zero (by rw [full, Nat.zero_min])
    refine ⟨h', answer, ⟨false, kernel', _, [], ?_, by simp, streams', watches', rfl⟩,
      framesIn.trans (congrArg (· + 1) forwards.framesIn),
      (failures.trans forwards.failures).trans counted.symm⟩
    rw [List.append_nil] at order ⊢
    rw [List.map_append, order, longer]
    rfl

theorem Forwards.finishes (keeps : Sink.Keeps c.book shut) (fillable : c.link.Fillable)
    (forwards : h.Forwards c window index) (pool : Pool) :
    ∃ h', ∃ frames : List Frame, (h.withPool pool).finish = (.ok .ended, h') ∧
      h'.Shuts shut c.earlier frames ∧ frames.map Frame.pts = c.taken index ∧
      h'.framesIn = index ∧ h'.submissionFailures = c.failures index := by
  obtain ⟨synthesizes, kernel, frames, held, order, full, streams, paces⟩ := forwards.stream
  cases synthesizes with
  | true =>
    obtain ⟨delays, makes⟩ := paces
    obtain ⟨kernel', outputs, finished, each, given⟩ := delays.finish? makes
    obtain ⟨h', aspect, answer, shuts, framesIn, failures⟩ :=
      (streams.withPool pool).finishes keeps fillable finished each
    rw [← given, ← List.append_nil (_ ++ _)] at order
    have sent := c.taken_relay order aspect
    rw [List.append_nil] at sent
    exact ⟨h', _, answer, shuts, sent, framesIn.trans forwards.framesIn,
      failures.trans forwards.failures⟩
  | false =>
    obtain ⟨watches, none⟩ := paces
    obtain ⟨h', answer, shuts, framesIn, failures⟩ :=
      (streams.withPool pool).drains keeps watches.still
    subst none
    obtain rfl : held = [] := List.eq_nil_of_length_eq_zero (by rw [full, Nat.zero_min])
    refine ⟨h', frames, answer, shuts, ?_, framesIn.trans forwards.framesIn,
      failures.trans forwards.failures⟩
    rwa [List.append_nil] at order

omit [Sink σ] in
theorem Forwards.sent (forwards : h.Forwards c window index) :
    h.state = .streaming ∧ ∃ frames : List Frame, c.book frames h.out.sink ∧
      h.out.pushed = c.earlier + frames.length ∧
      frames.length = index - c.failures index - window := by
  obtain ⟨_, kernel, frames, held, order, full, streams, _⟩ := forwards.stream
  have parts := congrArg List.length order
  have total := c.length_taken index
  rw [List.length_append, List.length_map] at parts
  exact ⟨streams.state, frames, streams.station.carries.book, streams.station.carries.pushed,
    by omega⟩

theorem Forwards.runs {policy : FailurePolicy} (keeps : Sink.Keeps c.book shut)
    (fillable : c.link.Fillable) (start : h.Forwards c window 0) (width : c.width = clip.width)
    (height : c.height = clip.height) (rows : 0 < clip.height) (fresh : clip.index = 0)
    (goes_on : policy = .carryOn ∨ ∀ index < clip.total, c.hits (index + 1) = false) :
    ∃ h', ∃ frames : List Frame,
      h.run policy clip =
        (.ok (.ofHost (clip.total + 1) h'.stats), h', clip.after clip.total) ∧
      h'.Shuts shut c.earlier frames ∧ frames.map Frame.pts = c.taken clip.total ∧
      h'.framesIn = clip.total ∧ h'.submissionFailures = c.failures clip.total := by
  have step (index : Nat) (h : Host Simulated Processor σ) (more : index < clip.total)
      (forwards : h.Forwards c window index) : ∃ answer h',
        h.request (clip.after index) = (answer, h', clip.after (index + 1)) ∧
          Passes policy answer ∧ h'.Forwards c window (index + 1) := by
    rw [request_clip forwards.sent.1 more]
    cases hit : c.hits (index + 1) with
    | false =>
      obtain ⟨h', answer, forwards'⟩ :=
        forwards.takes keeps fillable hit width height rows ⟨h.out.pool.live + 1⟩
      rw [answer]
      exact ⟨_, h', rfl, .inl rfl, forwards'⟩
    | true =>
      obtain ⟨cause, h', answer, orderly, forwards'⟩ :=
        forwards.refuses hit ⟨h.out.pool.live + 1⟩ (clip.frame index)
      rw [answer]
      have goes_on_after :
          (StageError.submission (clip.frame index).pts cause).isRecoverable = true :=
        congrArg (!·) orderly
      refine ⟨_, h', rfl, .inr ⟨_, rfl, goes_on_after, ?_⟩, forwards'⟩
      exact goes_on.resolve_right fun spared => by simp [spared index more] at hit
  have finish (h : Host Simulated Processor σ) (forwards : h.Forwards c window clip.total) :
      ∃ h', h.request (clip.after clip.total) = (.ok .ended, h', clip.after clip.total) ∧
        ∃ frames : List Frame, h'.Shuts shut c.earlier frames ∧
          frames.map Frame.pts = c.taken clip.total ∧ h'.framesIn = clip.total ∧
          h'.submissionFailures = c.failures clip.total := by
    obtain ⟨h', frames, answer, ends⟩ := forwards.finishes keeps fillable h.out.pool
    rw [request_clip_end forwards.sent.1, answer]
    exact ⟨h', rfl, frames, ends⟩
  obtain ⟨h', ran, frames, ends⟩ := run_advances fresh step finish start
  exact ⟨h', frames, ran, ends⟩

theorem Forwards.stops (keeps : Sink.Keeps c.book shut) (fillable : c.link.Fillable)
    (start : h.Forwards c window 0) (width : c.width = clip.width)
    (height : c.height = clip.height) (rows : 0 < clip.height) (fresh : clip.index = 0)
    (first : index < clip.total) (hit : c.hits (index + 1) = true)
    (spared : ∀ earlier < index, c.hits (earlier + 1) = false) :
    ∃ cause h', h.run .abort clip =
        (.error (.submission (index * Clip.ticks) cause), h', clip.after (index + 1)) ∧
      h'.Forwards c window (index + 1) := by
  have step (earlier : Nat) (h : Host Simulated Processor σ) (before : earlier < index)
      (forwards : h.Forwards c window earlier) : ∃ answer h',
        h.request (clip.after earlier) = (answer, h', clip.after (earlier + 1)) ∧
          Passes .abort answer ∧ h'.Forwards c window (earlier + 1) := by
    rw [request_clip forwards.sent.1 (by omega)]
    obtain ⟨h', answer, forwards'⟩ := forwards.takes keeps fillable (spared earlier before) width
      height rows ⟨h.out.pool.live + 1⟩
    rw [answer]
    exact ⟨_, h', rfl, .inl rfl, forwards'⟩
  obtain ⟨h₁, forwards, pulled⟩ := pullAll_advances step (clip.total - index + 1) start
  obtain ⟨cause, h', answer, -, forwards'⟩ :=
    forwards.refuses hit ⟨h₁.out.pool.live + 1⟩ (clip.frame index)
  have refused : h₁.request (clip.after index) =
      (.error (.submission (index * Clip.ticks) cause), h', clip.after (index + 1)) := by
    rw [request_clip forwards.sent.1 first, answer]
    rfl
  have begun : clip.after 0 = clip := by
    rw [Clip.after, ← fresh]
  have all : clip.total - index + 1 + index = Source.left clip + 1 := by
    show _ = clip.total - clip.index + 1
    omega
  rw [pullAll_of_error refused rfl, begun, all] at pulled
  exact ⟨cause, h', run_of_pullAll pulled, forwards'⟩

end Host

end host

end FrameRelay
