import FrameRelay.Proofs.Centring
import FrameRelay.Proofs.Enlargement

/-! The rows of a frame without their padding. A frame is packed exactly when no row ends behind its
buffer, on the short way for rows without padding as on the long one, and sample `j` of row `y` is
found behind `y` rows of the new length. So the packed samples are those of the pixels, and those of
the picture that a processor makes of the frame. -/

namespace FrameRelay
open Simulated (Processor neededSamples pictureOf)

/-! Rows that are read one by one. -/

theorem toOption_slice (samples : Array UInt16) (start count : Nat) :
    (slice samples start count).toOption = slice? samples start count := by
  unfold slice
  cases slice? samples start count <;> rfl

theorem slice_of_beyond {samples : Array UInt16} {start count : Nat}
    (beyond : samples.size < start + count) :
    slice samples start count =
      .error (if Number.sizeLimit ≤ start + count then .overflow else .outOfRange) := by
  rw [slice, slice?, if_neg (Nat.not_le.mpr beyond)]

theorem toOption_foldlM {α β : Type} (step : β → α → Except Fault β) (places : List α) (start : β) :
    (places.foldlM step start).toOption =
      places.foldlM (fun state place => (step state place).toOption) start := by
  induction places generalizing start with
  | nil => rfl
  | cons first later ih =>
    rw [List.foldlM_cons, List.foldlM_cons]
    cases step start first with
    | error fault => rfl
    | ok next => exact ih next

/-- A loop over rows stops at the first one that is not there. -/
theorem foldlM_rows_of_error {row : Nat → Except Fault (Array UInt16)} {height first : Nat}
    {fault : Fault} (there : ∀ y < first, ∃ part, row y = .ok part)
    (missing : row first = .error fault) (line : first < height) (start : Array UInt16) :
    (List.range height).foldlM (fun rows y => (row y).map (rows ++ ·)) start = .error fault := by
  have before (count : Nat) (within : count ≤ first) : ∃ samples,
      (List.range count).foldlM (fun rows y => (row y).map (rows ++ ·)) start = .ok samples := by
    induction count with
    | zero => exact ⟨start, rfl⟩
    | succ count ih =>
      obtain ⟨samples, joined⟩ := ih (by omega)
      obtain ⟨part, taken⟩ := there count (by omega)
      refine ⟨samples ++ part, ?_⟩
      rw [List.range_succ, List.foldlM_append, joined]
      simp [taken, Except.map, bind, Except.bind, pure, Except.pure]
  obtain ⟨samples, joined⟩ := before first le_rfl
  obtain ⟨rest, rfl⟩ : ∃ rest, height = first + (rest + 1) := ⟨height - first - 1, by omega⟩
  rw [List.range_add, List.foldlM_append, joined, List.range_succ_eq_map]
  simp [missing, Except.map, bind, Except.bind]

theorem isSome_slice? {samples : Array UInt16} {start count : Nat} :
    (slice? samples start count).isSome ↔ start + count ≤ samples.size := by
  unfold slice?
  split <;> simp [*]

section rows
variable {frame : Frame} {samples : Array UInt16}

/-- No row of the frame ends behind its buffer. -/
def Frame.Readable (frame : Frame) : Prop :=
  0 < frame.height →
    neededSamples frame.lineSize frame.height frame.rowSize ≤ frame.samples.size

theorem Frame.not_readable_iff : ¬ frame.Readable ↔ 0 < frame.height ∧
    frame.samples.size < frame.lineSize * (frame.height - 1) + 3 * frame.width := by
  rw [Frame.Readable, Classical.not_imp, Nat.not_le]
  rfl

theorem Frame.Readable.row (readable : frame.Readable) {y : Nat} (line : y < frame.height) :
    y * frame.lineSize + frame.rowSize ≤ frame.samples.size := by
  have before : y * frame.lineSize ≤ frame.lineSize * (frame.height - 1) := by
    rw [Nat.mul_comm]
    exact Nat.mul_le_mul_left _ (by omega)
  exact (Nat.add_le_add_right before _).trans (readable (Nat.zero_lt_of_lt line))

theorem Frame.neededSamples_of_plain (plain : frame.lineSize = frame.rowSize)
    (lines : 0 < frame.height) :
    neededSamples frame.lineSize frame.height frame.rowSize = frame.rowSize * frame.height := by
  have all : frame.height - 1 + 1 = frame.height := Nat.sub_add_cancel lines
  rw [neededSamples, plain, ← Nat.mul_succ, Nat.succ_eq_add_one, all]

/-- The rows of the frame are in its buffer, the last one without its padding. -/
def Frame.Complete (frame : Frame) : Prop :=
  Buffer.Holds frame.width frame.height ⟨frame.samples, frame.lineSize⟩

theorem Frame.Complete.readable (complete : frame.Complete) : frame.Readable :=
  fun _ => complete.long

/-- What became of the samples of a frame when its rows were packed. -/
structure Frame.Packs (frame : Frame) (samples : Array UInt16) : Prop where
  size_eq : samples.size = frame.rowSize * frame.height
  sample {y j : Nat} (line : y < frame.height) (inside : j < frame.rowSize) :
    samples[y * frame.rowSize + j]? = frame.samples[y * frame.lineSize + j]?

theorem Frame.packed?_eq (frame : Frame) : frame.packed? =
    if frame.lineSize = frame.rowSize then slice? frame.samples 0 (frame.rowSize * frame.height)
    else (List.range frame.height).foldlM (fun packed y =>
      (slice? frame.samples (y * frame.lineSize) frame.rowSize).map (packed ++ ·)) #[] := by
  have row (packed : Array UInt16) (y : Nat) :
      ((slice frame.samples (y * frame.lineSize) frame.rowSize).map (packed ++ ·)).toOption =
        (slice? frame.samples (y * frame.lineSize) frame.rowSize).map (packed ++ ·) := by
    rw [← toOption_slice]
    cases slice frame.samples (y * frame.lineSize) frame.rowSize <;> rfl
  rw [packed?, packed, apply_ite Except.toOption, toOption_slice, toOption_foldlM]
  simp only [row]

theorem Frame.packed?_of_plain (plain : frame.lineSize = frame.rowSize)
    (readable : frame.Readable) :
    ∃ samples, frame.packed? = some samples ∧ frame.Packs samples := by
  have enough : 0 + frame.rowSize * frame.height ≤ frame.samples.size := by
    rcases Nat.eq_zero_or_pos frame.height with none | some
    · simp [none]
    · rw [Nat.zero_add, ← neededSamples_of_plain plain some]
      exact readable some
  have taken : slice? frame.samples 0 (frame.rowSize * frame.height) =
      some (frame.samples.extract 0 (0 + frame.rowSize * frame.height)) := if_pos enough
  refine ⟨_, frame.packed?_eq.trans ((if_pos plain).trans taken), size_slice? taken,
    fun line inside => ?_⟩
  rw [getElem?_slice? taken (row_lt line inside), plain, Nat.zero_add]

theorem Frame.packed?_of_padded (padded : frame.lineSize ≠ frame.rowSize)
    (readable : frame.Readable) :
    ∃ samples, frame.packed? = some samples ∧ frame.Packs samples := by
  have each : ∀ y ∈ List.range frame.height, ∀ rows : Array UInt16,
      ((slice? frame.samples (y * frame.lineSize) frame.rowSize).map (rows ++ ·)).isSome := by
    intro y listed rows
    rw [Option.isSome_map]
    exact isSome_slice?.mpr (readable.row (List.mem_range.mp listed))
  obtain ⟨samples, joined⟩ := Option.isSome_iff_exists.mp (isSome_foldlM each #[])
  refine ⟨samples, frame.packed?_eq.trans ((if_neg padded).trans joined), ?_, fun line inside => ?_⟩
  · rw [size_foldlM_rows (fun y part taken => size_slice? taken) joined, List.length_range]
    exact Nat.zero_add _
  · obtain ⟨part, taken, sample⟩ := getElem?_foldlM_rows (fun y part taken => size_slice? taken)
      joined (List.getElem?_range line) inside
    rw [Array.size_empty, Nat.zero_add] at sample
    rw [sample, getElem?_slice? taken inside]

theorem Frame.Readable.packed? (readable : frame.Readable) :
    ∃ samples, frame.packed? = some samples ∧ frame.Packs samples := by
  by_cases plain : frame.lineSize = frame.rowSize
  · exact packed?_of_plain plain readable
  · exact packed?_of_padded plain readable

/-- The first row that goes past the buffer, however many rows there are. -/
def Frame.missing (frame : Frame) : Nat :=
  if frame.samples.size < frame.rowSize then 0
  else (frame.samples.size - frame.rowSize) / frame.lineSize + 1

/-- Where the first read that goes past the buffer would end. -/
def Frame.stop (frame : Frame) : Nat :=
  if frame.lineSize = frame.rowSize then frame.rowSize * frame.height
  else frame.missing * frame.lineSize + frame.rowSize

theorem Frame.row_of_lt_missing {y : Nat} (before : y < frame.missing) :
    y * frame.lineSize + frame.rowSize ≤ frame.samples.size := by
  unfold missing at before
  split at before
  case isTrue => exact absurd before (Nat.not_lt_zero y)
  case isFalse some_row =>
    have rows : y * frame.lineSize ≤ frame.samples.size - frame.rowSize :=
      (Nat.mul_le_mul_right _ (Nat.lt_succ_iff.mp before)).trans (Nat.div_mul_le_self _ _)
    omega

theorem Frame.missing_of_not_readable (unreadable : ¬ frame.Readable) :
    frame.missing < frame.height ∧
      frame.samples.size < frame.missing * frame.lineSize + frame.rowSize := by
  rw [Readable, Classical.not_imp, Nat.not_le, neededSamples, Nat.mul_comm] at unreadable
  obtain ⟨lines, short⟩ := unreadable
  unfold missing
  split
  case isTrue none_whole => exact ⟨lines, by omega⟩
  case isFalse some_row =>
    have within : frame.samples.size - frame.rowSize < (frame.height - 1) * frame.lineSize := by
      omega
    have positive : 0 < frame.lineSize := Nat.pos_of_mul_pos_left (Nat.zero_lt_of_lt within)
    have rows : (frame.samples.size - frame.rowSize) / frame.lineSize < frame.height - 1 :=
      (Nat.div_lt_iff_lt_mul positive).mpr within
    have past : frame.samples.size - frame.rowSize <
        (frame.samples.size - frame.rowSize) / frame.lineSize * frame.lineSize + frame.lineSize :=
      Nat.lt_div_mul_add positive
    exact ⟨by omega, by rw [Nat.succ_mul]; omega⟩

/-- What stops the packing: the read that goes past the buffer, or the computation of its end. -/
theorem Frame.packed_of_not_readable (unreadable : ¬ frame.Readable) : frame.packed =
    .error (if Number.sizeLimit ≤ frame.stop then .overflow else .outOfRange) := by
  obtain ⟨line, past⟩ := missing_of_not_readable unreadable
  by_cases plain : frame.lineSize = frame.rowSize
  · have lines : 0 < frame.height := Nat.zero_lt_of_lt line
    rw [Readable, Classical.not_imp, neededSamples_of_plain plain lines, Nat.not_le] at unreadable
    rw [packed, if_pos plain, stop, if_pos plain, slice_of_beyond (by omega), Nat.zero_add]
  · rw [packed, if_neg plain, stop, if_neg plain]
    let row (y : Nat) := slice frame.samples (y * frame.lineSize) frame.rowSize
    have there (y : Nat) (before : y < frame.missing) : ∃ part, row y = .ok part := by
      simp only [row]
      rw [slice, slice?, if_pos (row_of_lt_missing before)]
      exact ⟨_, rfl⟩
    have gone : row frame.missing = .error _ := slice_of_beyond past
    exact foldlM_rows_of_error there gone line #[]

theorem Frame.stop_lt (whole : frame.rowSize * frame.height < Number.sizeLimit)
    (rows : frame.samples.size + frame.lineSize + frame.rowSize < Number.sizeLimit) :
    frame.stop < Number.sizeLimit := by
  unfold stop missing
  split
  · exact whole
  split
  · omega
  · have before := Nat.div_mul_le_self (frame.samples.size - frame.rowSize) frame.lineSize
    rw [Nat.succ_mul]
    omega

theorem Frame.packed_eq_error_iff {fault : Fault} : frame.packed = .error fault ↔
    ¬ frame.Readable ∧
      fault = if Number.sizeLimit ≤ frame.stop then .overflow else .outOfRange := by
  constructor
  · intro stopped
    have unreadable : ¬ frame.Readable := by
      intro readable
      obtain ⟨samples, found, -⟩ := readable.packed?
      rw [Frame.packed?, stopped] at found
      cases found
    rw [packed_of_not_readable unreadable] at stopped
    exact ⟨unreadable, (Except.error.inj stopped).symm⟩
  · rintro ⟨unreadable, rfl⟩
    exact packed_of_not_readable unreadable

theorem Frame.packed_of_packed? (found : frame.packed? = some samples) :
    frame.packed = .ok samples := by
  unfold packed? at found
  cases packed : frame.packed with
  | error fault =>
    rw [packed] at found
    cases found
  | ok whole =>
    rw [packed] at found
    exact congrArg Except.ok (Option.some.inj found)

/-- The channels of a pixel in their order. -/
def channels (pixel : UInt16 × UInt16 × UInt16) : List UInt16 := [pixel.1, pixel.2.1, pixel.2.2]

theorem channel_place (width x y c : Nat) :
    y * (3 * width) + (3 * x + c) = 3 * (y * width + x) + c := by
  ring

theorem Frame.Packs.pixel (packs : frame.Packs samples) {x y : Nat} (column : x < frame.width)
    (line : y < frame.height) : ∃ pixel, frame.pixel? x y = some pixel ∧
      ∀ c < 3, samples[3 * (y * frame.width + x) + c]? = (channels pixel)[c]? := by
  have inside {c : Nat} (channel : c < 3) : 3 * x + c < frame.rowSize := by
    rw [Frame.rowSize]
    omega
  have found {c : Nat} (channel : c < 3) :
      ∃ sample, samples[3 * (y * frame.width + x) + c]? = some sample ∧
        frame.samples[y * frame.lineSize + 3 * x + c]? = some sample := by
    have within : y * frame.rowSize + (3 * x + c) < samples.size := by
      rw [packs.size_eq]
      exact row_lt line (inside channel)
    have here := Array.getElem?_eq_getElem within
    refine ⟨_, by rw [← channel_place, ← Frame.rowSize, here], ?_⟩
    rw [Nat.add_assoc, ← packs.sample line (inside channel), here]
  obtain ⟨first, first_here, first_there⟩ := found (c := 0) (by decide)
  obtain ⟨second, second_here, second_there⟩ := found (c := 1) (by decide)
  obtain ⟨third, third_here, third_there⟩ := found (c := 2) (by decide)
  rw [Nat.add_zero] at first_there
  refine ⟨(first, second, third), ?_, fun c channel => ?_⟩
  · simp only [Frame.pixel?, first_there, second_there, third_there]
    rfl
  · obtain rfl | rfl | rfl : c = 0 ∨ c = 1 ∨ c = 2 := by omega
    · exact first_here
    · exact second_here
    · exact third_here

end rows

namespace Simulated
variable {frame : Frame} {picture : Picture} {samples : Array UInt16} {p : Processor}

theorem complete_of_pictureOf (made : pictureOf frame = .ok picture) : frame.Complete := by
  simp only [pictureOf] at made
  split at made
  case isTrue fits => exact ⟨fits.1, fits.2⟩
  case isFalse => cases made

theorem packed?_of_pictureOf (made : pictureOf frame = .ok picture) :
    ∃ samples, frame.packed? = some samples ∧
      picture = ⟨frame.width, frame.height, frame.pts, samples⟩ := by
  obtain ⟨samples, packed, packs⟩ := (complete_of_pictureOf made).readable.packed?
  have whole := packed_pictureOf made
  have same : picture.samples = samples := by
    apply ext_rows whole.size_eq packs.size_eq
    intro y j line inside
    exact (sample_pictureOf made line inside).trans (packs.sample line inside).symm
  refine ⟨samples, packed, ?_⟩
  rw [← same, ← whole.width_eq, ← whole.height_eq, ← (fills_pictureOf made).2]

namespace Processor

/-- What it takes for a frame to be accepted. -/
structure Takes (p : Processor) (frame : Frame) : Prop where
  streaming : p.ended = false
  spared : { p with submissions := p.submissions + 1 }.injectsFailure = false
  accepts : p.Accepts frame
  worker : p.lane.worker.isSome

/-- A submission gives these samples of the frame to the worker, whose kernel takes them in at once
when it is idle. -/
structure Hands (p : Processor) (frame : Frame) (samples : Array UInt16) : Prop where
  given : p.process frame = { p with submissions := p.submissions + 1 }.give
    (.picture ⟨frame.width, frame.height, frame.pts, samples⟩)
  pushed {kernel kernel' : Kernel} {outputs : List Output} (service : p.InService kernel)
    (made : kernel.push? ⟨frame.width, frame.height, frame.pts, samples⟩ =
      some (kernel', outputs)) :
    p.process frame =
      (.ok (), { p with submissions := p.submissions + 1 }.after kernel' outputs)

theorem give_ok_iff {job : Job} : (p.give job).1 = .ok () ↔ p.lane.worker.isSome := by
  cases there : p.lane.worker <;> simp [give, Lane.submit, there]

theorem takes_of_ok (taken : (p.process frame).1 = .ok ()) : p.Takes frame := by
  cases ended : p.ended with
  | true =>
    rw [Processor.process, if_pos ended] at taken
    cases taken
  | false =>
    rw [process_of_streaming ended] at taken
    cases examined : { p with submissions := p.submissions + 1 }.examine frame with
    | error cause =>
      rw [examined] at taken
      cases taken
    | ok picture =>
      rw [examined] at taken
      obtain ⟨spared, ⟨width, height⟩, made⟩ := examine_eq_ok_iff.mp examined
      exact ⟨ended, spared, ⟨width, height, complete_of_pictureOf made⟩, give_ok_iff.mp taken⟩

theorem Takes.given (takes : p.Takes frame) : ∃ samples, frame.packed? = some samples ∧
    p.process frame = { p with submissions := p.submissions + 1 }.give
      (.picture ⟨frame.width, frame.height, frame.pts, samples⟩) := by
  obtain ⟨picture, made⟩ := exists_pictureOf takes.accepts.rows.wide takes.accepts.rows.long
  have examined := examine_eq_ok_iff.mpr
    ⟨takes.spared, ⟨takes.accepts.width_eq, takes.accepts.height_eq⟩, made⟩
  obtain ⟨samples, packed, rfl⟩ := packed?_of_pictureOf made
  refine ⟨samples, packed, ?_⟩
  rw [process_of_streaming takes.streaming, examined]

theorem process_ok_iff : (p.process frame).1 = .ok () ↔ p.Takes frame := by
  refine ⟨takes_of_ok, fun takes => ?_⟩
  obtain ⟨samples, -, given⟩ := takes.given
  rw [given]
  exact give_ok_iff.mpr takes.worker

theorem Takes.hands (takes : p.Takes frame) (packed : frame.packed? = some samples) :
    p.Hands frame samples := by
  obtain ⟨samples', packed', given⟩ := takes.given
  obtain rfl : samples' = samples := Option.some.inj (packed'.symm.trans packed)
  refine ⟨given, fun service pushed => ?_⟩
  rw [given]
  exact (service.count (p.submissions + 1)).give pushed

end Processor

end Simulated

end FrameRelay
