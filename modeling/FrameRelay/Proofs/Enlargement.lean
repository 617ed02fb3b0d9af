import FrameRelay.Proofs.Streaming

/-! One frame through an upscaling processor. The frame is taken or refused when it is submitted;
once taken, each of its pixels comes out `scale` times in both directions, wherever the rows of the
frame and those of the buffer start, and the padding of the buffer stays. -/

namespace FrameRelay
open Simulated (Processor Painted neededSamples)

/-- The rows of a picture of this size fit into the buffer, the last one without its padding. -/
structure Buffer.Holds (width height : Nat) (buffer : Buffer) : Prop where
  wide : 3 * width ≤ buffer.lineSize
  long : buffer.lineSize * (height - 1) + 3 * width ≤ buffer.samples.size

/-- What became of a buffer that an enlarged frame was written into: its pixels are those of the
frame, and nothing else was written. -/
structure Enlarged (scale : Nat) (frame : Frame) (buffer : Buffer) (samples : Array UInt16) :
    Prop where
  size_eq : samples.size = buffer.samples.size
  pixel {x y c : Nat} (column : x < frame.width * scale) (line : y < frame.height * scale)
    (channel : c < 3) : ∃ sample,
      frame.samples[y / scale * frame.lineSize + 3 * (x / scale) + c]? = some sample ∧
      samples[y * buffer.lineSize + 3 * x + c]? = some sample
  padding {i : Nat} (outside : ∀ x y c, x < frame.width * scale → y < frame.height * scale →
    c < 3 → i ≠ y * buffer.lineSize + 3 * x + c) : samples[i]? = buffer.samples[i]?

/-- The frame has the size that the processor works on, and its rows are in its buffer. -/
structure Simulated.Processor.Accepts (p : Processor) (frame : Frame) : Prop where
  width_eq : frame.width = p.width
  height_eq : frame.height = p.height
  rows : Buffer.Holds frame.width frame.height ⟨frame.samples, frame.lineSize⟩

/-- The output that an upscaler makes of a picture of this frame. -/
def Kernel.Upscale.outputOf (scale : Nat) (frame : Frame) (picture : Picture) : Output :=
  ⟨frame.width * scale, frame.height * scale, frame.pts, some (enlarge scale picture)⟩

namespace Simulated
variable {p : Processor} {frame : Frame} {picture : Picture} {buffer : Buffer} {scale : Nat}

namespace Processor

theorem unfit_of_not_accepts (refused : ¬ p.Accepts frame) :
    unfit p.width p.height frame = true := by
  by_contra fit
  apply refused
  simp only [unfit, Bool.or_eq_true, bne_iff_ne, ne_eq, decide_eq_true_eq, not_or, not_not,
    Nat.not_lt] at fit
  obtain ⟨⟨⟨width, height⟩, wide⟩, long⟩ := fit
  exact ⟨width, height, wide, long⟩

theorem Accepts.examine (accepts : p.Accepts frame) (reliable : p.rejectEvery = none) :
    ∃ picture, p.examine frame = .ok picture ∧ pictureOf frame = .ok picture := by
  have shape : ¬ (frame.width ≠ p.width ∨ frame.height ≠ p.height) := by
    simp [accepts.width_eq, accepts.height_eq]
  obtain ⟨picture, made⟩ := exists_pictureOf accepts.rows.wide accepts.rows.long
  refine ⟨picture, ?_, made⟩
  rw [examine_of_reliable reliable, if_neg shape, made]

end Processor

theorem process_of_gathered {answer : Except EngineError Unit} {p' : Processor}
    (engine : Simulated) (processed : p.process frame = (answer, p'))
    (gathered : p'.lane.artifacts = []) :
    Engine.process frame p engine = (answer, p', engine) := by
  simp only [Engine.process, processed, gather_of_gathered engine gathered]

theorem pull_of_cons {output : Output} {rest : List Output} (engine : Simulated)
    (ready : p.lane.ready = output :: rest) (buffer : Buffer) :
    Engine.pull buffer p engine = (deliver output buffer, p.withReady rest, engine) := by
  simp only [Engine.pull, Processor.pop_of_cons ready, Except.bind]

theorem Painted.enlarged {samples : Array UInt16} (accepts : p.Accepts frame)
    (made : pictureOf frame = .ok picture)
    (painted : Painted (Kernel.Upscale.enlarge scale picture) (3 * (frame.width * scale))
      (frame.height * scale) buffer samples) :
    Enlarged scale frame buffer samples where
  size_eq := painted.size_eq
  pixel {x y c} column line channel := by
    have column' : x / scale < frame.width :=
      Nat.div_lt_of_lt_mul (Nat.mul_comm frame.width scale ▸ column)
    have line' : y / scale < frame.height :=
      Nat.div_lt_of_lt_mul (Nat.mul_comm frame.height scale ▸ line)
    have inside : 3 * (x / scale) + c < frame.rowSize := by
      unfold Frame.rowSize
      omega
    have long : neededSamples frame.lineSize frame.height frame.rowSize ≤ frame.samples.size :=
      accepts.rows.long
    have source := row_within long line' inside
    -- from the buffer back over the enlarged and the packed picture to the frame
    have copied := calc
      samples[y * buffer.lineSize + (3 * x + c)]?
        = (Kernel.Upscale.enlarge scale picture)[y * (3 * (frame.width * scale)) + (3 * x + c)]? :=
          painted.pixel line (by omega)
      _ = picture.samples[y / scale * (3 * frame.width) + (3 * (x / scale) + c)]? :=
          Kernel.Upscale.sample_enlarge scale (packed_pictureOf made) column line channel
      _ = frame.samples[y / scale * frame.lineSize + (3 * (x / scale) + c)]? :=
          sample_pictureOf made line' inside
      _ = some _ := Array.getElem?_eq_getElem source
    rw [Nat.add_assoc, Nat.add_assoc, copied]
    exact ⟨_, Array.getElem?_eq_getElem source, rfl⟩
  padding {i} outside := by
    apply painted.padding
    intro y j line inside
    have pixel : y * buffer.lineSize + 3 * (j / 3) + j % 3 = y * buffer.lineSize + j := by omega
    rw [← pixel]
    exact outside (j / 3) y (j % 3) (by omega) line (Nat.mod_lt j (by decide))

/-- An enlarged picture goes into every buffer that holds it, and into no other. -/
theorem deliver_enlarged (accepts : p.Accepts frame) (made : pictureOf frame = .ok picture)
    (scale : Nat) (buffer : Buffer) :
    let output := Kernel.Upscale.outputOf scale frame picture
    (buffer.Holds output.width output.height → ∃ samples,
      deliver output buffer = .ok (frame.pts, samples) ∧ Enlarged scale frame buffer samples) ∧
    (¬ buffer.Holds output.width output.height → deliver output buffer = .error (tooSmall
      (neededSamples buffer.lineSize output.height (3 * output.width)) buffer.samples.size)) := by
  intro output
  have packed := packed_pictureOf made
  constructor
  · intro holds
    have size : (Kernel.Upscale.enlarge scale picture).size =
        3 * (frame.width * scale) * (frame.height * scale) := by
      simp [Kernel.Upscale.enlarge, packed.width_eq, packed.height_eq]
    have shape : output.width = frame.width * scale ∧ output.height = frame.height * scale :=
      ⟨rfl, rfl⟩
    obtain ⟨samples, delivered, painted⟩ := deliver_of_fits shape rfl size holds.wide holds.long
    exact ⟨samples, delivered, painted.enlarged accepts made⟩
  · intro small
    have short : buffer.lineSize < 3 * output.width ∨ buffer.samples.size <
        neededSamples buffer.lineSize output.height (3 * output.width) := by
      by_contra enough
      rw [not_or, Nat.not_lt, Nat.not_lt] at enough
      exact small ⟨enough.1, enough.2⟩
    exact if_pos short

theorem Processor.inService_create {engine : Simulated} {spec : ProcessorSpec}
    (created : engine.create spec = .ok p) (upscales : spec.kind = .upscaling) :
    p.InService (.upscale (max spec.scale 1)) ∧ p.rejectEvery = engine.rejectEvery := by
  obtain ⟨kernel, built, rfl⟩ := start_of_create created
  simp only [Kernel.build, upscales] at built
  cases built
  exact ⟨⟨rfl, rfl, rfl, rfl⟩, rfl⟩

/-- An upscaling processor whose stream is open and whose enlarged size fits its words takes a frame
exactly when it has the size of the processor and its buffer holds the rows; any other is counted
and nothing more. What it makes of one that it takes is the last of its outputs. Pulled into a
buffer that holds the enlarged rows, that output writes every pixel of the frame `scale` times in
both directions and leaves the padding; into any other it writes nothing. On both sides a buffer is
refused in good order as long as the number of samples that it should have fits a word, and
otherwise it is a fault. The copy that stands in for a scale of one makes no difference. -/
theorem upscaling_keeps_pixels {p : Processor} {scale : Nat}
    (service : p.InService (.upscale scale)) (reliable : p.rejectEvery = none)
    (wide : p.width * scale < Number.shortLimit) (high : p.height * scale < Number.shortLimit)
    (engine : Simulated) (frame : Frame) :
    let counted := { p with submissions := p.submissions + 1 }
    (¬ p.Accepts frame → ∃ cause : EngineError,
      Engine.process frame p engine = (.error cause, counted, engine) ∧
        (cause.isFault = false ↔ Addressable p.width p.height frame)) ∧
    (p.Accepts frame → ∃ output,
      output.width = frame.width * scale ∧ output.height = frame.height * scale ∧
      Engine.process frame p engine = (.ok (), counted.after (.upscale scale) [output], engine) ∧
      (counted.after (.upscale scale) [output]).collect.lane.ready =
        p.collect.lane.ready ++ [output] ∧
      ∀ q rest buffer, q.lane.ready = output :: rest → ∀ engine' : Simulated,
        (buffer.Holds output.width output.height → ∃ samples,
          Engine.pull buffer q engine' = (.ok (frame.pts, samples), q.withReady rest, engine') ∧
          Enlarged scale frame buffer samples) ∧
        (¬ buffer.Holds output.width output.height →
          let needed := neededSamples buffer.lineSize output.height (3 * output.width)
          (needed < Number.sizeLimit → Engine.pull buffer q engine' =
            (.error (.bufferTooSmall needed buffer.samples.size), q.withReady rest, engine')) ∧
          (Number.sizeLimit ≤ needed → Engine.pull buffer q engine' =
            (.error (.fault .overflow), q.withReady rest, engine')))) ∧
    ∀ picture : Picture, picture.Packed p.width p.height →
      Kernel.Upscale.output? scale picture = some ⟨p.width * scale, p.height * scale, picture.pts,
        some (Kernel.Upscale.enlarge scale picture)⟩ := by
  intro counted
  have words : Kernel.Upscale.Fits p.width p.height scale := fun _ => ⟨wide, high⟩
  refine ⟨?_, ?_, ?_⟩
  · intro refused
    have works : p.Works p.width p.height := ⟨rfl, rfl, _, service, words⟩
    obtain ⟨cause, orderly, refuses⟩ :=
      works.refuses reliable (Processor.unfit_of_not_accepts refused)
    exact ⟨cause, process_of_gathered engine (refuses p.submissions) service.gathered, orderly⟩
  · intro accepts
    have accepts' : counted.Accepts frame := ⟨accepts.width_eq, accepts.height_eq, accepts.rows⟩
    obtain ⟨picture, examined, made⟩ := accepts'.examine reliable
    have packed := packed_pictureOf made
    have words' : Kernel.Upscale.Fits frame.width frame.height scale := by
      rwa [accepts.width_eq, accepts.height_eq]
    have pushed : (Kernel.upscale scale).push? picture =
        some (.upscale scale, [Kernel.Upscale.outputOf scale frame picture]) := by
      rw [Kernel.push?, Kernel.Upscale.output?_eq words' packed, (fills_pictureOf made).2]
      rfl
    have processed : p.process frame = (.ok (), counted.after (.upscale scale)
        [Kernel.Upscale.outputOf scale frame picture]) := by
      rw [service.process, examined]
      exact (service.count (p.submissions + 1)).give pushed
    refine ⟨Kernel.Upscale.outputOf scale frame picture, rfl, rfl,
      process_of_gathered engine processed rfl, (List.append_assoc _ _ _).symm, ?_⟩
    intro q rest buffer ready engine'
    obtain ⟨delivers, refuses⟩ := deliver_enlarged accepts made scale buffer
    constructor
    · intro holds
      obtain ⟨samples, delivered, enlarged⟩ := delivers holds
      refine ⟨samples, ?_, enlarged⟩
      rw [pull_of_cons engine' ready, delivered]
    · intro small needed
      rw [pull_of_cons engine' ready, refuses small]
      exact ⟨fun fits => by rw [tooSmall_of_lt fits], fun beyond => by rw [tooSmall_of_le beyond]⟩
  · intro picture packed
    exact Kernel.Upscale.output?_eq words packed

/-- A frame of two pixels in one column, its first row padded, enlarged by two into rows that are
padded as well. A buffer with one sample less is too small, and a frame with one less is refused. -/
theorem upscaling_keeps_pixels_padded :
    let spec : ProcessorSpec := ⟨"amq-13-0", 0, "amq-13", .upscaling, 2, -2, 0, 1.0, true, 1, 2,
      .rgb48, 0.04, 25.0, 0, [], []⟩
    let engine := start 1 none
    let frame (samples : Array UInt16) : Frame :=
      { Frame.unpooled 1 2 .rgb48 samples with pts := 5, lineSize := 4 }
    let whole := frame #[1, 2, 3, 0, 4, 5, 6]
    ∃ p, engine.create spec = .ok p ∧
      (∃ cause, (Engine.process (frame #[1, 2, 3, 0, 4, 5]) p engine).1 = .error cause) ∧
      ∃ p', Engine.process whole p engine = (.ok (), p', engine) ∧
        (∃ samples, (Engine.pull ⟨Array.replicate 27 9, 7⟩ p'.collect engine).1 =
            .ok (5, samples) ∧ Enlarged 2 whole ⟨Array.replicate 27 9, 7⟩ samples) ∧
        (Engine.pull ⟨Array.replicate 26 9, 7⟩ p'.collect engine).1 =
          .error (.bufferTooSmall 27 26) := by
  intro spec engine frame whole
  have created : engine.create spec = .ok ⟨1, 2, none, none, .start (.upscale 2), 0, false⟩ := by
    subst engine spec
    rfl
  obtain ⟨service, reliable⟩ := Processor.inService_create created rfl
  obtain ⟨refused, -, -⟩ :=
    upscaling_keeps_pixels service reliable (by decide) (by decide) engine
      (frame #[1, 2, 3, 0, 4, 5])
  obtain ⟨-, accepted, -⟩ :=
    upscaling_keeps_pixels service reliable (by decide) (by decide) engine whole
  obtain ⟨output, width, height, processed, ready, pulls⟩ :=
    accepted ⟨rfl, rfl, by decide, by decide⟩
  refine ⟨_, created, ?_, _, processed, ?_, ?_⟩
  · obtain ⟨cause, answer, -⟩ := refused fun accepts => absurd accepts.rows.long (by decide)
    exact ⟨cause, congrArg Prod.fst answer⟩
  · have holds : Buffer.Holds output.width output.height ⟨Array.replicate 27 9, 7⟩ := by
      rw [width, height]
      exact ⟨by decide, by decide⟩
    obtain ⟨samples, pulled, enlarged⟩ := (pulls _ [] _ ready engine).1 holds
    exact ⟨samples, congrArg Prod.fst pulled, enlarged⟩
  · have small : ¬ Buffer.Holds output.width output.height ⟨Array.replicate 26 9, 7⟩ := by
      rw [width, height]
      intro holds
      exact absurd holds.long (by decide)
    have pulled := ((pulls _ [] _ ready engine).2 small).1 (by rw [width, height]; decide)
    rw [width, height] at pulled
    exact congrArg Prod.fst pulled

/-- With a line size of 2^62, five rows need more samples than a word can count. The three samples
that are there are not refused: the submission does not return. -/
theorem upscaling_stops_at_long_rows :
    let spec : ProcessorSpec := ⟨"amq-13-0", 0, "amq-13", .upscaling, 2, -2, 0, 1.0, true, 1, 5,
      .rgb48, 0.04, 25.0, 0, [], []⟩
    let frame : Frame :=
      { Frame.unpooled 1 5 .rgb48 #[1, 2, 3] with lineSize := 4611686018427387904 }
    ∃ p, (start 1 none).create spec = .ok p ∧ p.InService (.upscale 2) ∧ p.rejectEvery = none ∧
      ¬ p.Accepts frame ∧
      (Engine.process frame p (start 1 none)).1 = .error (.fault .overflow) := by
  intro spec frame
  have created : (start 1 none).create spec =
      .ok ⟨1, 5, none, none, .start (.upscale 2), 0, false⟩ := by
    subst spec
    rfl
  have needed : neededSamples frame.lineSize frame.height frame.rowSize = Number.sizeLimit + 3 := by
    simp [neededSamples, frame, Frame.rowSize, Frame.unpooled, Number.sizeLimit]
  have short : frame.samples.size < neededSamples frame.lineSize frame.height frame.rowSize :=
    needed ▸ (by decide : 3 < Number.sizeLimit + 3)
  have beyond : Number.sizeLimit ≤ neededSamples frame.lineSize frame.height frame.rowSize :=
    needed ▸ Nat.le_add_right Number.sizeLimit 3
  refine ⟨_, created, ⟨rfl, rfl, rfl, rfl⟩, rfl, ?_, ?_⟩
  · intro accepts
    exact Nat.not_le.mpr short accepts.rows.long
  · exact congrArg Prod.fst (process_of_gathered _
      (Processor.process_of_beyond rfl rfl rfl rfl short beyond) rfl)

end Simulated

end FrameRelay
