import FrameRelay.Engine.Simulated
import FrameRelay.Proofs.Lifecycle
import Mathlib.Data.Option.Basic

/-! The workers of the simulated engine. A kernel that was built for pictures of one size takes
every picture of that size, so the worker of a processor is never lost: what a processor refuses, it
refuses at submission and for the frame alone. The engine itself never changes but for what finished
streams leave behind. -/

namespace FrameRelay

/-- The picture has this size and all samples of it. -/
structure Picture.Fills (width height : Nat) (picture : Picture) : Prop where
  width : picture.width = width
  height : picture.height = height
  filled : picture.filled = true

theorem isSome_mapM {α β : Type} {f : α → Option β} {items : List α}
    (each : ∀ item ∈ items, (f item).isSome) : (items.mapM f).isSome := by
  induction items with
  | nil => rfl
  | cons item rest ih =>
    obtain ⟨first, here⟩ := Option.isSome_iff_exists.mp (each item List.mem_cons_self)
    obtain ⟨later, there⟩ := Option.isSome_iff_exists.mp
      (ih fun item inside => each item (List.mem_cons_of_mem _ inside))
    simp [List.mapM_cons, here, there]

theorem isSome_foldlM {α β : Type} {f : β → α → Option β} {items : List α}
    (each : ∀ item ∈ items, ∀ state, (f state item).isSome) (state : β) :
    (items.foldlM f state).isSome := by
  induction items generalizing state with
  | nil => rfl
  | cons item rest ih =>
    obtain ⟨next, here⟩ := Option.isSome_iff_exists.mp (each item List.mem_cons_self state)
    simp only [List.foldlM_cons, here]
    exact ih (fun item inside => each item (List.mem_cons_of_mem _ inside)) next

namespace Kernel
variable {width height : Nat} {picture : Picture}

namespace Stabilization

theorem cropLength_le (part : Float) (length : Nat) : cropLength part length ≤ length :=
  Nat.min_le_right _ _

theorem isSome_cut? {cropWidth cropHeight : Nat} (fills : picture.Fills width height)
    (narrow : cropWidth ≤ width) (low : cropHeight ≤ height) :
    (cut? cropWidth cropHeight picture).isSome := by
  have filled : 3 * picture.width * picture.height ≤ picture.samples.size :=
    of_decide_eq_true fills.filled
  rw [fills.width, fills.height] at filled
  unfold cut?
  rw [if_neg (by rw [fills.width, fills.height]; omega)]
  refine isSome_foldlM (fun y inside rows => ?_) #[]
  have below : (picture.height - cropHeight) / 2 + y + 1 ≤ height := by
    rw [fills.height]
    have := List.mem_range.mp inside
    omega
  have row : ((picture.height - cropHeight) / 2 + y) * (3 * width) + 3 * width ≤
      3 * width * height := by
    rw [← Nat.succ_mul, Nat.mul_comm]
    exact Nat.mul_le_mul_left _ below
  have inside : ((picture.height - cropHeight) / 2 + y) * picture.rowSize +
      3 * ((picture.width - cropWidth) / 2) + 3 * cropWidth ≤ picture.samples.size := by
    simp only [Picture.rowSize, fills.width]
    omega
  simp only [slice?, inside, if_true]
  rfl

/-- The window holds pictures of the size that the cut was made for. -/
structure Fits (width height : Nat) (state : Stabilization) : Prop where
  crop : ∀ cropWidth cropHeight, state.crop = some (cropWidth, cropHeight) →
    cropWidth ≤ width ∧ cropHeight ≤ height
  held : ∀ picture ∈ state.held, picture.Fills width height

theorem Fits.isSome_emit? {state : Stabilization} (fits : state.Fits width height)
    (fills : picture.Fills width height) : (emit? state.crop picture).isSome := by
  unfold emit?
  cases cropped : state.crop with
  | none => rfl
  | some size =>
    obtain ⟨narrow, low⟩ := fits.crop size.1 size.2 cropped
    simpa using isSome_cut? fills narrow low

theorem Fits.push? {state : Stabilization} (fits : state.Fits width height)
    (fills : picture.Fills width height) :
    ∃ state' outputs, state.push? picture = some (state', outputs) ∧ state'.Fits width height := by
  have all : ∀ held ∈ state.held ++ [picture], held.Fills width height := by
    intro held inside
    rcases List.mem_append.mp inside with earlier | last
    · exact fits.held held earlier
    · rw [List.mem_singleton.mp last]
      exact fills
  have each : ∀ held ∈ (state.held ++ [picture]).take
      ((state.held ++ [picture]).length - state.window), (emit? state.crop held).isSome :=
    fun held inside => fits.isSome_emit? (all held (List.mem_of_mem_take inside))
  obtain ⟨outputs, emitted⟩ := Option.isSome_iff_exists.mp (isSome_mapM each)
  simp only [Stabilization.push?, emitted]
  exact ⟨_, _, rfl, fits.crop, fun held inside => all held (List.mem_of_mem_drop inside)⟩

end Stabilization

/-- Enlarged pictures of this size fit the words for their size. -/
def Upscale.Fits (width height scale : Nat) : Prop :=
  scale ≠ 1 → width * scale < Number.shortLimit ∧ height * scale < Number.shortLimit

theorem Upscale.Fits.output? {scale : Nat} (fits : Upscale.Fits width height scale)
    (enlarges : scale ≠ 1) (fills : picture.Fills width height) :
    Upscale.output? scale picture =
      some ⟨width * scale, height * scale, picture.pts, some (enlarge scale picture)⟩ := by
  obtain ⟨wide, high⟩ := fits enlarges
  simp [Upscale.output?, enlarges, fills.filled, fills.width, fills.height, wide, high]

/-- The kernel works on pictures of this size. -/
def Fits (width height : Nat) : Kernel → Prop
  | .upscale scale => Upscale.Fits width height scale
  | .stabilization state => state.Fits width height
  | .estimation _ | .pose _ | .interpolation _ => True

theorem fits_build {spec : ProcessorSpec} {kernel : Kernel} (built : build spec = .ok kernel)
    (words : spec.InWords) : kernel.Fits spec.width spec.height := by
  unfold build at built
  split at built
  · cases built
    trivial
  · split at built
    · cases built
    · cases built
      trivial
  · cases built
    intro enlarges
    have scale : max spec.scale 1 = spec.scale := by omega
    rw [scale]
    exact words
  · unfold buildInterpolation at built
    split at built
    · split at built
      · cases built
        trivial
      · cases built
    · cases built
  · unfold buildStabilization at built
    split at built
    · cases built
      refine ⟨fun cropWidth cropHeight cropped => ?_, by simp⟩
      simp only [Stabilization.cropOf?] at cropped
      split at cropped
      · cases cropped
      · cases cropped
        exact ⟨Stabilization.cropLength_le _ _, Stabilization.cropLength_le _ _⟩
    · cases built

theorem Pose.ofPicture?_of_filled (filled : picture.filled = true) :
    ∃ pose, Pose.ofPicture? picture = some pose ∧ pose.pts = picture.pts := by
  simp only [Pose.ofPicture?, filled, Bool.not_true, Bool.false_eq_true, if_false]
  split <;> exact ⟨_, rfl, rfl⟩

theorem Fits.push? {kernel : Kernel} (fits : kernel.Fits width height)
    (fills : picture.Fills width height) :
    ∃ kernel' outputs, kernel.push? picture = some (kernel', outputs) ∧
      kernel'.Fits width height := by
  cases kernel with
  | estimation state => exact ⟨_, _, rfl, trivial⟩
  | pose file =>
    obtain ⟨pose, found, _⟩ := Pose.ofPicture?_of_filled fills.filled
    simp only [Kernel.push?, PoseFile.push?, found]
    exact ⟨_, _, rfl, trivial⟩
  | upscale scale =>
    by_cases same : scale = 1
    · subst same
      exact ⟨_, _, rfl, fits⟩
    · rw [Kernel.push?, Upscale.Fits.output? fits same fills]
      exact ⟨_, _, rfl, fits⟩
  | interpolation state => exact ⟨_, _, rfl, trivial⟩
  | stabilization state =>
    obtain ⟨state', outputs, pushed, fits'⟩ := Stabilization.Fits.push? fits fills
    simp only [Kernel.push?, pushed]
    exact ⟨_, _, rfl, fits'⟩

end Kernel

namespace Simulated

/-- Frames that a processor for this size cannot take: they have another size, their rows are cut
short, or samples are missing. -/
def unfit (width height : Nat) (frame : Frame) : Bool :=
  frame.width != width || frame.height != height || decide (frame.lineSize < frame.rowSize) ||
    decide (frame.samples.size < neededSamples frame.lineSize frame.height frame.rowSize)

/-- A processor for this size can compute how many samples the frame needs. Frames of another size
it does not look into. -/
def Addressable (width height : Nat) (frame : Frame) : Prop :=
  frame.width = width → frame.height = height →
    neededSamples frame.lineSize frame.height frame.rowSize < Number.sizeLimit

instance (width height : Nat) (frame : Frame) : Decidable (Addressable width height frame) :=
  inferInstanceAs (Decidable (frame.width = width → frame.height = height →
    neededSamples frame.lineSize frame.height frame.rowSize < Number.sizeLimit))

theorem tooSmall_of_lt {needed : Nat} (fits : needed < Number.sizeLimit) (actual : Nat) :
    tooSmall needed actual = .bufferTooSmall needed actual :=
  if_neg (Nat.not_le.mpr fits)

theorem tooSmall_of_le {needed : Nat} (beyond : Number.sizeLimit ≤ needed) (actual : Nat) :
    tooSmall needed actual = .fault .overflow :=
  if_pos beyond

theorem isFault_tooSmall (needed actual : Nat) :
    (tooSmall needed actual).isFault = false ↔ needed < Number.sizeLimit := by
  rcases Nat.lt_or_ge needed Number.sizeLimit with fits | beyond
  · rw [tooSmall_of_lt fits]
    exact iff_of_true rfl fits
  · rw [tooSmall_of_le beyond]
    exact iff_of_false Bool.noConfusion (Nat.not_lt.mpr beyond)

theorem fills_pictureOf {frame : Frame} {picture : Picture} (made : pictureOf frame = .ok picture) :
    picture.Fills frame.width frame.height ∧ picture.pts = frame.pts := by
  simp only [pictureOf] at made
  split at made
  · cases made
    refine ⟨⟨rfl, rfl, ?_⟩, rfl⟩
    simp [Picture.filled, Picture.rowSize, packRows, Frame.rowSize]
  · cases made

theorem exists_pictureOf {frame : Frame} (wide : frame.rowSize ≤ frame.lineSize)
    (long : neededSamples frame.lineSize frame.height frame.rowSize ≤ frame.samples.size) :
    ∃ picture, pictureOf frame = .ok picture :=
  ⟨_, dif_pos ⟨wide, long⟩⟩

theorem pictureOf_of_fit {width height : Nat} {frame : Frame}
    (fit : unfit width height frame = false) :
    ∃ picture, pictureOf frame = .ok picture ∧ picture.Fills width height ∧
      picture.pts = frame.pts := by
  simp only [unfit, Bool.or_eq_false_iff, bne_eq_false_iff_eq, decide_eq_false_iff_not,
    Nat.not_lt] at fit
  obtain ⟨⟨⟨rfl, rfl⟩, rows⟩, samples⟩ := fit
  obtain ⟨picture, made⟩ := exists_pictureOf rows samples
  exact ⟨picture, made, fills_pictureOf made⟩

namespace Processor

theorem examine_eq_ok_iff {p : Processor} {frame : Frame} {picture : Picture} :
    p.examine frame = .ok picture ↔ p.injectsFailure = false ∧
      (frame.width = p.width ∧ frame.height = p.height) ∧ pictureOf frame = .ok picture := by
  unfold examine
  split
  case isTrue injected => simp [injected]
  case isFalse spared =>
    split
    case isTrue other =>
      have same : ¬ (frame.width = p.width ∧ frame.height = p.height) := by omega
      simp [same]
    case isFalse same =>
      have same : frame.width = p.width ∧ frame.height = p.height := by omega
      simp [spared, same]

theorem examine_of_reliable {p : Processor} (reliable : p.rejectEvery = none) (frame : Frame) :
    p.examine frame =
      if frame.width ≠ p.width ∨ frame.height ≠ p.height then
        .error (.rejected ("expected " ++ sizeText p.width p.height ++ ", got " ++
          sizeText frame.width frame.height))
      else pictureOf frame := by
  simp only [examine, injectsFailure, reliable, Bool.false_eq_true, if_false]

theorem examine_submissions {p : Processor} (reliable : p.rejectEvery = none) (submissions : Nat)
    (frame : Frame) : { p with submissions }.examine frame = p.examine frame := by
  have same : { p with submissions }.rejectEvery = none := reliable
  rw [examine_of_reliable reliable, examine_of_reliable same]

theorem examine_of_fit {p : Processor} (reliable : p.rejectEvery = none) {frame : Frame}
    (fit : unfit p.width p.height frame = false) :
    ∃ picture, p.examine frame = .ok picture ∧ picture.Fills p.width p.height ∧
      picture.pts = frame.pts := by
  have shape : ¬ (frame.width ≠ p.width ∨ frame.height ≠ p.height) := by
    simp_all [unfit]
  rw [examine_of_reliable reliable, if_neg shape]
  exact pictureOf_of_fit fit

theorem examine_of_unfit {p : Processor} (reliable : p.rejectEvery = none) {frame : Frame}
    (refused : unfit p.width p.height frame = true) :
    ∃ cause, p.examine frame = .error cause ∧
      (cause.isFault = false ↔ Addressable p.width p.height frame) := by
  rw [examine_of_reliable reliable]
  by_cases shape : frame.width ≠ p.width ∨ frame.height ≠ p.height
  · rw [if_pos shape]
    exact ⟨_, rfl, iff_of_true rfl fun width height => by omega⟩
  · rw [if_neg shape]
    have short : ¬ (frame.rowSize ≤ frame.lineSize ∧
        neededSamples frame.lineSize frame.height frame.rowSize ≤ frame.samples.size) := by
      simp only [unfit, Bool.or_eq_true, bne_iff_ne, ne_eq, decide_eq_true_eq] at refused
      omega
    have same : frame.width = p.width ∧ frame.height = p.height := by omega
    simp only [pictureOf, short, dite_false]
    refine ⟨_, rfl, (isFault_tooSmall _ _).trans ?_⟩
    exact ⟨fun fits _ _ => fits, fun addressable => addressable same.1 same.2⟩

/-- A frame of the right size that needs more samples than a word can count is counted, and then
the submission does not return. -/
theorem process_of_beyond {p : Processor} (streaming : p.ended = false)
    (reliable : p.rejectEvery = none) {frame : Frame} (width : frame.width = p.width)
    (height : frame.height = p.height)
    (short : frame.samples.size < neededSamples frame.lineSize frame.height frame.rowSize)
    (beyond : Number.sizeLimit ≤ neededSamples frame.lineSize frame.height frame.rowSize) :
    p.process frame = (.error (.fault .overflow), { p with submissions := p.submissions + 1 }) := by
  have shape : ¬ (frame.width ≠ p.width ∨ frame.height ≠ p.height) := by simp [width, height]
  have made : pictureOf frame = .error (.fault .overflow) := by
    rw [pictureOf, dif_neg fun fits => Nat.not_le.mpr short fits.2, tooSmall_of_le beyond]
  have examined := (examine_submissions reliable (p.submissions + 1) frame).trans
    ((examine_of_reliable reliable frame).trans (if_neg shape))
  rw [process, if_neg (by simp [streaming])]
  dsimp only
  rw [examined, made]

theorem give_of_run {p : Processor} {kernel kernel' : Kernel} {job : Job} {outputs : List Output}
    {artifacts : List Artifact} (idle : p.lane.jobs = []) (there : p.lane.worker = some kernel)
    (ran : Lane.run? kernel job = some (kernel', outputs, artifacts)) :
    p.give job = (.ok (), { p with lane := { p.lane with
      worker := some kernel'
      results := p.lane.results ++ outputs
      artifacts := p.lane.artifacts ++ artifacts } }) := by
  rcases p with ⟨width, height, size, rejectEvery, ⟨worker, jobs, outstanding, results, ready,
    artifacts'⟩, submissions, ended⟩
  cases idle
  cases there
  simp only [give, Lane.submit, Lane.settle, List.nil_append, List.foldl_cons, List.foldl_nil,
    Lane.perform, ran, Nat.add_sub_cancel]

theorem process_of_streaming {p : Processor} (streaming : p.ended = false) (frame : Frame) :
    let counted := { p with submissions := p.submissions + 1 }
    p.process frame = match counted.examine frame with
      | .error cause => (.error cause, counted)
      | .ok picture => counted.give (.picture picture) := by
  intro counted
  unfold Processor.process
  exact if_neg (by simp [streaming])

/-- The stream of the processor is open, its worker is idle with this kernel, and all that it left
behind was taken over. -/
structure InService (kernel : Kernel) (p : Processor) : Prop where
  streaming : p.ended = false
  idle : p.lane.jobs = []
  gathered : p.lane.artifacts = []
  worker : p.lane.worker = some kernel

/-- The processor when its worker is through with a picture. -/
def after (kernel : Kernel) (outputs : List Output) (p : Processor) : Processor :=
  { p with lane := { p.lane with
    worker := some kernel, results := p.lane.results ++ outputs, artifacts := [] } }

section service
variable {kernel kernel' : Kernel} {p : Processor}

theorem InService.after (service : p.InService kernel) (outputs : List Output) :
    (p.after kernel' outputs).InService kernel' :=
  ⟨service.streaming, service.idle, rfl, rfl⟩

theorem InService.count (service : p.InService kernel) (submissions : Nat) :
    InService kernel { p with submissions } :=
  ⟨service.streaming, service.idle, service.gathered, service.worker⟩

theorem InService.collect (service : p.InService kernel) : p.collect.InService kernel :=
  ⟨service.streaming, service.idle, service.gathered, service.worker⟩

theorem InService.pop (service : p.InService kernel) : p.pop.2.InService kernel := by
  unfold Processor.pop
  split
  · exact service
  · exact ⟨service.streaming, service.idle, service.gathered, service.worker⟩

theorem InService.give (service : p.InService kernel) {picture : Picture} {outputs : List Output}
    (pushed : kernel.push? picture = some (kernel', outputs)) :
    p.give (.picture picture) = (.ok (), p.after kernel' outputs) := by
  have ran : Lane.run? kernel (.picture picture) = some (kernel', outputs, []) := by
    simp only [Lane.run?, pushed, Option.map_some]
  rw [give_of_run service.idle service.worker ran, service.gathered]
  rfl

theorem InService.process (service : p.InService kernel) (frame : Frame) :
    let counted := { p with submissions := p.submissions + 1 }
    p.process frame = match counted.examine frame with
      | .error cause => (.error cause, counted)
      | .ok picture => counted.give (.picture picture) :=
  process_of_streaming service.streaming frame

end service

/-- A processor in service whose worker is fit for the size of its frames. -/
structure Works (width height : Nat) (p : Processor) : Prop where
  width_eq : p.width = width
  height_eq : p.height = height
  worker : ∃ kernel, p.InService kernel ∧ kernel.Fits width height

section works
variable {width height : Nat} {p : Processor}

theorem Works.gathered (works : p.Works width height) : p.lane.artifacts = [] := by
  obtain ⟨kernel, service, _⟩ := works.worker
  exact service.gathered

theorem Works.refuses (works : p.Works width height) (reliable : p.rejectEvery = none)
    {frame : Frame} (refused : unfit width height frame = true) :
    ∃ cause : EngineError, (cause.isFault = false ↔ Addressable width height frame) ∧
      ∀ submissions, { p with submissions }.process frame =
        (.error cause, { p with submissions := submissions + 1 }) := by
  rw [← works.width_eq, ← works.height_eq] at refused
  obtain ⟨cause, examined, orderly⟩ := examine_of_unfit reliable refused
  obtain ⟨kernel, service, _⟩ := works.worker
  rw [works.width_eq, works.height_eq] at orderly
  refine ⟨cause, orderly, fun submissions => ?_⟩
  rw [(service.count submissions).process]
  dsimp only
  rw [examine_submissions reliable, examined]

theorem Works.takes (works : p.Works width height) (reliable : p.rejectEvery = none)
    {frame : Frame} (fit : unfit width height frame = false) :
    ∃ kernel outputs, (p.after kernel outputs).Works width height ∧
      ∀ submissions, { p with submissions }.process frame =
        (.ok (), { p.after kernel outputs with submissions := submissions + 1 }) := by
  rw [← works.width_eq, ← works.height_eq] at fit
  obtain ⟨picture, examined, fills, _⟩ := examine_of_fit reliable fit
  rw [works.width_eq, works.height_eq] at fills
  obtain ⟨kernel, service, fits⟩ := works.worker
  obtain ⟨kernel', outputs, pushed, fits'⟩ := fits.push? fills
  have still : (p.after kernel' outputs).Works width height :=
    ⟨works.width_eq, works.height_eq, kernel', service.after outputs, fits'⟩
  refine ⟨kernel', outputs, still, fun submissions => ?_⟩
  rw [(service.count submissions).process]
  dsimp only
  rw [examine_submissions reliable, examined]
  exact (service.count (submissions + 1)).give pushed

theorem Works.collect (works : p.Works width height) : p.collect.Works width height := by
  obtain ⟨kernel, service, fits⟩ := works.worker
  exact ⟨works.width_eq, works.height_eq, kernel, service.collect, fits⟩

theorem Works.pop (works : p.Works width height) : p.pop.2.Works width height := by
  obtain ⟨kernel, service, fits⟩ := works.worker
  have same : p.pop.2.width = p.width ∧ p.pop.2.height = p.height := by
    unfold Processor.pop
    split <;> exact ⟨rfl, rfl⟩
  exact ⟨same.1.trans works.width_eq, same.2.trans works.height_eq, kernel, service.pop, fits⟩

end works

theorem rejectEvery_pop (p : Processor) : p.pop.2.rejectEvery = p.rejectEvery := by
  unfold pop
  split <;> rfl

theorem pop_submissions (p : Processor) (submissions : Nat) :
    { p with submissions }.pop = Prod.map id (fun q => { q with submissions }) p.pop := by
  unfold pop
  split <;> simp_all

theorem endStream_submissions (p : Processor) (submissions : Nat) :
    { p with submissions }.endStream = { p.endStream with submissions } := by
  unfold endStream
  dsimp only
  split <;> rfl

theorem start_of_create {engine : Simulated} {spec : ProcessorSpec} {p : Processor}
    (created : engine.create spec = .ok p) : ∃ kernel, Kernel.build spec = .ok kernel ∧
      p = ⟨spec.width, spec.height, Kernel.Stabilization.cropOf? spec, engine.rejectEvery,
        .start kernel, 0, false⟩ := by
  obtain ⟨model, -, passed⟩ := ok_of_bind created
  obtain ⟨-, -, passed⟩ := ok_of_bind passed
  obtain ⟨-, -, passed⟩ := ok_of_bind passed
  dsimp only at passed
  split at passed
  · cases passed
  obtain ⟨kernel, built, passed⟩ := ok_of_bind passed
  split at passed
  · cases passed
  · cases passed
    exact ⟨kernel, built, rfl⟩

theorem works_create {engine : Simulated} {spec : ProcessorSpec} {p : Processor}
    (created : engine.create spec = .ok p) (words : spec.InWords) :
    p.Works spec.width spec.height ∧ p.rejectEvery = engine.rejectEvery := by
  obtain ⟨kernel, built, rfl⟩ := start_of_create created
  exact ⟨⟨rfl, rfl, kernel, ⟨rfl, rfl, rfl, rfl⟩, Kernel.fits_build built words⟩, rfl⟩

end Processor

theorem gather_of_gathered (engine : Simulated) {p : Processor} (gathered : p.lane.artifacts = []) :
    engine.gather p = (p, engine) := by
  rcases p with ⟨width, height, size, rejectEvery, ⟨worker, jobs, outstanding, results, ready,
    artifacts⟩, submissions, ended⟩
  cases gathered
  simp [gather]

/-- What an engine was started with. -/
def config (engine : Simulated) : Nat × Option Nat := (engine.gpus, engine.rejectEvery)

theorem config_of_path {s s' : Tenure Processor × Simulated} (path : Tenure.Path s s') :
    s'.2.config = s.2.config := by
  induction path with
  | refl => rfl
  | tail _ step ih =>
    refine Eq.trans ?_ ih
    cases step with
    | refused spec e answer => exact congrArg config (Prod.mk.inj answer).2.symm
    | created spec e answer => exact congrArg config (Prod.mk.inj answer).2.symm
    | _ => rfl

theorem config_of_advances {σ : Type} {s s' : Station Simulated Processor σ}
    (advances : s.Advances s') : s'.engine.config = s.engine.config := by
  have same := config_of_path advances.path
  rwa [Station.engine_of_tenure, Station.engine_of_tenure] at same

end Simulated

namespace World
variable {σ ρ : Type} [Sink σ] [Source ρ]

theorem config_perform (w : World Simulated Simulated.Processor σ ρ) (call : Call (Supply σ ρ)) :
    (w.perform Supply.apply call).2.host.station.engine.config = w.host.station.engine.config := by
  rcases advances_perform Supply.apply w call with advances | ⟨event, rfl⟩
  · exact Simulated.config_of_advances advances
  · rfl

theorem config_run (w : World Simulated Simulated.Processor σ ρ)
    (calls : List (Call (Supply σ ρ))) :
    (w.run Supply.apply calls).host.station.engine.config = w.host.station.engine.config :=
  run_invariant Supply.apply (fun w' call same => (config_perform w' call).trans same) rfl calls

end World

end FrameRelay
