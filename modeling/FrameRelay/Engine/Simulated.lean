import FrameRelay.Engine.Basic
import FrameRelay.Engine.Lane

/-! The simulated engine: a fixed catalog of models whose processors run cheap kernels. -/

namespace FrameRelay

/-- `rejectEvery` makes each processor refuse every so many submissions; `artifacts` is what
finished streams left behind, oldest first. -/
structure Simulated where
  gpus : Nat
  rejectEvery : Option Nat
  artifacts : List Artifact
  deriving Inhabited

/-- The detail of a host's log. -/
inductive LogLevel where
  | off
  | error
  | warn
  | info
  | debug
  | trace
  deriving Repr, DecidableEq

/-- An engine talks as soon as the host logs at the level of debugging. -/
def LogLevel.isVerbose : LogLevel → Bool
  | .debug | .trace => true
  | _ => false

namespace Simulated

def catalog : List Model :=
  [⟨"chr-1", .frameInterpolation, [1], true⟩,
    ⟨"apo-8", .frameInterpolation, [1], true⟩,
    ⟨"chf-3", .frameInterpolation, [1], false⟩,
    ⟨"prap-3", .parameterEstimation, [1], true⟩,
    ⟨"cpe-1", .camPoseEstimation, [1], true⟩,
    ⟨"cpe-2", .camPoseEstimation, [1], true⟩,
    ⟨"amq-13", .upscaling, [1, 2, 4], true⟩,
    ⟨"prob-4", .upscaling, [1, 2, 4], true⟩,
    ⟨"ahq-12", .upscaling, [1, 2], false⟩,
    ⟨"ref-2", .stabilization, [1], true⟩]

/-- A period of zero rejects nothing. -/
def start (gpus : Nat) (rejectEvery : Option Nat) : Simulated :=
  ⟨gpus, rejectEvery.filter (0 < ·), []⟩

def offer (engine : Simulated) : Offer := ⟨engine.gpus, catalog⟩

def deviceName (index : Nat) : String := "sim-gpu-" ++ toString index

structure Processor where
  width : Nat
  height : Nat
  outputSize : Option (Nat × Nat)
  rejectEvery : Option Nat
  lane : Lane
  submissions : Nat
  ended : Bool
  deriving Inhabited

/-- Checks the request once more on its own, builds the kernel and starts its worker, a thread with
the name of the processor. -/
def create (engine : Simulated) (spec : ProcessorSpec) : Except EngineError Processor := do
  let model ← engine.offer.checkModel spec.kind spec.model
  engine.offer.checkDevice spec.device
  model.checkScale spec.scale
  if !model.installed && !spec.mayDownload then throw (.downloadDenied model.name)
  let kernel ← Kernel.build spec
  if spec.name.toList.contains '\x00' then throw (.fault .threadName)
  return {
    width := spec.width
    height := spec.height
    outputSize := Kernel.Stabilization.cropOf? spec
    rejectEvery := engine.rejectEvery
    lane := .start kernel
    submissions := 0
    ended := false }

/-- The samples a buffer must hold for `height` rows, whose last needs no padding. -/
def neededSamples (lineSize height row : Nat) : Nat := lineSize * (height - 1) + row

theorem row_sample_lt {lineSize height row size i : Nat}
    (fits : neededSamples lineSize height row ≤ size) (inside : i < row * height) :
    i / row * lineSize + i % row < size := by
  unfold neededSamples at fits
  have row_pos : 0 < row := Nat.pos_of_mul_pos_right (Nat.zero_lt_of_lt inside)
  have y_lt : i / row < height := Nat.div_lt_of_lt_mul inside
  have x_lt : i % row < row := Nat.mod_lt _ row_pos
  have rows : i / row * lineSize ≤ (height - 1) * lineSize :=
    Nat.mul_le_mul_right _ (by omega)
  rw [Nat.mul_comm (height - 1)] at rows
  omega

/-- The rows of a frame one after the other, read only where samples are. -/
def packRows (frame : Frame)
    (fits : neededSamples frame.lineSize frame.height frame.rowSize ≤ frame.samples.size) :
    Array UInt16 :=
  Array.ofFn fun i : Fin (frame.rowSize * frame.height) =>
    have inside := row_sample_lt fits i.isLt
    frame.samples[i / frame.rowSize * frame.lineSize + i % frame.rowSize]

/-- Why a buffer does not do. What it needs is computed in machine words: a buffer that is large
enough shows that this fits, and one that is not is refused only if it does. -/
def tooSmall (needed actual : Nat) : EngineError :=
  if Number.sizeLimit ≤ needed then .fault .overflow else .bufferTooSmall needed actual

/-- The picture of a frame whose buffer is large enough. -/
def pictureOf (frame : Frame) : Except EngineError Picture :=
  let needed := neededSamples frame.lineSize frame.height frame.rowSize
  if fits : frame.rowSize ≤ frame.lineSize ∧ needed ≤ frame.samples.size then
    .ok ⟨frame.width, frame.height, frame.pts, packRows frame fits.2⟩
  else .error (tooSmall needed frame.samples.size)

def sizeText (width height : Nat) : String := toString width ++ "x" ++ toString height

namespace Processor

/-- Whether the fault injection hits the submission just counted. -/
def injectsFailure (p : Processor) : Bool :=
  match p.rejectEvery with
  | some n => p.submissions % n == 0
  | none => false

def examine (p : Processor) (frame : Frame) : Except EngineError Picture :=
  if p.injectsFailure then
    .error (.rejected ("injected failure on submission " ++ toString p.submissions))
  else if frame.width ≠ p.width ∨ frame.height ≠ p.height then
    .error (.rejected ("expected " ++ sizeText p.width p.height ++ ", got " ++
      sizeText frame.width frame.height))
  else pictureOf frame

/-- Hands a job to the worker and waits until it is idle. -/
def give (p : Processor) (job : Job) : Except EngineError Unit × Processor :=
  let (result, lane) := p.lane.submit job
  (result, { p with lane := lane.settle })

def process (frame : Frame) (p : Processor) : Except EngineError Unit × Processor :=
  if p.ended then (.error .streamEnded, p)
  else
    let p := { p with submissions := p.submissions + 1 }
    match p.examine frame with
    | .error cause => (.error cause, p)
    | .ok picture => p.give (.picture picture)

def collect (p : Processor) : Processor := { p with lane := p.lane.collect }

def pop (p : Processor) : Except EngineError Output × Processor :=
  match p.lane.ready with
  | [] => (.error .noOutput, p)
  | output :: rest => (.ok output, { p with lane := { p.lane with ready := rest } })

def endStream (p : Processor) : Processor :=
  if p.ended then p else ({ p with ended := true }.give .finish).2

def remaining (p : Processor) : Nat × Processor :=
  let (count, lane) := p.lane.remaining
  (count, { p with lane })

end Processor

/-- Sample `i` of a buffer after rows of pixels were copied in. -/
def paintedSample (pixels : Array UInt16) (row rows lineSize : Nat) (i : Nat) (old : UInt16) :
    UInt16 :=
  if i % lineSize < row ∧ i / lineSize < rows then
    pixels.getD (i / lineSize * row + i % lineSize) old
  else old

/-- Copies the full rows among the pixels into a buffer. None if a row goes past its end. -/
def paint? (pixels : Array UInt16) (row : Nat) (buffer : Buffer) : Option (Array UInt16) :=
  let rows := pixels.size / max row 1
  if rows = 0 then some buffer.samples
  else if row = 0 ∨ buffer.samples.size < neededSamples buffer.lineSize rows row then none
  else some (Array.ofFn fun i : Fin buffer.samples.size =>
    paintedSample pixels row rows buffer.lineSize i buffer.samples[i])

/-- Writes an output into a buffer that is large enough for it. -/
def deliver (output : Output) (buffer : Buffer) : Except EngineError (Int × Array UInt16) :=
  match output.samples with
  | none => .error .noPixels
  | some pixels =>
    let row := 3 * output.width
    let needed := neededSamples buffer.lineSize output.height row
    if buffer.lineSize < row ∨ buffer.samples.size < needed then
      .error (tooSmall needed buffer.samples.size)
    else
      match paint? pixels row buffer with
      | none => .error (.fault .outOfRange)
      | some samples => .ok (output.pts, samples)

/-- Takes over what the worker of a processor left behind. -/
def gather (engine : Simulated) (p : Processor) : Processor × Simulated :=
  ({ p with lane := { p.lane with artifacts := [] } },
    { engine with artifacts := engine.artifacts ++ p.lane.artifacts })

instance : Engine Simulated Processor where
  offer := offer
  create spec engine := (engine.create spec, engine)
  process frame p engine :=
    let (result, p) := p.process frame
    let (p, engine) := engine.gather p
    (result, p, engine)
  ready p engine :=
    let p := p.collect
    (p.lane.ready.length, p, engine)
  discard p engine :=
    let (result, p) := p.pop
    (result.map Output.pts, p, engine)
  pull buffer p engine :=
    let (result, p) := p.pop
    (result.bind fun output => deliver output buffer, p, engine)
  endStream p engine := engine.gather p.endStream
  remaining p engine :=
    let (count, p) := p.remaining
    (count, p, engine)
  outputSize p _ := p.outputSize
  release _ engine := engine

end Simulated

end FrameRelay
