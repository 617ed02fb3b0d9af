import FrameRelay.Engine.Basic

/-! The scripted engine: its behaviour is set from outside and every call is on record. All
processors share the one script, so it can still be read when they are gone. -/

namespace FrameRelay

/-- How the engine behaves. `lag` inputs' worth of outputs are held back while streaming; with
`stall` they are never given up. -/
structure Knobs where
  failPts : List Int := []
  suppressPts : List Int := []
  outputsPerInput : Nat := 1
  lag : Nat := 0
  stall : Bool := false
  failOutput : Bool := false
  failCreate : Option EngineError := none
  outputSize : Option (Nat × Nat) := none
  deriving Repr, DecidableEq, Inhabited

/-- The knobs, the calls on record, and the outputs as pts and fill value: `ready` to be pulled
or still `held`. -/
structure Script where
  knobs : Knobs
  submitted : List Int
  created : Nat
  destroyed : Nat
  endStreamCalls : Nat
  remainingCalls : Nat
  lastSpec : Option ProcessorSpec
  ready : List (Int × UInt16)
  held : List (Int × UInt16)
  deriving Inhabited

namespace Script

def start (knobs : Knobs) : Script := ⟨knobs, [], 0, 0, 0, 0, none, [], []⟩

def pending (script : Script) : Nat := script.ready.length + script.held.length

def modelOf : ModelType → Model
  | .frameInterpolation => ⟨"chr-1", .frameInterpolation, [1], true⟩
  | .parameterEstimation => ⟨"prap-3", .parameterEstimation, [1], true⟩
  | .camPoseEstimation => ⟨"cpe-1", .camPoseEstimation, [1], true⟩
  | .upscaling => ⟨"amq-13", .upscaling, [1, 2, 4], true⟩
  | .stabilization => ⟨"ref-2", .stabilization, [1], true⟩

def offer : Offer := ⟨1, ModelType.all.map modelOf⟩

def create (spec : ProcessorSpec) (script : Script) : Except EngineError Unit × Script :=
  match script.knobs.failCreate with
  | some cause => (.error cause, script)
  | none => (.ok (), { script with created := script.created + 1, lastSpec := some spec })

/-- The outputs of one input. Suppressed ones have a negative pts. -/
def outputsOf (knobs : Knobs) (frame : Frame) : List (Int × UInt16) :=
  let fill := frame.samples.getD 0 0
  (List.range knobs.outputsPerInput).map fun (i : Nat) =>
    if frame.pts ∈ knobs.suppressPts then (-1, fill)
    else (frame.pts * knobs.outputsPerInput + i, fill)

/-- Whether what is computed for an input fits the words: the pts of its outputs, and the number of
outputs to be held back. -/
def Fits (knobs : Knobs) (frame : Frame) : Prop :=
  (∀ output ∈ outputsOf knobs frame, InWord output.1) ∧
    knobs.lag * knobs.outputsPerInput < Number.sizeLimit

instance (knobs : Knobs) (frame : Frame) : Decidable (Fits knobs frame) :=
  inferInstanceAs (Decidable (_ ∧ _))

def process (frame : Frame) (script : Script) : Except EngineError Unit × Script :=
  if frame.pts ∈ script.knobs.failPts then
    (.error (.rejected ("scripted failure at " ++ toString frame.pts)), script)
  else if Fits script.knobs frame then
    let held := script.held ++ outputsOf script.knobs frame
    let surplus := held.length - script.knobs.lag * script.knobs.outputsPerInput
    (.ok (), { script with
      submitted := script.submitted ++ [frame.pts]
      ready := script.ready ++ held.take surplus
      held := held.drop surplus })
  else (.error (.fault .overflow), script)

def pop (script : Script) : Except EngineError (Int × UInt16) × Script :=
  match script.ready with
  | [] => (.error .noOutput, script)
  | output :: rest =>
    (if script.knobs.failOutput then .error .noPixels else .ok output,
      { script with ready := rest })

/-- Counts the call; once a stream has ended, one held output becomes ready. -/
def remaining (script : Script) : Nat × Script :=
  let script := { script with remainingCalls := script.remainingCalls + 1 }
  let moves := 0 < script.endStreamCalls && !script.knobs.stall
  let script := match moves, script.held with
    | true, output :: rest => { script with ready := script.ready ++ [output], held := rest }
    | _, _ => script
  (script.pending, script)

instance : Engine Script Unit where
  offer _ := offer
  create spec script := script.create spec
  process frame _ script :=
    let (result, script) := script.process frame
    (result, (), script)
  ready _ script := (script.ready.length, (), script)
  discard _ script :=
    let (result, script) := script.pop
    (result.map Prod.fst, (), script)
  pull buffer _ script :=
    let (result, script) := script.pop
    (result.map fun (pts, fill) => (pts, Array.replicate buffer.samples.size fill), (), script)
  endStream _ script := ((), { script with endStreamCalls := script.endStreamCalls + 1 })
  remaining _ script :=
    let (count, script) := script.remaining
    (count, (), script)
  outputSize _ script := script.knobs.outputSize
  release _ script := { script with destroyed := script.destroyed + 1 }

end Script

end FrameRelay
