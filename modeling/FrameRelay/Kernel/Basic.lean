import FrameRelay.Kernel.Estimation
import FrameRelay.Kernel.Interpolation
import FrameRelay.Kernel.Pose
import FrameRelay.Kernel.Stabilization
import FrameRelay.Kernel.Upscale

/-! The work behind a processor: a kernel takes pictures one at a time, then finishes once; both
may bring outputs. -/

namespace FrameRelay
open Number

inductive Kernel where
  | estimation (state : Kernel.Estimation)
  | pose (file : Kernel.PoseFile)
  | upscale (scale : Nat)
  | interpolation (state : Kernel.Interpolation Float)
  | stabilization (state : Kernel.Stabilization)
  deriving Inhabited

/-- What a kernel leaves behind beside its outputs. -/
inductive Artifact where
  | note (line : String)
  | poses (file : Kernel.PoseFile)
  deriving Inhabited

namespace Kernel

def buildInterpolation (parameters : List Float32) : Except EngineError Kernel :=
  match parameters with
  | [threshold, factor, _, duplicateLimit] =>
    if factor.isFinite && 0.0 < widen factor then
      .ok (.interpolation (.start (widen factor) (widen threshold) (widen duplicateLimit)))
    else
      .error (.invalidParameters
        ("fps factor " ++ messageTextSingle factor ++ " must be positive"))
  | _ =>
    .error (.invalidParameters
      ("interpolation expects 4 parameters, got " ++ toString parameters.length))

/-- The second parameter bounds the window, and so does the cache, the sixth. -/
def buildStabilization (spec : ProcessorSpec) : Except EngineError Kernel :=
  match spec.parameters with
  | [_, window, _, _, _, cache, _, _, _, _, _] =>
    let count := wholeNat 18446744073709551615
    .ok (.stabilization ⟨min (count window) (count cache), Stabilization.cropOf? spec, []⟩)
  | parameters =>
    .error (.invalidParameters
      ("stabilization expects 11 parameters, got " ++ toString parameters.length))

def build (spec : ProcessorSpec) : Except EngineError Kernel :=
  match spec.kind with
  | .parameterEstimation => .ok (.estimation .empty)
  | .camPoseEstimation =>
    match spec.options with
    | [] => .error (.invalidParameters "pose estimation needs an output filename")
    | path :: _ =>
      let rolling := match spec.parameters with
        | [] => false
        | first :: _ => decide (0.0 < widen first)
      .ok (.pose ⟨path, spec.model, rolling, #[]⟩)
  | .upscaling => .ok (.upscale (max spec.scale 1))
  | .frameInterpolation => buildInterpolation spec.parameters
  | .stabilization => buildStabilization spec

/-- Takes in one picture. None if the kernel has to read past its samples. -/
def push? (kernel : Kernel) (picture : Picture) : Option (Kernel × List Output) :=
  match kernel with
  | .estimation state => some (.estimation (state.push picture), [picture.marker])
  | .pose file => (file.push? picture).map fun file => (.pose file, [picture.marker])
  | .upscale scale => (Upscale.output? scale picture).map fun output => (.upscale scale, [output])
  | .interpolation state =>
    let (state, outputs) := state.push picture
    some (.interpolation state, outputs)
  | .stabilization state =>
    (state.push? picture).map fun (state, outputs) => (.stabilization state, outputs)

/-- Ends the stream: the outputs still held, and what is left behind. -/
def finish? (kernel : Kernel) : Option (Kernel × List Output × List Artifact) :=
  match kernel with
  | .estimation state => some (kernel, [], (state.report?.map Artifact.note).toList)
  | .pose file => some (kernel, [], [.poses file])
  | .upscale _ => some (kernel, [], [])
  | .interpolation state =>
    let (state, outputs) := state.finish
    some (.interpolation state, outputs, [])
  | .stabilization state =>
    state.finish?.map fun (state, outputs) => (.stabilization state, outputs, [])

end Kernel

end FrameRelay
