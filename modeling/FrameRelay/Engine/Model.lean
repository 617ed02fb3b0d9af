import FrameRelay.Frame.Link

/-! The catalog side of an engine: kinds of models, their descriptions, what a processor is
created from, and why an engine refuses a call. -/

namespace FrameRelay

/-- The kind of work a model does; each stage asks for one. -/
inductive ModelType where
  | frameInterpolation
  | parameterEstimation
  | camPoseEstimation
  | upscaling
  | stabilization
  deriving Repr, DecidableEq, Inhabited

namespace ModelType

def text : ModelType → String
  | .frameInterpolation => "frame-interpolation"
  | .parameterEstimation => "parameter-estimation"
  | .camPoseEstimation => "cam-pose-estimation"
  | .upscaling => "upscaling"
  | .stabilization => "stabilization"

def all : List ModelType :=
  [.frameInterpolation, .parameterEstimation, .camPoseEstimation, .upscaling, .stabilization]

end ModelType

/-- One entry of a catalog; a model that is not `installed` has to be downloaded. -/
structure Model where
  name : String
  kind : ModelType
  scales : List Nat
  installed : Bool
  deriving Repr, DecidableEq, Inhabited

/-- All that an engine needs to create a processor for one stream. -/
structure ProcessorSpec where
  name : String
  index : Int
  model : String
  kind : ModelType
  scale : Nat
  device : Int
  extraThreads : Nat
  vramFraction : Float
  mayDownload : Bool
  width : Nat
  height : Nat
  format : PixelFormat
  timeBase : Float
  frameRate : Float
  frameCount : Nat
  parameters : List Float32
  options : List String
  deriving Inhabited

def bracketed (items : List Nat) : String :=
  "[" ++ String.intercalate ", " (items.map toString) ++ "]"

/-- Why an engine or a processor refuses a call. A `fault` is no answer that a caller gets to see:
a result that holds one stands for a call that does not return. -/
inductive EngineError where
  | unknownModel (model : String) (kind : ModelType)
  | invalidDevice (index : Int) (available : Nat)
  | invalidScale (model : String) (scale : Nat) (allowed : List Nat)
  | downloadDenied (model : String)
  | invalidParameters (reason : String)
  | rejected (reason : String)
  | streamEnded
  | noOutput
  | noPixels
  | bufferTooSmall (needed actual : Nat)
  | workerGone
  | fault (reason : Fault)
  deriving Repr, DecidableEq, Inhabited

def EngineError.message : EngineError → String
  | .unknownModel model kind => "unknown " ++ kind.text ++ " model '" ++ model ++ "'"
  | .invalidDevice index available =>
    "invalid device " ++ toString index ++ ", " ++ toString available ++ " GPUs available"
  | .invalidScale model scale allowed =>
    "scale " ++ toString scale ++ " not supported by model '" ++ model ++ "' (allowed: " ++
      bracketed allowed ++ ")"
  | .downloadDenied model =>
    "model '" ++ model ++ "' is not available locally and downloading is disabled"
  | .invalidParameters reason => "invalid model parameters: " ++ reason
  | .rejected reason => "frame rejected: " ++ reason
  | .streamEnded => "stream has already ended"
  | .noOutput => "no output is ready"
  | .noPixels => "output carries no pixel data"
  | .bufferTooSmall needed actual =>
    "output buffer holds " ++ toString actual ++ " samples, " ++ toString needed ++ " needed"
  | .workerGone => "processor worker has stopped"
  | .fault reason => reason.text

def EngineError.isFault : EngineError → Bool
  | .fault _ => true
  | _ => false

end FrameRelay
