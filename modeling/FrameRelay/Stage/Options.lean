import FrameRelay.Stage.Retiming

/-! Options of the five stages, the ranges they have to keep, and the stream settings derived
from them once per stream. -/

namespace FrameRelay
open Number

/-- The device selector: -2 picks one, -1 is the CPU, then come the GPUs. -/
structure DeviceOptions where
  index : Int := -2
  download : Bool := true

structure PerformanceOptions where
  instances : Nat := 0
  vram : Float := 1.0

structure PoseOptions where
  model : String := "cpe-1"
  device : DeviceOptions := {}
  filename : String := "cpe.json"

structure EstimationOptions where
  model : String := "prap-3"
  device : DeviceOptions := {}

/-- A target rate of zero keeps the input rate; an `rdt` of zero or below keeps duplicates. -/
structure InterpolationOptions where
  model : String := "chr-1"
  device : DeviceOptions := {}
  performance : PerformanceOptions := {}
  slowmo : Float := 1.0
  rdt : Float := 0.01
  fps : Ratio := .zero

/-- A scale of zero is derived from the wanted size. -/
structure UpscaleOptions where
  model : String := "amq-13"
  scale : Nat := 1
  w : Nat := 0
  h : Nat := 0
  device : DeviceOptions := {}
  performance : PerformanceOptions := {}
  estimate : Nat := 0
  preblur : Float := 0.0
  noise : Float := 0.0
  details : Float := 0.0
  halo : Float := 0.0
  blur : Float := 0.0
  compression : Float := 0.0
  prenoise : Float := 0.0
  grain : Float := 0.0
  gsize : Float := 0.0
  kcolor : Bool := true
  blend : Float := 0.0

structure StabilizationOptions where
  model : String := "ref-2"
  device : DeviceOptions := {}
  performance : PerformanceOptions := {}
  full : Bool := true
  filename : String := "cpe.json"
  filler : String := ""
  rst : Float := 0.0
  wst : Float := 0.0
  postflight : Bool := true
  ws : Nat := 64
  csx : Float := 2.0
  csy : Float := 2.0
  smoothness : Float := 6.0
  cache : Nat := 128
  dof : Nat := 1111
  roll : Bool := false
  reduce : Nat := 0

/-- Parameters of a stage's model, in the order that engines expect. -/
inductive StageParameters where
  | poseEstimation (filename : String) (rollingShutter : Bool)
  | parameterEstimation
  | interpolation (threshold fpsFactor slowmo rdt : Float)
  | upscale (values : List Float32)
  | stabilization (fullFrame : Bool) (values : List Float32) (filename filler : String)
  deriving Inhabited

/-- One for true, zero for false. -/
def flag (b : Bool) : Float32 := if b then narrow 1.0 else narrow 0.0

namespace StageParameters

def values : StageParameters → List Float32
  | .poseEstimation _ rollingShutter => [flag rollingShutter]
  | .parameterEstimation => []
  | .interpolation threshold fpsFactor slowmo rdt =>
    [narrow threshold, narrow fpsFactor, narrow slowmo, narrow rdt]
  | .upscale values => values
  | .stabilization _ values _ _ => values

def options : StageParameters → List String
  | .poseEstimation filename _ => [filename]
  | .stabilization _ _ filename filler => [filename, filler]
  | _ => []

end StageParameters

/-- What one stream runs with, fixed when its output link is configured. -/
structure StreamSettings where
  kind : ModelType
  model : String
  processorIndex : Int
  device : Int
  extraInstances : Nat
  vram : Float
  scale : Nat
  mayDownload : Bool
  frameCount : Nat
  parameters : StageParameters
  deriving Inhabited

/-- Passes a finite value within `low .. high`. -/
def checkRange (name : String) (value low high : Float) : Outcome Unit :=
  if !value.isFinite || value < low || high < value then
    .error (.configuration (name ++ " = " ++ messageText value ++ " is outside [" ++
      messageText low ++ ", " ++ messageText high ++ "]"))
  else .ok ()

def checkCount (name : String) (value : Nat) (low high : Float) : Outcome Unit :=
  checkRange name (Float.ofNat value) low high

def checkModelName (model : String) : Outcome Unit :=
  if (Text.trim model.toList).isEmpty then .error (.configuration "model name is empty")
  else .ok ()

def DeviceOptions.validate (o : DeviceOptions) : Outcome Unit :=
  checkRange "device" (Float.ofInt o.index) (-2.0) 8.0

def PerformanceOptions.validate (o : PerformanceOptions) : Outcome Unit := do
  checkCount "instances" o.instances 0.0 3.0
  checkRange "vram" o.vram 0.1 1.0

namespace PoseOptions

def validate (o : PoseOptions) : Outcome Unit := do
  checkModelName o.model
  o.device.validate

/-- Every model after the first corrects the rolling shutter. -/
def settings (o : PoseOptions) : StreamSettings where
  kind := .camPoseEstimation
  model := o.model
  processorIndex := 0
  device := o.device.index
  extraInstances := 0
  vram := 1.0
  scale := 1
  mayDownload := o.device.download
  frameCount := 0
  parameters := .poseEstimation o.filename (o.model != "cpe-1")

end PoseOptions

namespace EstimationOptions

def validate (o : EstimationOptions) : Outcome Unit := do
  checkModelName o.model
  o.device.validate

def settings (o : EstimationOptions) : StreamSettings where
  kind := .parameterEstimation
  model := o.model
  processorIndex := 0
  device := o.device.index
  extraInstances := 0
  vram := 1.0
  scale := 1
  mayDownload := o.device.download
  frameCount := 0
  parameters := .parameterEstimation

end EstimationOptions

namespace InterpolationOptions

def validate (o : InterpolationOptions) : Outcome Unit := do
  checkModelName o.model
  o.device.validate
  o.performance.validate
  checkRange "slowmo" o.slowmo 0.1 16.0
  checkRange "rdt" o.rdt (-0.01) 0.2
  if o.fps.num < 0 || o.fps.den ≤ 0 then
    .error (.configuration ("fps = " ++ o.fps.text ++ " is not a valid frame rate"))
  else .ok ()

def settings (o : InterpolationOptions) (retiming : Retiming) : StreamSettings where
  kind := .frameInterpolation
  model := o.model
  processorIndex := 0
  device := o.device.index
  extraInstances := o.performance.instances
  vram := o.performance.vram
  scale := 1
  mayDownload := o.device.download
  frameCount := 0
  parameters := .interpolation retiming.threshold retiming.fpsFactor o.slowmo o.rdt

end InterpolationOptions

namespace UpscaleOptions

def validate (o : UpscaleOptions) : Outcome Unit := do
  checkModelName o.model
  o.device.validate
  o.performance.validate
  checkCount "scale" o.scale 0.0 4.0
  checkCount "w" o.w 0.0 100000.0
  checkCount "h" o.h 0.0 100000.0
  checkCount "estimate" o.estimate 0.0 1000000.0
  checkRange "preblur" o.preblur (-1.0) 1.0
  checkRange "noise" o.noise (-1.0) 1.0
  checkRange "details" o.details (-1.0) 1.0
  checkRange "halo" o.halo (-1.0) 1.0
  checkRange "blur" o.blur (-1.0) 1.0
  checkRange "compression" o.compression (-1.0) 1.0
  checkRange "prenoise" o.prenoise 0.0 0.1
  checkRange "grain" o.grain 0.0 0.1
  checkRange "gsize" o.gsize 0.0 5.0
  checkRange "blend" o.blend 0.0 1.0

/-- The seventh value is unused. -/
def values (o : UpscaleOptions) : List Float32 :=
  [narrow o.preblur, narrow o.noise, narrow o.details, narrow o.halo, narrow o.blur,
    narrow o.compression, narrow 0.0, narrow o.prenoise, narrow o.grain, narrow o.gsize,
    flag o.kcolor, narrow o.blend]

/-- Settings at a scale that is already resolved. -/
def settings (o : UpscaleOptions) (scale : Nat) : StreamSettings where
  kind := .upscaling
  model := o.model
  processorIndex := if 0 < o.estimate then 1 else 0
  device := o.device.index
  extraInstances := o.performance.instances
  vram := o.performance.vram
  scale := scale
  mayDownload := o.device.download
  frameCount := o.estimate
  parameters := .upscale o.values

/-- The ratio of a wanted length to an input length; zero for an empty input. -/
def sizeRatio (target input : Nat) : Float :=
  if input = 0 then 0.0 else Float.ofNat target / Float.ofNat input

/-- The model scale nearest to a wanted size. A target of zero does not count. -/
def deriveScale (w h inputWidth inputHeight : Nat) : Nat :=
  let ratio := larger (sizeRatio w inputWidth) (sizeRatio h inputHeight)
  if 2.4 < ratio then 4 else if 1.2 < ratio then 2 else 1

/-- The scale asked for, or the derived one. -/
def scaleFor (o : UpscaleOptions) (link : Link) : Nat :=
  if o.scale = 0 then deriveScale o.w o.h link.width link.height else o.scale

end UpscaleOptions

namespace StabilizationOptions

def validate (o : StabilizationOptions) : Outcome Unit := do
  checkModelName o.model
  o.device.validate
  o.performance.validate
  checkRange "rst" o.rst 0.0 1.7976931348623157e308
  checkRange "wst" o.wst 0.0 1.7976931348623157e308
  checkCount "ws" o.ws 0.0 512.0
  checkRange "csx" o.csx 1.0 8.0
  checkRange "csy" o.csy 1.0 8.0
  checkRange "smoothness" o.smoothness 0.0 16.0
  checkCount "cache" o.cache 0.0 256.0
  checkCount "dof" o.dof 0.0 1111.0
  checkCount "reduce" o.reduce 0.0 5.0

def values (o : StabilizationOptions) : List Float32 :=
  let count (n : Nat) := narrow (Float.ofNat n)
  [narrow o.smoothness, count o.ws, flag o.postflight, narrow o.csx, narrow o.csy,
    count o.cache, count o.dof, flag o.roll, narrow o.rst, narrow o.wst, count o.reduce]

def settings (o : StabilizationOptions) : StreamSettings where
  kind := .stabilization
  model := o.model
  processorIndex := if o.full then 1 else 0
  device := o.device.index
  extraInstances := o.performance.instances
  vram := o.performance.vram
  scale := 1
  mayDownload := o.device.download
  frameCount := 0
  parameters := .stabilization o.full o.values o.filename o.filler

end StabilizationOptions

/-- The options of one stage. -/
inductive StageOptions where
  | pose (options : PoseOptions)
  | estimation (options : EstimationOptions)
  | interpolation (options : InterpolationOptions)
  | upscale (options : UpscaleOptions)
  | stabilization (options : StabilizationOptions)

namespace StageOptions

def validate : StageOptions → Outcome Unit
  | .pose o => o.validate
  | .estimation o => o.validate
  | .interpolation o => o.validate
  | .upscale o => o.validate
  | .stabilization o => o.validate

def name : StageOptions → String
  | .pose _ => "cpe"
  | .estimation _ => "pe"
  | .interpolation _ => "fi"
  | .upscale _ => "up"
  | .stabilization _ => "stb"

/-- The one format that the stage takes. -/
def format : StageOptions → PixelFormat
  | .pose _ | .stabilization _ => .bgr48
  | .estimation _ | .interpolation _ | .upscale _ => .rgb48

/-- Whether outputs of the processor go downstream instead of the input frames. -/
def synthesizes : StageOptions → Bool
  | .pose _ | .estimation _ => false
  | .interpolation _ | .upscale _ | .stabilization _ => true

end StageOptions

end FrameRelay
