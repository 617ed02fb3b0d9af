import FrameRelay.Command.OptionField
import FrameRelay.Stage.Options

/-! The options of the five stages and those of every run. -/

namespace FrameRelay
open Command

def DeviceOptions.fields : List (OptionField DeviceOptions) :=
  let index := (OptionField.ofWhole (.whole (-2147483648) 2147483647) "device" fun o index =>
    { o with index }).signed
  [{ index with spec := { index.spec with placeholder := "INDEX" } },
    .truth "download" fun o download => { o with download }]

def PerformanceOptions.fields : List (OptionField PerformanceOptions) :=
  [.shortCount "instances" fun o instances => { o with instances },
    .number "vram" fun o vram => { o with vram }]

def PoseOptions.fields : List (OptionField PoseOptions) :=
  DeviceOptions.fields.map (.within PoseOptions.device fun o device => { o with device }) ++
  [.text "model" fun o model => { o with model },
    .path "filename" fun o filename => { o with filename }]

def EstimationOptions.fields : List (OptionField EstimationOptions) :=
  DeviceOptions.fields.map (.within EstimationOptions.device fun o device => { o with device }) ++
  [.text "model" fun o model => { o with model }]

def InterpolationOptions.fields : List (OptionField InterpolationOptions) :=
  DeviceOptions.fields.map
    (.within InterpolationOptions.device fun o device => { o with device }) ++
  PerformanceOptions.fields.map
    (.within InterpolationOptions.performance fun o performance => { o with performance }) ++
  [.text "model" fun o model => { o with model },
    .number "slowmo" fun o slowmo => { o with slowmo },
    (.number "rdt" fun o rdt => { o with rdt } : OptionField InterpolationOptions).signed,
    .ratio "fps" fun o fps => { o with fps }]

def UpscaleOptions.fields : List (OptionField UpscaleOptions) :=
  DeviceOptions.fields.map (.within UpscaleOptions.device fun o device => { o with device }) ++
  PerformanceOptions.fields.map
    (.within UpscaleOptions.performance fun o performance => { o with performance }) ++
  [.text "model" fun o model => { o with model },
    .shortCount "scale" fun o scale => { o with scale },
    .shortCount "w" fun o w => { o with w },
    .shortCount "h" fun o h => { o with h },
    .count "estimate" fun o estimate => { o with estimate }] ++
  [.number "preblur" fun o preblur => { o with preblur },
    .number "noise" fun o noise => { o with noise },
    .number "details" fun o details => { o with details },
    .number "halo" fun o halo => { o with halo },
    .number "blur" fun o blur => { o with blur },
    .number "compression" fun o compression => { o with compression }].map OptionField.signed ++
  [.number "prenoise" fun o prenoise => { o with prenoise },
    .number "grain" fun o grain => { o with grain },
    .number "gsize" fun o gsize => { o with gsize },
    .truth "kcolor" fun o kcolor => { o with kcolor },
    .number "blend" fun o blend => { o with blend }]

def StabilizationOptions.fields : List (OptionField StabilizationOptions) :=
  DeviceOptions.fields.map
    (.within StabilizationOptions.device fun o device => { o with device }) ++
  PerformanceOptions.fields.map
    (.within StabilizationOptions.performance fun o performance => { o with performance }) ++
  [.text "model" fun o model => { o with model },
    .truth "full" fun o full => { o with full },
    .path "filename" fun o filename => { o with filename },
    .text "filler" fun o filler => { o with filler },
    .number "rst" fun o rst => { o with rst },
    .number "wst" fun o wst => { o with wst },
    .truth "postflight" fun o postflight => { o with postflight },
    .shortCount "ws" fun o ws => { o with ws },
    .number "csx" fun o csx => { o with csx },
    .number "csy" fun o csy => { o with csy },
    .number "smoothness" fun o smoothness => { o with smoothness },
    .shortCount "cache" fun o cache => { o with cache },
    .shortCount "dof" fun o dof => { o with dof },
    .truth "roll" fun o roll => { o with roll },
    .shortCount "reduce" fun o reduce => { o with reduce }]

namespace StageOptions

/-- The stages with their options as they are when nothing is given. -/
def defaults : List StageOptions :=
  [.pose {}, .estimation {}, .interpolation {}, .upscale {}, .stabilization {}]

def ofName? (name : String) : Option StageOptions := defaults.find? (·.name == name)

def specs : StageOptions → List OptionSpec
  | .pose _ => PoseOptions.fields.map OptionField.spec
  | .estimation _ => EstimationOptions.fields.map OptionField.spec
  | .interpolation _ => InterpolationOptions.fields.map OptionField.spec
  | .upscale _ => UpscaleOptions.fields.map OptionField.spec
  | .stabilization _ => StabilizationOptions.fields.map OptionField.spec

/-- The options with new values for the names given. -/
def fill (options : StageOptions) (values : List (String × Value)) : StageOptions :=
  match options with
  | .pose o => .pose (OptionField.fill PoseOptions.fields o values)
  | .estimation o => .estimation (OptionField.fill EstimationOptions.fields o values)
  | .interpolation o => .interpolation (OptionField.fill InterpolationOptions.fields o values)
  | .upscale o => .upscale (OptionField.fill UpscaleOptions.fields o values)
  | .stabilization o => .stabilization (OptionField.fill StabilizationOptions.fields o values)

end StageOptions

namespace Command

/-- What any run is given: the clip, the engine, the drain, and where results go. -/
structure Globals where
  frames : Nat := 48
  width : Nat := 320
  height : Nat := 180
  frameRate : Ratio := ⟨30, 1⟩
  latencyMillis : Nat := 2
  gpus : Nat := 1
  rejectEvery : Option Nat := none
  drainIntervalMillis : Option Nat := none
  drainMaxStalls : Option Nat := none
  keepGoing : Bool := false
  report : Option String := none
  dumpTo : Option String := none
  dumpLimit : Nat := 8
  deriving Repr, DecidableEq, Inhabited

def Globals.fields : List (OptionField Globals) :=
  [.count "frames" fun g frames => { g with frames },
    .shortCount "width" fun g width => { g with width },
    .shortCount "height" fun g height => { g with height },
    .ratio "input-fps" fun g frameRate => { g with frameRate },
    .orFrom "FRAMEFLOW_ENGINE_LATENCY_MS"
      (.count "engine-latency-ms" fun g latencyMillis => { g with latencyMillis }),
    .orFrom "FRAMEFLOW_GPUS" (.shortCount "gpus" fun g gpus => { g with gpus }),
    .count "reject-every" fun g every => { g with rejectEvery := some every },
    .count "drain-interval-ms" fun g millis => { g with drainIntervalMillis := some millis },
    .shortCount "drain-max-stalls" fun g stalls => { g with drainMaxStalls := some stalls },
    .switch "keep-going" fun g => { g with keepGoing := true },
    .orFrom "FRAMEFLOW_REPORT" (.path "report" fun g path => { g with report := some path }),
    .path "dump-dir" fun g path => { g with dumpTo := some path },
    .shortCount "dump-limit" fun g dumpLimit => { g with dumpLimit }]

end Command

end FrameRelay
