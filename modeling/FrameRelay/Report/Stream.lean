import FrameRelay.Stage.Options
import FrameRelay.Text.Document

/-! Documents of links, of the settings that a stream runs with and of what an engine is asked
for then. -/

namespace FrameRelay

def Ratio.document (r : Ratio) : Document := .object [("num", .int r.num), ("den", .int r.den)]

def Link.document (link : Link) : Document :=
  .object [("width", .nat link.width), ("height", .nat link.height),
    ("format", .text link.format.text), ("time_base", link.timeBase.document),
    ("frame_rate", link.frameRate.document), ("sample_aspect_ratio", link.aspect.document)]

def singles (values : List Float32) : Document := .list (values.map .single)

/-- The kind of parameters comes first, then their own fields. -/
def StageParameters.document : StageParameters → Document
  | .poseEstimation filename rollingShutter =>
    .object [("kind", .text "pose_estimation"), ("filename", .text filename),
      ("rolling_shutter", .bool rollingShutter)]
  | .parameterEstimation => .object [("kind", .text "parameter_estimation")]
  | .interpolation threshold fpsFactor slowmo rdt =>
    .object [("kind", .text "interpolation"), ("threshold", .double threshold),
      ("fps_factor", .double fpsFactor), ("slowmo", .double slowmo), ("rdt", .double rdt)]
  | .upscale values => .object [("kind", .text "upscale"), ("values", singles values)]
  | .stabilization fullFrame values filename filler =>
    .object [("kind", .text "stabilization"), ("full_frame", .bool fullFrame),
      ("values", singles values), ("filename", .text filename), ("filler", .text filler)]

def StreamSettings.document (s : StreamSettings) : Document :=
  .object [("model_type", .text s.kind.text), ("model", .text s.model),
    ("processor_index", .int s.processorIndex), ("device", .int s.device),
    ("extra_instances", .nat s.extraInstances), ("vram", .double s.vram), ("scale", .nat s.scale),
    ("can_download", .bool s.mayDownload), ("frame_count", .nat s.frameCount),
    ("params", s.parameters.document)]

def ProcessorSpec.document (s : ProcessorSpec) : Document :=
  .object [("processor_name", .text s.name), ("processor_index", .int s.index),
    ("model_name", .text s.model), ("model_type", .text s.kind.text), ("scale", .nat s.scale),
    ("device", .int s.device), ("extra_threads", .nat s.extraThreads),
    ("vram_fraction", .double s.vramFraction), ("can_download_model", .bool s.mayDownload),
    ("input_width", .nat s.width), ("input_height", .nat s.height),
    ("input_format", .text s.format.text), ("timebase", .double s.timeBase),
    ("framerate", .double s.frameRate), ("frame_count", .nat s.frameCount),
    ("model_parameters", singles s.parameters), ("options", .list (s.options.map .text))]

end FrameRelay
