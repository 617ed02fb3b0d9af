import FrameRelay.Report.Stream

/-! Documents of the options of a stage, as they were given. -/

namespace FrameRelay

def DeviceOptions.document (o : DeviceOptions) : Document :=
  .object [("index", .int o.index), ("download", .bool o.download)]

def PerformanceOptions.document (o : PerformanceOptions) : Document :=
  .object [("instances", .nat o.instances), ("vram", .double o.vram)]

def PoseOptions.document (o : PoseOptions) : Document :=
  .object [("model", .text o.model), ("device", o.device.document), ("filename", .text o.filename)]

def EstimationOptions.document (o : EstimationOptions) : Document :=
  .object [("model", .text o.model), ("device", o.device.document)]

def InterpolationOptions.document (o : InterpolationOptions) : Document :=
  .object [("model", .text o.model), ("device", o.device.document),
    ("performance", o.performance.document), ("slowmo", .double o.slowmo), ("rdt", .double o.rdt),
    ("fps", o.fps.document)]

def UpscaleOptions.document (o : UpscaleOptions) : Document :=
  .object [("model", .text o.model), ("scale", .nat o.scale), ("w", .nat o.w), ("h", .nat o.h),
    ("device", o.device.document), ("performance", o.performance.document),
    ("estimate", .nat o.estimate), ("preblur", .double o.preblur), ("noise", .double o.noise),
    ("details", .double o.details), ("halo", .double o.halo), ("blur", .double o.blur),
    ("compression", .double o.compression), ("prenoise", .double o.prenoise),
    ("grain", .double o.grain), ("gsize", .double o.gsize), ("kcolor", .bool o.kcolor),
    ("blend", .double o.blend)]

def StabilizationOptions.document (o : StabilizationOptions) : Document :=
  .object [("model", .text o.model), ("device", o.device.document),
    ("performance", o.performance.document), ("full", .bool o.full), ("filename", .text o.filename),
    ("filler", .text o.filler), ("rst", .double o.rst), ("wst", .double o.wst),
    ("postflight", .bool o.postflight), ("ws", .nat o.ws), ("csx", .double o.csx),
    ("csy", .double o.csy), ("smoothness", .double o.smoothness), ("cache", .nat o.cache),
    ("dof", .nat o.dof), ("roll", .bool o.roll), ("reduce", .nat o.reduce)]

def StageOptions.document : StageOptions → Document
  | .pose o => o.document
  | .estimation o => o.document
  | .interpolation o => o.document
  | .upscale o => o.document
  | .stabilization o => o.document

end FrameRelay
