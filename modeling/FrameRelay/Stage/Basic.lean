import FrameRelay.Stage.Station

/-! The five stages: how each configures a stream, takes a frame and drains. -/

namespace FrameRelay

/-- A station with the options of its stage; `retiming` is the spacing of the open stream. -/
structure Stage (ε π σ : Type) where
  options : StageOptions
  station : Station ε π σ
  retiming : Option Retiming

namespace StageOptions

/-- Stages that hand frames on poll often, the others wait longer. -/
def policy (options : StageOptions) : DrainPolicy :=
  if options.synthesizes then .postflight else .estimation

end StageOptions

namespace Stage
variable {ε π σ : Type}

/-- A stage without a stream; its options have to be valid. -/
def start (options : StageOptions) (engine : ε) (policy : DrainPolicy) (sink : σ) (pool : Pool) :
    Outcome (Stage ε π σ) :=
  options.validate.map fun _ => ⟨options, .start engine policy sink pool, none⟩

variable [Engine ε π]

def openStream (settings : StreamSettings) (link : Link) (stage : Stage ε π σ) :
    Outcome Link × Stage ε π σ :=
  let (result, station) := stage.station.openStream settings link
  (result, { stage with station })

/-- Opens the stream of an interpolation: the spacing comes first, and a stream that is open
stays so if there is none. -/
def configureInterpolation (o : InterpolationOptions) (link : Link) (stage : Stage ε π σ) :
    Outcome Link × Stage ε π σ :=
  match Retiming.compute o.slowmo o.fps link.frameRate with
  | .error cause => (.error cause, stage)
  | .ok retiming =>
    match stage.openStream (o.settings retiming) link with
    | (.error cause, stage) => (.error cause, stage)
    | (.ok outLink, stage) =>
      (.ok { outLink with timeBase := link.timeBase, frameRate := retiming.frameRate },
        { stage with retiming := some retiming })

/-- The output size of a stabilization that is not full-frame is the processor's. -/
def configureStabilization (o : StabilizationOptions) (link : Link) (stage : Stage ε π σ) :
    Outcome Link × Stage ε π σ :=
  match stage.openStream o.settings link with
  | (.error cause, stage) => (.error cause, stage)
  | (.ok outLink, stage) =>
    let cropped := match stage.station.session.handle with
      | none => none
      | some handle => Lease.outputSize ⟨stage.station.engine, handle⟩
    match o.full, cropped with
    | false, some (width, height) => (.ok { outLink with width, height }, stage)
    | _, _ => (.ok outLink, stage)

def clearPrevious (stage : Stage ε π σ) : Stage ε π σ :=
  { stage with station := stage.station.clearPrevious }

/-- Opens a stream for an input link and gives the output link. -/
def configure (link : Link) (stage : Stage ε π σ) : Outcome Link × Stage ε π σ :=
  match stage.options with
  | .pose o => stage.openStream o.settings link
  | .estimation o => stage.openStream o.settings link
  | .interpolation o => stage.clearPrevious.configureInterpolation o link
  | .upscale o => stage.clearPrevious.openStream (o.settings (o.scaleFor link)) link
  | .stabilization o => stage.clearPrevious.configureStabilization o link

variable [Sink σ]

def accept (frame : Frame) (stage : Stage ε π σ) : Outcome Unit × Stage ε π σ :=
  if stage.options.synthesizes then
    let (result, station) := stage.station.synthesize frame
    (result.map fun _ => (), { stage with station })
  else
    let (result, station) := stage.station.passThrough frame
    (result, { stage with station })

/-- Flushes the stream. The processor is gone afterwards in any case. -/
def drain (stage : Stage ε π σ) : Outcome DrainReport × Stage ε π σ :=
  let (result, station) :=
    if stage.options.synthesizes then stage.station.finishSynthesis
    else stage.station.drainIgnoring
  (result, { stage with station })

/-- Gives up the stream, in any state. -/
def close (stage : Stage ε π σ) : Stage ε π σ :=
  let station := stage.station.close
  { stage with
    station := if stage.options.synthesizes then station.clearPrevious else station }

end Stage

end FrameRelay
