import FrameRelay.Command.Basic
import FrameRelay.Engine.Simulated
import FrameRelay.Report.Basic

/-! A run from its invocation to what it prints and leaves in its folder. The latency of the
engine has no effect here: all work that a call sets off is finished when it returns. -/

namespace FrameRelay.Command

/-- Why a run failed. -/
inductive RunFault where
  | invalid (cause : StageError)
  | configure (name : String) (cause : StageError)
  | stage (name : String) (cause : StageError)
  | report (fault : ReportFault)
  deriving Repr, DecidableEq, Inhabited

def RunFault.chain : RunFault → List String
  | .invalid cause => cause.message :: cause.causes
  | .configure name cause =>
    ("Failed to configure stage " ++ name) :: cause.message :: cause.causes
  | .stage name cause => ("Stage " ++ name ++ " failed") :: cause.message :: cause.causes
  | .report fault => fault.chain

/-- Whether there is a fault below the failure. The run does not come to an end then. -/
def RunFault.isFault : RunFault → Bool
  | .invalid cause | .configure _ cause | .stage _ cause => cause.isFault
  | .report _ => false

/-- What a run came to. Its report, with the path for it, is still to be written. -/
structure RunResult where
  fault : Option RunFault
  printed : String
  folder : Folder
  report : Option (String × RunReport)

namespace RunResult

def failed (fault : RunFault) (folder : Folder) : RunResult := ⟨some fault, "", folder, none⟩

/-- Writes the report, if one is wanted. A failure to do so comes before the stage's own. -/
def writeReport (result : RunResult) (clock : Clock) : RunResult :=
  match result.report with
  | none => result
  | some (path, report) =>
    match result.folder.writeReport path report clock with
    | (.error fault, folder) => { result with fault := some (.report fault), folder }
    | (.ok (), folder) => { result with folder }

end RunResult

def padRight (width : Nat) (s : String) : String :=
  s ++ String.ofList (List.replicate (width - s.length) ' ')

def padLeft (width : Nat) (s : String) : String :=
  String.ofList (List.replicate (width - s.length) ' ') ++ s

def deviceLine (index : Int) (name : String) : String :=
  "  " ++ padLeft 2 (toString index) ++ "  " ++ name ++ "\n"

def modelLine (model : Model) : String :=
  "  " ++ padRight 8 model.name ++ " " ++ padRight 24 model.kind.text ++ " scales " ++
    padRight 8 (String.intercalate "," (model.scales.map toString)) ++ " " ++
    (if model.installed then "local" else "download") ++ "\n"

def listing (engine : Simulated) : String :=
  "Devices:\n" ++ deviceLine (-2) "auto" ++ deviceLine (-1) "cpu" ++
    String.join ((List.range engine.gpus).map fun (i : Nat) =>
      deviceLine i (Simulated.deviceName i)) ++
    "Models:\n" ++ String.join (engine.offer.models.map modelLine)

namespace Globals

def engine (g : Globals) : Simulated := .start g.gpus g.rejectEvery

/-- The policy of a stage, as far as nothing else is asked for. -/
def policy (g : Globals) (base : DrainPolicy) : DrainPolicy where
  interval := (g.drainIntervalMillis.map Duration.ofMillis).getD base.interval
  maxStalledPolls := g.drainMaxStalls.getD base.maxStalledPolls

def failurePolicy (g : Globals) : FailurePolicy := if g.keepGoing then .carryOn else .abort

def clip (g : Globals) (format : PixelFormat) : Clip :=
  ⟨g.width, g.height, format, g.frameRate, g.frames, 0⟩

end Globals

/-- Statistics of a run; one that failed does not know its number of pulls. -/
def statsOf (result : Outcome RunStats) (host : HostStats) : RunStats :=
  match result with
  | .ok stats => stats
  | .error _ => .ofHost 0 host

abbrev RunHost := Host Simulated Simulated.Processor Tally

/-- Runs a clip through a configured stage and tears the stage down. -/
def runHost (g : Globals) (options : StageOptions) (clip : Clip) (output : Link) (host : RunHost) :
    RunResult :=
  let (result, host, _) := host.run g.failurePolicy clip
  let closed := host.close
  let tally := closed.out.sink
  let report : RunReport :=
    { stage := options.name
      policy := g.failurePolicy
      input := clip.link
      output := some output
      settings := host.stage.station.session.settings
      options
      finalState := host.state
      stats := statsOf result host.stats
      tally := tally.stats
      error := match result with
        | .ok _ => none
        | .error cause => some cause.message }
  { fault := match result with
      | .ok _ => none
      | .error cause => some (.stage options.name cause)
    printed := ""
    folder := tally.folder.keep closed.stage.station.engine.artifacts
    report := g.report.map fun path => (path, report) }

def runStage (g : Globals) (options : StageOptions) (folder : Folder) : RunResult :=
  let sink := Tally.start g.dumpTo g.dumpLimit folder
  match Stage.start options g.engine (g.policy options.policy) sink .empty with
  | .error cause => .failed (.invalid cause) folder
  | .ok stage =>
    let clip := g.clip options.format
    match (Host.start stage).configure clip.link with
    | (.error cause, _) => .failed (.configure options.name cause) folder
    | (.ok output, host) => runHost g options clip output host

def Invocation.run (invocation : Invocation) (folder : Folder) : RunResult :=
  match invocation.request with
  | .models => ⟨none, listing invocation.globals.engine, folder, none⟩
  | .stage options => runStage invocation.globals options folder

end FrameRelay.Command
