import FrameRelay.Report.Options
import FrameRelay.Stage.Run
import FrameRelay.Store.Tally

/-! The report of a run: what it was asked, what it did and how it ended. -/

namespace FrameRelay

/-- When a run began and ended, as written texts, and the milliseconds it took. -/
structure Clock where
  started : String
  finished : String
  elapsed : Float
  deriving Inhabited

structure RunReport where
  stage : String
  policy : FailurePolicy
  input : Link
  output : Option Link
  settings : Option StreamSettings
  options : StageOptions
  finalState : StreamState
  stats : RunStats
  tally : TallyStats
  error : Option String

def RunStats.fields (stats : RunStats) : List (String × Document) :=
  [("requests", .nat stats.requests), ("frames_in", .nat stats.framesIn),
    ("frames_out", .nat stats.framesOut), ("submission_failures", .nat stats.submissionFailures),
    ("reached_eof", .bool stats.reachedEnd), ("drain_polls", .nat stats.drainPolls)]

def TallyStats.document (stats : TallyStats) : Document :=
  .object [("frames", .nat stats.frames), ("eof_count", .nat stats.ends),
    ("first_pts", .ofOption .int stats.firstPts), ("last_pts", .ofOption .int stats.lastPts),
    ("out_of_order", .nat stats.outOfOrder), ("width", .nat stats.width),
    ("height", .nat stats.height), ("dumped", .nat stats.dumped)]

namespace RunReport

/-- The options stand in the order of their names, all else in the order of a run. -/
def document (report : RunReport) (clock : Clock) : Document :=
  .object [("stage", .text report.stage), ("started_at", .text clock.started),
    ("finished_at", .text clock.finished), ("failure_policy", .text report.policy.text),
    ("input", report.input.document), ("output", .ofOption Link.document report.output),
    ("stream_config", .ofOption StreamSettings.document report.settings),
    ("options", report.options.document.sorted), ("final_state", .text report.finalState.text),
    ("stats", .object (report.stats.fields ++ [("elapsed_ms", .double clock.elapsed)])),
    ("sink", report.tally.document),
    ("error", .ofOption .text report.error)]

end RunReport

/-- Why a report could not be written. -/
inductive ReportFault where
  | directory (path : String) (cause : PathFault)
  | file (path : String) (cause : PathFault)
  deriving Repr, DecidableEq, Inhabited

/-- The messages of a fault, the outer one first. -/
def ReportFault.chain : ReportFault → List String
  | .directory path cause => ["Failed to create report directory " ++ path, cause.message]
  | .file path cause => ["Failed to write report " ++ path, cause.message]

namespace Folder

/-- Writes a report, with the directories above it. The directories stay where only the file
could not be written. -/
def writeReport (folder : Folder) (path : String) (report : RunReport) (clock : Clock) :
    Except ReportFault Unit × Folder :=
  match folder.makeDirectory (parentPath path) with
  | (.error cause, folder) => (.error (.directory (parentPath path) cause), folder)
  | (.ok (), folder) =>
    match folder.write path (.text (report.document clock).write) with
    | .error cause => (.error (.file path cause), folder)
    | .ok folder => (.ok (), folder)

end Folder

end FrameRelay
