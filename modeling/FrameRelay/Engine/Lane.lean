import FrameRelay.Kernel.Basic

/-! The lane between a processor and its worker. Jobs wait in order; the worker takes one, runs
the kernel, sends the outputs and only then counts the job as done. -/

namespace FrameRelay

inductive Job where
  | picture (picture : Picture)
  | finish
  deriving Inhabited

/-- `outstanding` counts the jobs not yet done, `results` are outputs sent and not collected,
`ready` those collected and not pulled. A worker whose kernel failed is gone. -/
structure Lane where
  worker : Option Kernel
  jobs : List Job
  outstanding : Nat
  results : List Output
  ready : List Output
  artifacts : List Artifact
  deriving Inhabited

namespace Lane

def start (kernel : Kernel) : Lane := ⟨some kernel, [], 0, [], [], []⟩

/-- Counts a job and puts it last; refused once the worker is gone. -/
def submit (job : Job) (lane : Lane) : Except EngineError Unit × Lane :=
  match lane.worker with
  | none => (.error .workerGone, lane)
  | some _ =>
    (.ok (), { lane with jobs := lane.jobs ++ [job], outstanding := lane.outstanding + 1 })

def run? (kernel : Kernel) : Job → Option (Kernel × List Output × List Artifact)
  | .picture picture => (kernel.push? picture).map fun (kernel, outputs) => (kernel, outputs, [])
  | .finish => kernel.finish?

/-- Does one job. A kernel that fails takes the worker with it and leaves the job undone. -/
def perform (lane : Lane) (job : Job) : Lane :=
  match lane.worker with
  | none => lane
  | some kernel =>
    match run? kernel job with
    | none => { lane with worker := none }
    | some (kernel, outputs, artifacts) =>
      { lane with
        worker := some kernel
        results := lane.results ++ outputs
        artifacts := lane.artifacts ++ artifacts
        outstanding := lane.outstanding - 1 }

def settle (lane : Lane) : Lane :=
  lane.jobs.foldl perform { lane with jobs := [] }

def collect (lane : Lane) : Lane :=
  { lane with ready := lane.ready ++ lane.results, results := [] }

/-- Reads the count of jobs before collecting, so that an output is never missed between the
two. -/
def remaining (lane : Lane) : Nat × Lane :=
  let inFlight := lane.outstanding
  let lane := lane.collect
  (inFlight + lane.ready.length, lane)

end Lane

end FrameRelay
