import FrameRelay.Stage.Host

/-! Sources of frames, and the run of a whole clip through a stage. -/

namespace FrameRelay

/-- Frames waiting to be pulled. A `fault` is raised once, before the next frame. -/
structure Queue where
  frames : List Frame
  fault : Option String
  deriving Inhabited

namespace Queue

def next (queue : Queue) (pool : Pool) : Outcome (Option Frame) × Queue × Pool :=
  match queue.fault with
  | some reason => (.error (.configuration reason), { queue with fault := none }, pool)
  | none =>
    match queue.frames with
    | [] => (.ok none, queue, pool)
    | frame :: rest => (.ok (some frame), { queue with frames := rest }, pool)

instance : Source Queue := ⟨next, fun queue => queue.frames.length⟩

end Queue

/-- A synthetic clip of a gradient that moves along the diagonal. -/
structure Clip where
  width : Nat
  height : Nat
  format : PixelFormat
  frameRate : Ratio
  total : Nat
  index : Nat
  deriving Repr, DecidableEq, Inhabited

namespace Clip

/-- Ticks per frame. -/
def ticks : Int := 1000

/-- The time base is a tick; its length is bounded by the signed words. -/
def link (clip : Clip) : Link where
  width := clip.width
  height := clip.height
  format := clip.format
  timeBase := ⟨clip.frameRate.den,
    max Number.minWord (min Number.maxWord (clip.frameRate.num * ticks))⟩
  frameRate := clip.frameRate
  aspect := .one

/-- Sample `i` of frame `index`: the channels start a third of the range apart, the last one
runs down. -/
def sampleAt (width index i : Nat) : UInt16 :=
  let base := (i % (3 * width) / 3 + i / (3 * width) + 4 * index) * 257 % 65536
  match i % 3 with
  | 0 => base.toUInt16
  | 1 => ((base + 21845) % 65536).toUInt16
  | _ => (65535 - base).toUInt16

def samples (clip : Clip) (index : Nat) : Array UInt16 :=
  Array.ofFn fun i : Fin (3 * clip.width * clip.height) => sampleAt clip.width index i

def render (clip : Clip) (index : Nat) (pool : Pool) : Frame × Pool :=
  let (frame, pool) := pool.wrap clip.width clip.height clip.format (clip.samples index)
  ({ frame with pts := index * ticks }, pool)

def next (clip : Clip) (pool : Pool) : Outcome (Option Frame) × Clip × Pool :=
  if clip.total ≤ clip.index then (.ok none, clip, pool)
  else
    let (frame, pool) := clip.render clip.index pool
    (.ok (some frame), { clip with index := clip.index + 1 }, pool)

instance : Source Clip := ⟨next, fun clip => clip.total - clip.index⟩

end Clip

/-- What a run does when a single frame fails. -/
inductive FailurePolicy where
  | abort
  | carryOn
  deriving Repr, DecidableEq, Inhabited

def FailurePolicy.text : FailurePolicy → String
  | .abort => "abort"
  | .carryOn => "continue"

structure RunStats where
  requests : Nat
  framesIn : Nat
  framesOut : Nat
  submissionFailures : Nat
  reachedEnd : Bool
  drainPolls : Nat
  deriving Repr, DecidableEq, Inhabited

namespace RunStats

def ofHost (requests : Nat) (stats : HostStats) : RunStats where
  requests := requests
  framesIn := stats.framesIn
  framesOut := stats.framesOut
  submissionFailures := stats.submissionFailures
  reachedEnd := stats.endSent
  drainPolls := stats.drainPolls

end RunStats

namespace Host
variable {ε π σ ρ : Type} [Engine ε π] [Sink σ] [Source ρ]

/-- Pulls up to `left` more times after `requests` pulls, until the stream has ended or a failure
stops the run. -/
def pullAll (policy : FailurePolicy) :
    (left requests : Nat) → Host ε π σ → ρ → Outcome Nat × Host ε π σ × ρ
  | 0, requests, h, source => (.ok requests, h, source)
  | left + 1, requests, h, source =>
    match h.request source with
    | (.ok .more, h, source) => pullAll policy left (requests + 1) h source
    | (.ok .ended, h, source) => (.ok (requests + 1), h, source)
    | (.error cause, h, source) =>
      if cause.isRecoverable && policy == .carryOn then
        pullAll policy left (requests + 1) h source
      else (.error cause, h, source)

/-- Runs a source to its end. One pull more than there are frames reaches it. -/
def run (policy : FailurePolicy) (h : Host ε π σ) (source : ρ) :
    Outcome RunStats × Host ε π σ × ρ :=
  let (result, h, source) := h.pullAll policy (Source.left source + 1) 0 source
  (result.map fun requests => .ofHost requests h.stats, h, source)

end Host

end FrameRelay
