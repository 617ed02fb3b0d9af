import FrameRelay.Kernel.Picture
import FrameRelay.Kernel.Timeline

/-! Frame interpolation: outputs at the multiples of the fps factor, measured in input frames. -/

namespace FrameRelay.Kernel
open Timeline

/-- The anchor is the last distinct input with its position, and `newest` the position and pts
of the last input of all, duplicates included. -/
structure Interpolation (α : Type) where
  fpsFactor : α
  threshold : α
  duplicateLimit : Float
  anchor : Option (α × Picture)
  newest : Option (α × Int)
  inputs : Nat
  next : Nat
  ptsStep : α
  deriving Inhabited

namespace Interpolation
variable {α : Type} [Add α] [Sub α] [Mul α] [Div α] [LT α] [LE α] [DecidableLT α] [DecidableLE α]
  [Timeline α]

def start (fpsFactor threshold : α) (duplicateLimit : Float) : Interpolation α where
  fpsFactor := fpsFactor
  threshold := threshold
  duplicateLimit := duplicateLimit
  anchor := none
  newest := none
  inputs := 0
  next := 0
  ptsStep := ofInt 1

def position (state : Interpolation α) (k : Nat) : α := ofInt k * state.fpsFactor

/-- The outputs still due whose positions meet a test that fails from `limit` on. -/
def due (state : Interpolation α) (limit : α) (meets : α → Bool) : List Nat :=
  (List.range' state.next (reach state.fpsFactor limit + 1 - state.next)).takeWhile
    fun k => meets (state.position k)

/-- The sum of the distances of corresponding samples. -/
def distance (a b : Array UInt16) : Float :=
  (a.zip b).foldl (fun sum (x, y) => sum + (x.toFloat - y.toFloat).abs) 0.0

/-- Whether two pictures differ by less than the limit; a limit of zero or below keeps all. -/
def isDuplicate (limit : Float) (a b : Picture) : Bool :=
  if limit ≤ 0.0 || a.samples.size != b.samples.size || a.samples.isEmpty then false
  else distance a.samples b.samples / (Float.ofNat a.samples.size * 65535.0) < limit

def blend (a b : Picture) (t : α) : Array UInt16 :=
  (a.samples.zip b.samples).map fun (x, y) => mix x y t

/-- Output `k` between two inputs; within the threshold of one it is a copy of that one. -/
def between (state : Interpolation α) (anchorAt : α) (anchor : Picture) (frameAt : α)
    (frame : Picture) (k : Nat) : Output :=
  let p := state.position k
  let t := (p - anchorAt) / (frameAt - anchorAt)
  let samples :=
    if p - anchorAt ≤ state.threshold then anchor.samples
    else if frameAt - p ≤ state.threshold then frame.samples
    else blend anchor frame t
  ⟨frame.width, frame.height,
    anchor.pts + nearest (ofInt (frame.pts - anchor.pts) * t), some samples⟩

def trailing (state : Interpolation α) (anchorAt : α) (anchor : Picture) (k : Nat) : Output :=
  ⟨anchor.width, anchor.height,
    anchor.pts + nearest ((state.position k - anchorAt) * state.ptsStep), some anchor.samples⟩

def push (state : Interpolation α) (frame : Picture) : Interpolation α × List Output :=
  let frameAt : α := ofInt state.inputs
  let seen := { state with inputs := state.inputs + 1, newest := some (frameAt, frame.pts) }
  match state.anchor with
  | none => ({ seen with anchor := some (frameAt, frame) }, [])
  | some (anchorAt, anchor) =>
    if isDuplicate state.duplicateLimit anchor frame then (seen, [])
    else
      let ks := state.due frameAt (· < frameAt)
      ({ seen with
          anchor := some (frameAt, frame)
          next := state.next + ks.length
          ptsStep := ofInt (frame.pts - anchor.pts) / (frameAt - anchorAt) },
        ks.map (state.between anchorAt anchor frameAt frame))

/-- The pts step that reaches the newest input from the anchor. -/
def lastStep (state : Interpolation α) (anchorAt : α) (anchor : Picture) : α :=
  match state.newest with
  | some (newestAt, newestPts) =>
    if anchorAt < newestAt then ofInt (newestPts - anchor.pts) / (newestAt - anchorAt)
    else state.ptsStep
  | none => state.ptsStep

def finish (state : Interpolation α) : Interpolation α × List Output :=
  match state.anchor with
  | none => (state, [])
  | some (anchorAt, anchor) =>
    let state := { state with anchor := none, ptsStep := state.lastStep anchorAt anchor }
    let limit : α := ofInt (state.inputs - 1 : Nat) + slack
    let ks := state.due limit (· ≤ limit)
    ({ state with next := state.next + ks.length }, ks.map (state.trailing anchorAt anchor))

end Interpolation

end FrameRelay.Kernel
