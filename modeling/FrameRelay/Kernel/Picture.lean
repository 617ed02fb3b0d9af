import FrameRelay.Frame.Basic

/-! What goes into a kernel and comes out of it. -/

namespace FrameRelay

/-- A submitted frame without padding: row `y` starts at sample `y * (3 * width)`. -/
structure Picture where
  width : Nat
  height : Nat
  pts : Int
  samples : Array UInt16
  deriving Repr, DecidableEq, Inhabited

/-- One output of a kernel. Outputs of an estimation carry no samples. -/
structure Output where
  width : Nat
  height : Nat
  pts : Int
  samples : Option (Array UInt16)
  deriving Repr, DecidableEq, Inhabited

namespace Picture

def rowSize (picture : Picture) : Nat := 3 * picture.width

def filled (picture : Picture) : Bool :=
  picture.rowSize * picture.height ≤ picture.samples.size

def output (picture : Picture) : Output :=
  ⟨picture.width, picture.height, picture.pts, some picture.samples⟩

/-- The output that only reports that the picture was seen. -/
def marker (picture : Picture) : Output := ⟨0, 0, picture.pts, none⟩

end Picture

end FrameRelay
