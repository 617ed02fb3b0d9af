import FrameRelay.Kernel.Picture

/-! Upscaling by repeating each pixel `scale` times in both directions. -/

namespace FrameRelay.Kernel.Upscale

/-- Sample `i` of the enlarged picture, by its row, column and channel. -/
def sampleAt (scale : Nat) (picture : Picture) (i : Nat) : UInt16 :=
  let row := 3 * (picture.width * scale)
  let y := i / row
  let x := i % row / 3
  picture.samples.getD (y / scale * picture.rowSize + 3 * (x / scale) + i % row % 3) 0

def enlarge (scale : Nat) (picture : Picture) : Array UInt16 :=
  Array.ofFn fun i : Fin (3 * (picture.width * scale) * (picture.height * scale)) =>
    sampleAt scale picture i

/-- The enlarged picture; a scale of one hands on the picture as it is. None if the samples do
not fill the picture, or if its new size goes beyond the words for it. -/
def output? (scale : Nat) (picture : Picture) : Option Output :=
  let width := picture.width * scale
  let height := picture.height * scale
  if scale = 1 then some picture.output
  else if picture.filled && width < Number.shortLimit && height < Number.shortLimit then
    some ⟨width, height, picture.pts, some (enlarge scale picture)⟩
  else none

end FrameRelay.Kernel.Upscale
