import FrameRelay.Kernel.Picture

/-! Camera pose estimation: the brightness centroid of every picture. -/

namespace FrameRelay.Kernel

/-- The centroid of a picture and its brightness as part of the largest possible. -/
structure Pose where
  pts : Int
  x : Float
  y : Float
  intensity : Float
  deriving Inhabited

/-- The poses of one stream and the file they go to. -/
structure PoseFile where
  path : String
  model : String
  rollingShutter : Bool
  poses : Array Pose
  deriving Inhabited

namespace Pose

/-- The sums of all samples, of the samples times their column, and times their row. -/
def moments (picture : Picture) : Float × Float × Float :=
  (List.range (picture.width * picture.height)).foldl (fun (total, sumX, sumY) i =>
    let sample (c : Nat) := (picture.samples.getD (3 * i + c) 0).toFloat
    let weight := sample 0 + sample 1 + sample 2
    (total + weight, sumX + weight * Float.ofNat (i % picture.width),
      sumY + weight * Float.ofNat (i / picture.width))) (0.0, 0.0, 0.0)

/-- The pose of a picture; without any brightness it lies in the middle. None if the samples do
not fill the picture. -/
def ofPicture? (picture : Picture) : Option Pose :=
  if !picture.filled then none
  else
    let (total, sumX, sumY) := moments picture
    let width := Float.ofNat picture.width
    let height := Float.ofNat picture.height
    let pixels := width * height
    let pixels := if pixels < 1.0 then 1.0 else pixels
    let intensity := total / (pixels * 3.0 * 65535.0)
    if 0.0 < total then some ⟨picture.pts, sumX / total, sumY / total, intensity⟩
    else some ⟨picture.pts, width / 2.0, height / 2.0, intensity⟩

end Pose

namespace PoseFile

def push? (file : PoseFile) (picture : Picture) : Option PoseFile :=
  (Pose.ofPicture? picture).map fun pose => { file with poses := file.poses.push pose }

end PoseFile

end FrameRelay.Kernel
