import FrameRelay.Proofs.Workers

/-! Sizes through the kernels. Pictures go in with exactly the samples of their size, and a kernel
that was built for them makes outputs of one size, with exactly the samples of it. -/

namespace FrameRelay

/-- The picture has this size and exactly its samples. -/
structure Picture.Packed (width height : Nat) (picture : Picture) : Prop where
  width_eq : picture.width = width
  height_eq : picture.height = height
  size_eq : picture.samples.size = 3 * width * height

/-- The output has this size and exactly its samples. -/
structure Output.Packed (width height : Nat) (output : Output) : Prop where
  width_eq : output.width = width
  height_eq : output.height = height
  samples : ∃ samples, output.samples = some samples ∧ samples.size = 3 * width * height

namespace Picture
variable {width height : Nat} {picture : Picture}

theorem Packed.fills (packed : picture.Packed width height) : picture.Fills width height := by
  have filled : picture.rowSize * picture.height = picture.samples.size := by
    rw [rowSize, packed.width_eq, packed.height_eq, packed.size_eq]
  exact ⟨packed.width_eq, packed.height_eq, decide_eq_true (Nat.le_of_eq filled)⟩

theorem Packed.output (packed : picture.Packed width height) :
    picture.output.Packed width height :=
  ⟨packed.width_eq, packed.height_eq, _, rfl, packed.size_eq⟩

end Picture

theorem Simulated.packed_pictureOf {frame : Frame} {picture : Picture}
    (made : pictureOf frame = .ok picture) : picture.Packed frame.width frame.height := by
  simp only [pictureOf] at made
  split at made
  · cases made
    exact ⟨rfl, rfl, by simp [packRows, Frame.rowSize]⟩
  · cases made

theorem size_slice? {samples part : Array UInt16} {start count : Nat}
    (taken : slice? samples start count = some part) : part.size = count := by
  unfold slice? at taken
  split at taken
  · cases taken
    rw [Array.size_extract, Nat.min_eq_left (by assumption), Nat.add_sub_cancel_left]
  · cases taken

theorem size_foldlM_rows {row : Nat → Option (Array UInt16)} {length : Nat}
    (each : ∀ y part, row y = some part → part.size = length) {places : List Nat}
    {start samples : Array UInt16}
    (joined : places.foldlM (fun rows y => (row y).map (rows ++ ·)) start = some samples) :
    samples.size = start.size + length * places.length := by
  induction places generalizing start with
  | nil =>
    obtain rfl : start = samples := by simpa using joined
    rfl
  | cons y later ih =>
    rw [List.foldlM_cons] at joined
    cases taken : row y with
    | none => simp [taken] at joined
    | some part =>
      rw [taken] at joined
      have total := ih joined
      rw [Array.size_append, each y part taken] at total
      rw [total, List.length_cons, Nat.mul_succ]
      omega

namespace Kernel
variable {width height outWidth outHeight : Nat} {picture : Picture}

namespace Upscale

theorem packed_output? {scale : Nat} (fits : Fits width height scale)
    (packed : picture.Packed width height) :
    ∃ output, output? scale picture = some output ∧
      output.Packed (width * scale) (height * scale) ∧ output.pts = picture.pts := by
  by_cases same : scale = 1
  · rw [same, Nat.mul_one, Nat.mul_one]
    exact ⟨_, rfl, packed.output, rfl⟩
  · refine ⟨_, fits.output? same packed.fills, ⟨rfl, rfl, _, rfl, ?_⟩, rfl⟩
    rw [enlarge, Array.size_ofFn, packed.width_eq, packed.height_eq]

end Upscale

namespace Interpolation

variable {α : Type}

/-- The last distinct picture is one of this size. -/
def Fits (width height : Nat) (state : Interpolation α) : Prop :=
  ∀ place anchor, state.anchor = some (place, anchor) → anchor.Packed width height

variable [Sub α] [Mul α] [Timeline α] {state : Interpolation α} {anchor : Picture}

theorem packed_trailing (packed : anchor.Packed width height) (place : α) (k : Nat) :
    (state.trailing place anchor k).Packed width height :=
  ⟨packed.width_eq, packed.height_eq, _, rfl, packed.size_eq⟩

variable [Div α] [LE α] [DecidableLE α]

theorem packed_between (first : anchor.Packed width height) (second : picture.Packed width height)
    (place here : α) (k : Nat) :
    (state.between place anchor here picture k).Packed width height := by
  refine ⟨second.width_eq, second.height_eq, _, rfl, ?_⟩
  split
  · exact first.size_eq
  split
  · exact second.size_eq
  · rw [blend, Array.size_map, Array.size_zip, first.size_eq, second.size_eq, Nat.min_self]

variable [LT α] [DecidableLT α]

theorem Fits.push (fits : state.Fits width height) (packed : picture.Packed width height) :
    (state.push picture).1.Fits width height ∧
      ∀ output ∈ (state.push picture).2, output.Packed width height := by
  have fresh {state' : Interpolation α} {here : α}
      (renewed : state'.anchor = some (here, picture)) : state'.Fits width height := by
    intro place other held
    obtain ⟨-, rfl⟩ := Prod.mk.inj (Option.some.inj (renewed.symm.trans held))
    exact packed
  unfold Interpolation.push
  cases held : state.anchor with
  | none => exact ⟨fresh rfl, by simp⟩
  | some entry =>
    have former := fits entry.1 entry.2 held
    dsimp only
    split
    · exact ⟨fun place other same => fits place other (held.trans same), by simp⟩
    · refine ⟨fresh rfl, ?_⟩
      simp only [List.forall_mem_map]
      exact fun k _ => packed_between former packed _ _ k

theorem Fits.finish [Add α] (fits : state.Fits width height) :
    (state.finish).1.Fits width height ∧
      ∀ output ∈ (state.finish).2, output.Packed width height := by
  unfold Interpolation.finish
  cases held : state.anchor with
  | none => exact ⟨fits, by simp⟩
  | some entry =>
    refine ⟨fun place other same => (nomatch same), ?_⟩
    simp only [List.forall_mem_map]
    exact fun k _ => packed_trailing (fits entry.1 entry.2 held) _ k

end Interpolation

namespace Stabilization

theorem size_cut? {cutWidth cutHeight : Nat} {samples : Array UInt16}
    (cut : cut? cutWidth cutHeight picture = some samples) :
    samples.size = 3 * cutWidth * cutHeight := by
  unfold cut? at cut
  split at cut
  · cases cut
  · have total := size_foldlM_rows (fun y part taken => size_slice? taken) cut
    simpa using total

theorem cropOf?_le (spec : ProcessorSpec) :
    ((cropOf? spec).getD (spec.width, spec.height)).1 ≤ spec.width ∧
      ((cropOf? spec).getD (spec.width, spec.height)).2 ≤ spec.height := by
  unfold cropOf?
  split
  · exact ⟨Nat.le_refl _, Nat.le_refl _⟩
  · exact ⟨cropLength_le _ _, cropLength_le _ _⟩

/-- The window holds pictures of the size it is built for, and the cut is no larger. -/
structure Holds (width height outWidth outHeight : Nat) (state : Stabilization) : Prop where
  crop : state.crop.getD (width, height) = (outWidth, outHeight)
  narrow : outWidth ≤ width
  low : outHeight ≤ height
  held : ∀ picture ∈ state.held, picture.Packed width height

variable {state : Stabilization}

theorem Holds.emit? (holds : state.Holds width height outWidth outHeight)
    (packed : picture.Packed width height) :
    ∃ output, emit? state.crop picture = some output ∧
      output.Packed outWidth outHeight ∧ output.pts = picture.pts := by
  have same := holds.crop
  unfold Stabilization.emit?
  cases cropped : state.crop with
  | none =>
    rw [cropped] at same
    obtain ⟨rfl, rfl⟩ : width = outWidth ∧ height = outHeight := Prod.mk.inj same
    exact ⟨_, rfl, packed.output, rfl⟩
  | some size =>
    rw [cropped] at same
    obtain rfl : size = (outWidth, outHeight) := same
    obtain ⟨samples, cut⟩ := Option.isSome_iff_exists.mp
      (isSome_cut? packed.fills holds.narrow holds.low)
    simp only [cut, Option.map_some]
    exact ⟨_, rfl, ⟨rfl, rfl, samples, rfl, size_cut? cut⟩, rfl⟩

theorem Holds.emits (holds : state.Holds width height outWidth outHeight) {pictures : List Picture}
    (packed : ∀ picture ∈ pictures, picture.Packed width height) :
    ∃ outputs, pictures.mapM (Stabilization.emit? state.crop) = some outputs ∧
      (∀ output ∈ outputs, output.Packed outWidth outHeight) ∧
      outputs.map Output.pts = pictures.map Picture.pts := by
  induction pictures with
  | nil => exact ⟨[], rfl, by simp, rfl⟩
  | cons picture rest ih =>
    rw [List.forall_mem_cons] at packed
    obtain ⟨first, emitted, here, pts⟩ := holds.emit? packed.1
    obtain ⟨later, mapped, there, rest_pts⟩ := ih packed.2
    refine ⟨first :: later, ?_, List.forall_mem_cons.mpr ⟨here, there⟩, ?_⟩
    · simp [List.mapM_cons, emitted, mapped]
    · rw [List.map_cons, List.map_cons, pts, rest_pts]

theorem Holds.push? (holds : state.Holds width height outWidth outHeight)
    (packed : picture.Packed width height) :
    let queue := state.held ++ [picture]
    let surplus := queue.length - state.window
    ∃ outputs, state.push? picture = some ({ state with held := queue.drop surplus }, outputs) ∧
      Holds width height outWidth outHeight { state with held := queue.drop surplus } ∧
      (∀ output ∈ outputs, output.Packed outWidth outHeight) ∧
      outputs.map Output.pts = (queue.take surplus).map Picture.pts := by
  intro queue surplus
  have all : ∀ held ∈ queue, held.Packed width height := by
    intro held inside
    rcases List.mem_append.mp inside with earlier | last
    · exact holds.held held earlier
    · rw [List.mem_singleton.mp last]
      exact packed
  obtain ⟨outputs, emitted, fit, pts⟩ :=
    holds.emits (fun held inside => all held (List.mem_of_mem_take (i := surplus) inside))
  refine ⟨outputs, ?_, ⟨holds.crop, holds.narrow, holds.low, fun held inside => ?_⟩, fit, pts⟩
  · simp only [Stabilization.push?]
    rw [emitted]
    rfl
  · exact all held (List.mem_of_mem_drop inside)

theorem Holds.finish? (holds : state.Holds width height outWidth outHeight) :
    ∃ outputs, state.finish? = some ({ state with held := [] }, outputs) ∧
      (∀ output ∈ outputs, output.Packed outWidth outHeight) ∧
      outputs.map Output.pts = state.held.map Picture.pts := by
  obtain ⟨outputs, emitted, fit, pts⟩ := holds.emits holds.held
  refine ⟨outputs, ?_, fit, pts⟩
  simp only [Stabilization.finish?, emitted]
  rfl

end Stabilization

/-- The kernel takes pictures of one size and makes outputs of another. Estimations make none. -/
def Makes (width height outWidth outHeight : Nat) : Kernel → Prop
  | .upscale scale =>
    outWidth = width * scale ∧ outHeight = height * scale ∧ Upscale.Fits width height scale
  | .interpolation state => outWidth = width ∧ outHeight = height ∧ state.Fits width height
  | .stabilization state => state.Holds width height outWidth outHeight
  | .estimation _ | .pose _ => False

theorem Makes.push? {kernel : Kernel} (makes : kernel.Makes width height outWidth outHeight)
    (packed : picture.Packed width height) :
    ∃ kernel' outputs, kernel.push? picture = some (kernel', outputs) ∧
      kernel'.Makes width height outWidth outHeight ∧
      ∀ output ∈ outputs, output.Packed outWidth outHeight := by
  cases kernel with
  | estimation state => exact makes.elim
  | pose file => exact makes.elim
  | upscale scale =>
    obtain ⟨rfl, rfl, words⟩ := makes
    obtain ⟨output, made, fits, -⟩ := Upscale.packed_output? words packed
    simp only [Kernel.push?, made, Option.map_some]
    exact ⟨_, _, rfl, ⟨rfl, rfl, words⟩, by simpa using fits⟩
  | interpolation state =>
    obtain ⟨rfl, rfl, fits⟩ := makes
    obtain ⟨fits', each⟩ := fits.push packed
    exact ⟨_, _, rfl, ⟨rfl, rfl, fits'⟩, each⟩
  | stabilization state =>
    obtain ⟨outputs, pushed, holds, each, -⟩ := Stabilization.Holds.push? makes packed
    simp only [Kernel.push?, pushed, Option.map_some]
    exact ⟨_, outputs, rfl, holds, each⟩

theorem Makes.finish? {kernel : Kernel} (makes : kernel.Makes width height outWidth outHeight) :
    ∃ kernel' outputs, kernel.finish? = some (kernel', outputs, []) ∧
      ∀ output ∈ outputs, output.Packed outWidth outHeight := by
  cases kernel with
  | estimation state => exact makes.elim
  | pose file => exact makes.elim
  | upscale scale => exact ⟨_, [], rfl, by simp⟩
  | interpolation state =>
    obtain ⟨rfl, rfl, fits⟩ := makes
    exact ⟨_, _, rfl, fits.finish.2⟩
  | stabilization state =>
    obtain ⟨outputs, finished, each, -⟩ := Stabilization.Holds.finish? makes
    simp only [Kernel.finish?, finished, Option.map_some]
    exact ⟨_, outputs, rfl, each⟩

/-- Finishing brings out nothing. -/
def Still (kernel : Kernel) : Prop :=
  ∃ kernel' artifacts, kernel.finish? = some (kernel', [], artifacts)

theorem still_estimation (state : Estimation) : Still (.estimation state) := ⟨_, _, rfl⟩

theorem still_pose (file : PoseFile) : Still (.pose file) := ⟨_, _, rfl⟩

theorem still_build {spec : ProcessorSpec} {kernel : Kernel} (built : build spec = .ok kernel) :
    kernel.Still := by
  unfold build at built
  split at built
  · cases built
    exact still_estimation _
  · split at built
    · cases built
    · cases built
      exact still_pose _
  · cases built
    exact ⟨_, _, rfl⟩
  · unfold buildInterpolation at built
    split at built
    · split at built
      · cases built
        exact ⟨_, _, rfl⟩
      · cases built
    · cases built
  · unfold buildStabilization at built
    split at built
    · cases built
      exact ⟨_, _, rfl⟩
    · cases built

/-- The size of the outputs that a request asks for. -/
def sizeFor (spec : ProcessorSpec) : Nat × Nat :=
  (Stabilization.cropOf? spec).getD (spec.width * spec.scale, spec.height * spec.scale)

theorem Stabilization.cropLength_pos {part : Float} {length : Nat} (some : 0 < length) :
    0 < cropLength part length := by
  simp only [cropLength]
  omega

theorem sizeFor_pos {spec : ProcessorSpec} (rows : 0 < spec.height) (scaled : 0 < spec.scale) :
    0 < (sizeFor spec).2 := by
  unfold sizeFor Stabilization.cropOf?
  split
  · exact Nat.mul_pos rows scaled
  · exact Stabilization.cropLength_pos rows

/-- A kernel that is built for a request makes outputs of the size that the request asks for. Only
an upscaler may be asked for another scale than one. -/
theorem makes_build {spec : ProcessorSpec} {kernel : Kernel} (built : build spec = .ok kernel)
    (kind : spec.kind = .upscaling ∨ spec.kind = .frameInterpolation ∨ spec.kind = .stabilization)
    (scaled : 0 < spec.scale) (unscaled : spec.kind ≠ .upscaling → spec.scale = 1)
    (words : spec.InWords) :
    kernel.Makes spec.width spec.height (sizeFor spec).1 (sizeFor spec).2 := by
  unfold build at built
  rcases kind with upscales | interpolates | stabilizes
  · simp only [upscales] at built
    cases built
    have size : sizeFor spec = (spec.width * spec.scale, spec.height * spec.scale) := by
      simp [sizeFor, Stabilization.cropOf?, upscales]
    rw [size, Nat.max_eq_left scaled]
    exact ⟨rfl, rfl, fun _ => words⟩
  · have one : spec.scale = 1 := unscaled (by simp [interpolates])
    have size : sizeFor spec = (spec.width, spec.height) := by
      simp [sizeFor, Stabilization.cropOf?, interpolates, one]
    simp only [interpolates, buildInterpolation] at built
    split at built
    · split at built
      · cases built
        rw [size]
        exact ⟨rfl, rfl, fun place anchor held => by cases held⟩
      · cases built
    · cases built
  · have one : spec.scale = 1 := unscaled (by simp [stabilizes])
    have size : sizeFor spec =
        (Stabilization.cropOf? spec).getD (spec.width, spec.height) := by
      simp [sizeFor, one]
    simp only [stabilizes, buildStabilization] at built
    split at built
    · cases built
      rw [size]
      have within := Stabilization.cropOf?_le spec
      exact ⟨rfl, within.1, within.2, by simp⟩
    · cases built

end Kernel

end FrameRelay
