import FrameRelay.Proofs.Interleaving
import FrameRelay.Proofs.Painting
import FrameRelay.Proofs.Windows

/-! Pictures through a stabilizer. Each comes out once, in its place, when the window is full behind
it or the stream ends, whole or cut to its centre. The rows of a cut are slices of the rows of the
picture, and none reaches beyond its samples. -/

namespace FrameRelay
open Number

/-! Rows put one after the other. -/

theorem getElem?_slice? {samples part : Array UInt16} {start count j : Nat}
    (taken : slice? samples start count = some part) (inside : j < count) :
    part[j]? = samples[start + j]? := by
  unfold slice? at taken
  split at taken
  case isTrue fits =>
    obtain rfl := Option.some.inj taken
    rw [Array.getElem?_extract, if_pos (by omega)]
  case isFalse => cases taken

section rows
variable {row : Nat → Option (Array UInt16)} {length : Nat} {places : List Nat}
  {start samples : Array UInt16}

theorem getElem?_foldlM_start
    (joined : places.foldlM (fun rows y => (row y).map (rows ++ ·)) start = some samples)
    {k : Nat} (early : k < start.size) : samples[k]? = start[k]? := by
  induction places generalizing start with
  | nil =>
    obtain rfl : start = samples := by simpa using joined
    rfl
  | cons y later ih =>
    rw [List.foldlM_cons] at joined
    cases taken : row y with
    | none => simp [taken] at joined
    | some part =>
      rw [taken] at joined
      rw [ih joined (by rw [Array.size_append]; omega), Array.getElem?_append_left early]

theorem getElem?_foldlM_rows (each : ∀ y part, row y = some part → part.size = length)
    (joined : places.foldlM (fun rows y => (row y).map (rows ++ ·)) start = some samples)
    {i j y : Nat} (place : places[i]? = some y) (inside : j < length) :
    ∃ part, row y = some part ∧ samples[start.size + (i * length + j)]? = part[j]? := by
  induction places generalizing start i with
  | nil => cases place
  | cons first later ih =>
    rw [List.foldlM_cons] at joined
    cases taken : row first with
    | none => simp [taken] at joined
    | some part =>
      rw [taken] at joined
      have size : (start ++ part).size = start.size + length := by
        rw [Array.size_append, each first part taken]
      cases i with
      | zero =>
        obtain rfl : first = y := Option.some.inj place
        refine ⟨part, taken, ?_⟩
        have early : start.size + j < (start ++ part).size := by omega
        rw [Nat.zero_mul, Nat.zero_add, getElem?_foldlM_start joined early,
          Array.getElem?_append_right (Nat.le_add_right ..), Nat.add_sub_cancel_left]
      | succ i =>
        obtain ⟨part, there, sample⟩ := ih joined place
        refine ⟨part, there, ?_⟩
        rw [← sample, size, Nat.succ_mul]
        congr 1
        omega

end rows

namespace Kernel.Stabilization
variable {width height : Nat} {picture : Picture}

theorem sample_cut? {cutWidth cutHeight : Nat} {samples : Array UInt16}
    (packed : picture.Packed width height)
    (cut : cut? cutWidth cutHeight picture = some samples) {x y c : Nat} (column : x < cutWidth)
    (line : y < cutHeight) (channel : c < 3) :
    samples[y * (3 * cutWidth) + (3 * x + c)]? =
      picture.samples[(y + (height - cutHeight) / 2) * (3 * width) +
        (3 * (x + (width - cutWidth) / 2) + c)]? := by
  unfold cut? at cut
  split at cut
  · cases cut
  · have place : (List.range cutHeight)[y]? = some y := List.getElem?_range line
    obtain ⟨part, taken, sample⟩ := getElem?_foldlM_rows (fun y part taken => size_slice? taken) cut
      place (show 3 * x + c < 3 * cutWidth by omega)
    rw [Array.size_empty, Nat.zero_add] at sample
    rw [sample, getElem?_slice? taken (by omega), Picture.rowSize, packed.width_eq,
      packed.height_eq, Nat.add_comm y]
    congr 1
    omega

/-- The picture itself without a crop, else its centre: pixel `(x, y)` of the output is the one
behind half of what is cut off. -/
def Centred (crop : Option (Nat × Nat)) (picture : Picture) (output : Output) : Prop :=
  match crop with
  | none => output = picture.output
  | some (cutWidth, cutHeight) =>
    output.width = cutWidth ∧ output.height = cutHeight ∧ output.pts = picture.pts ∧
      ∃ samples, output.samples = some samples ∧ samples.size = cutWidth * cutHeight * 3 ∧
        ∀ x < cutWidth, ∀ y < cutHeight, ∀ c < 3, ∃ sample,
          samples[y * (3 * cutWidth) + (3 * x + c)]? = some sample ∧
            picture.samples[(y + (picture.height - cutHeight) / 2) * (3 * picture.width) +
              (3 * (x + (picture.width - cutWidth) / 2) + c)]? = some sample

variable {outWidth outHeight : Nat} {state : Stabilization}

theorem Holds.centred (holds : state.Holds width height outWidth outHeight)
    (packed : picture.Packed width height) :
    ∃ output, Stabilization.emit? state.crop picture = some output ∧
      Centred state.crop picture output := by
  obtain ⟨output, emitted, fits, pts⟩ := holds.emit? packed
  refine ⟨output, emitted, ?_⟩
  have same := holds.crop
  unfold Stabilization.emit? at emitted
  unfold Centred
  cases cropped : state.crop with
  | none =>
    rw [cropped] at emitted
    exact (Option.some.inj emitted).symm
  | some size =>
    rw [cropped] at same emitted
    obtain rfl : size = (outWidth, outHeight) := same
    obtain ⟨samples, cut, rfl⟩ := Option.map_eq_some_iff.mp emitted
    have size : samples.size = 3 * outWidth * outHeight := size_cut? cut
    refine ⟨rfl, rfl, rfl, samples, rfl, by rw [size]; ring, fun x column y line c channel => ?_⟩
    have there : y * (3 * outWidth) + (3 * x + c) < samples.size := by
      rw [size]
      exact row_lt line (by omega)
    have found := Array.getElem?_eq_getElem there
    refine ⟨_, found, ?_⟩
    rw [← found, sample_cut? packed cut column line channel, packed.width_eq, packed.height_eq]

theorem Holds.centres (holds : state.Holds width height outWidth outHeight)
    {pictures : List Picture} (packed : ∀ picture ∈ pictures, picture.Packed width height) :
    ∃ outputs, pictures.mapM (Stabilization.emit? state.crop) = some outputs ∧
      List.Forall₂ (Centred state.crop) pictures outputs := by
  induction pictures with
  | nil => exact ⟨[], rfl, .nil⟩
  | cons picture rest ih =>
    rw [List.forall_mem_cons] at packed
    obtain ⟨first, emitted, here⟩ := holds.centred packed.1
    obtain ⟨later, mapped, there⟩ := ih packed.2
    exact ⟨first :: later, by simp [List.mapM_cons, emitted, mapped], .cons here there⟩

/-- After any number of pictures: those given out and those held are the ones taken, and as many are
held as the window allows. -/
theorem Holds.runs (empty : state.held = []) (holds : state.Holds width height outWidth outHeight)
    {taken : List Picture} (packed : ∀ picture ∈ taken, picture.Packed width height) :
    ∃ given held outputs, given ++ held = taken ∧ held.length = min state.window taken.length ∧
      Holds width height outWidth outHeight { state with held } ∧
      Lane.runAll? (.stabilization state) (taken.map .picture) =
        some (.stabilization { state with held }, outputs) ∧
      List.Forall₂ (Centred state.crop) given outputs := by
  induction taken using List.reverseRecOn with
  | nil =>
    have same : { state with held := [] } = state := by rw [← empty]
    exact ⟨[], [], [], rfl, by simp, same ▸ holds, by rw [same]; rfl, .nil⟩
  | append_singleton taken picture ih =>
    rw [List.forall_mem_append, List.forall_mem_singleton] at packed
    obtain ⟨given, held, outputs, order, full, holds', ran, centred⟩ := ih packed.1
    obtain ⟨order', full'⟩ := queue_split order full picture
    obtain ⟨-, -, holds'', -⟩ := holds'.push? packed.2
    let queue := held ++ [picture]
    let surplus := queue.length - state.window
    have queued : ∀ other ∈ queue, other.Packed width height :=
      List.forall_mem_append.mpr ⟨holds'.held, List.forall_mem_singleton.mpr packed.2⟩
    obtain ⟨made, emitted, centred'⟩ :=
      holds'.centres fun other inside => queued other (List.mem_of_mem_take (i := surplus) inside)
    have pushed : Stabilization.push? { state with held } picture =
        some ({ state with held := queue.drop surplus }, made) := by
      rw [Stabilization.push?, emitted]
      rfl
    have queue_run : Lane.run? (.stabilization { state with held }) (.picture picture) =
        some (.stabilization { state with held := queue.drop surplus }, made, []) := by
      rw [Lane.run?, Kernel.push?, pushed]
      rfl
    refine ⟨_, _, outputs ++ made, order', full', holds'', ?_, List.rel_append centred centred'⟩
    rw [List.map_append]
    exact Lane.runAll?_concat ran queue_run

theorem Holds.ends (empty : state.held = []) (holds : state.Holds width height outWidth outHeight)
    {taken : List Picture} (packed : ∀ picture ∈ taken, picture.Packed width height) :
    ∃ outputs, Lane.runAll? (.stabilization state) (taken.map .picture ++ [.finish]) =
        some (.stabilization state, outputs) ∧
      List.Forall₂ (Centred state.crop) taken outputs := by
  obtain ⟨given, held, outputs, rfl, -, holds', ran, centred⟩ := holds.runs empty packed
  obtain ⟨rest, emitted, centred'⟩ := holds'.centres holds'.held
  have ended : Lane.run? (.stabilization { state with held }) .finish =
      some (.stabilization state, rest, []) := by
    simp only [Lane.run?, Kernel.finish?, Stabilization.finish?, emitted]
    rw [← empty]
    rfl
  exact ⟨outputs ++ rest, Lane.runAll?_concat ran ended, List.rel_append centred centred'⟩

theorem build_of_eleven {spec : ProcessorSpec} (stabilizes : spec.kind = .stabilization)
    (eleven : spec.parameters.length = 11) :
    build spec = .ok (.stabilization ⟨windowOf spec.parameters, cropOf? spec, []⟩) := by
  have built : build spec = buildStabilization spec := by rw [build, stabilizes]
  rw [built, buildStabilization, windowOf]
  generalize cropOf? spec = crop
  generalize spec.parameters = parameters at eleven
  obtain ⟨parameter, rfl⟩ : ∃ parameter : Fin 11 → Float32, List.ofFn parameter = parameters :=
    ⟨fun place => parameters.get ⟨place, by omega⟩,
      List.ext_getElem (by rw [List.length_ofFn, eleven]) fun place _ _ => List.getElem_ofFn ..⟩
  rfl

theorem cropLength_ge (part : Float) (length : Nat) : min 2 length ≤ cropLength part length := by
  simp only [cropLength]
  omega

theorem holds_empty (spec : ProcessorSpec) (window : Nat) :
    Holds spec.width spec.height ((cropOf? spec).getD (spec.width, spec.height)).1
      ((cropOf? spec).getD (spec.width, spec.height)).2 ⟨window, cropOf? spec, []⟩ where
  crop := rfl
  narrow := (cropOf?_le spec).1
  low := (cropOf?_le spec).2
  held := fun _ inside => nomatch inside

/-- A stabilizer of eleven parameters, from the first picture to the end: how many outputs are out
after each picture, what each of them is, and the size of the cut. -/
theorem window_and_centre {spec : ProcessorSpec} (stabilizes : spec.kind = .stabilization)
    (eleven : spec.parameters.length = 11) {pictures : List Picture}
    (packed : ∀ picture ∈ pictures, picture.Packed spec.width spec.height) :
    ∃ kernel, build spec = .ok kernel ∧
      (∀ k ≤ pictures.length, ∃ kernel' outputs,
        Lane.runAll? kernel ((pictures.take k).map .picture) = some (kernel', outputs) ∧
          outputs.length = k - min k (windowOf spec.parameters) ∧
          List.Forall₂ (Centred (cropOf? spec))
            (pictures.take (k - min k (windowOf spec.parameters))) outputs) ∧
      (∃ kernel' outputs,
        Lane.runAll? kernel (pictures.map .picture ++ [.finish]) = some (kernel', outputs) ∧
          outputs.length = pictures.length ∧
          List.Forall₂ (Centred (cropOf? spec)) pictures outputs) ∧
      (∀ ws cache, spec.parameters.getD 1 0 = narrow (.ofNat ws) → ws < 2 ^ 24 →
        spec.parameters.getD 5 0 = narrow (.ofNat cache) → cache < 2 ^ 24 →
          windowOf spec.parameters = min ws cache) ∧
      ∀ cutWidth cutHeight, cropOf? spec = some (cutWidth, cutHeight) →
        (min 2 spec.width ≤ cutWidth ∧ cutWidth ≤ spec.width) ∧
          min 2 spec.height ≤ cutHeight ∧ cutHeight ≤ spec.height := by
  refine ⟨_, build_of_eleven stabilizes eleven, fun k inside => ?_, ?_,
    fun ws cache => windowOf_of_counts, fun cutWidth cutHeight cropped => ?_⟩
  · have packed' : ∀ picture ∈ pictures.take k, picture.Packed spec.width spec.height :=
      fun picture taken => packed picture (List.mem_of_mem_take taken)
    obtain ⟨given, held, outputs, order, full, -, ran, centred⟩ :=
      (holds_empty spec (windowOf spec.parameters)).runs rfl packed'
    have length : (pictures.take k).length = k := List.length_take_of_le inside
    have count : given.length = k - min k (windowOf spec.parameters) := by
      have lengths := congrArg List.length order
      rw [List.length_append, full, length, Nat.min_comm] at lengths
      exact Nat.eq_sub_of_add_eq lengths
    have first : given <+: pictures :=
      (order ▸ List.prefix_append given held).trans (List.take_prefix k pictures)
    have given_eq := List.prefix_iff_eq_take.mp first
    rw [count] at given_eq
    exact ⟨_, outputs, ran, by rw [← centred.length_eq, count], given_eq ▸ centred⟩
  · obtain ⟨outputs, ran, centred⟩ := (holds_empty spec (windowOf spec.parameters)).ends rfl packed
    exact ⟨_, outputs, ran, centred.length_eq.symm, centred⟩
  · unfold cropOf? at cropped
    split at cropped
    · cases cropped
    · obtain ⟨rfl, rfl⟩ := Prod.mk.inj (Option.some.inj cropped)
      exact ⟨⟨cropLength_ge _ _, cropLength_le _ _⟩, cropLength_ge _ _, cropLength_le _ _⟩

/-- Two pictures of an odd size, cut to two by two, behind a window of one. -/
theorem window_and_centre_odd :
    let count (n : Nat) : Float32 := narrow (.ofNat n)
    let spec : ProcessorSpec := ⟨"stb-0", 0, "stb", .stabilization, 1, -2, 0, 1.0, true, 3, 3,
      .rgb48, 0.04, 25.0, 0, [count 50, count 1, count 0, count 0, count 0, count 2, count 0,
        count 0, count 0, count 0, count 0], []⟩
    let picture (pts : Int) : Picture := ⟨3, 3, pts, Array.replicate 27 7⟩
    windowOf spec.parameters = 1 ∧ cropOf? spec = some (2, 2) ∧
      ∃ kernel, build spec = .ok kernel ∧ ∃ kernel' outputs,
        Lane.runAll? kernel [.picture (picture 1), .picture (picture 2)] = some (kernel', outputs) ∧
          List.Forall₂ (Centred (some (2, 2))) [picture 1] outputs := by
  intro count spec picture
  have crop : cropOf? spec = some (2, 2) := by decide +kernel
  have one (pts : Int) : (picture pts).Packed spec.width spec.height := ⟨rfl, rfl, rfl⟩
  have packed : ∀ other ∈ [picture 1, picture 2], other.Packed spec.width spec.height :=
    List.forall_mem_cons.mpr ⟨one 1, List.forall_mem_singleton.mpr (one 2)⟩
  obtain ⟨kernel, built, each, -, counts, -⟩ := window_and_centre rfl rfl packed
  have window : windowOf spec.parameters = 1 := counts 1 2 rfl (by decide) rfl (by decide)
  obtain ⟨kernel', outputs, ran, -, centred⟩ := each 2 (by decide)
  rw [window, crop] at centred
  exact ⟨window, crop, kernel, built, kernel', outputs, ran, centred⟩

end Kernel.Stabilization

end FrameRelay
