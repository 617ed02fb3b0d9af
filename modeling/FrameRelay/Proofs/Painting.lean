import FrameRelay.Proofs.Packing

/-! Samples through the three copies on the way of a frame: its rows are packed, the picture is
enlarged, and the pixels are painted into a buffer. Each has rows of its own length; sample `j` of
row `y` is found behind `y` of them. -/

namespace FrameRelay
open Simulated

section rows
variable {row rows y j : Nat}

theorem row_div (inside : j < row) (y : Nat) : (y * row + j) / row = y := by
  have positive : 0 < row := Nat.zero_lt_of_lt inside
  rw [Nat.mul_comm, Nat.mul_add_div positive, Nat.div_eq_of_lt inside, Nat.add_zero]

theorem row_mod (inside : j < row) (y : Nat) : (y * row + j) % row = j := by
  exact Nat.mul_add_mod_of_lt inside

theorem row_lt (line : y < rows) (inside : j < row) : y * row + j < row * rows := by
  calc
    y * row + j < y * row + row := Nat.add_lt_add_left inside _
    _ = (y + 1) * row := (Nat.succ_mul y row).symm
    _ ≤ rows * row := Nat.mul_le_mul_right row line
    _ = row * rows := Nat.mul_comm rows row

theorem row_within {lineSize size : Nat} (fits : neededSamples lineSize rows row ≤ size)
    (line : y < rows) (inside : j < row) : y * lineSize + j < size := by
  have within := row_sample_lt fits (row_lt line inside)
  rwa [row_div inside, row_mod inside] at within

theorem ext_rows {first second : Array UInt16} (first_size : first.size = row * rows)
    (second_size : second.size = row * rows)
    (agree : ∀ y j, y < rows → j < row → first[y * row + j]? = second[y * row + j]?) :
    first = second := by
  apply Array.ext_getElem?
  intro i
  by_cases inside : i < row * rows
  · have positive : 0 < row := Nat.pos_of_mul_pos_right (Nat.zero_lt_of_lt inside)
    have here := agree (i / row) (i % row) (Nat.div_lt_of_lt_mul inside) (Nat.mod_lt _ positive)
    have place : i / row * row + i % row = i := by
      rw [Nat.mul_comm]
      exact Nat.div_add_mod i row
    rwa [place] at here
  · have past : ¬ i < first.size := by rwa [first_size]
    have past' : ¬ i < second.size := by rwa [second_size]
    simp [past, past']

end rows

namespace Simulated

theorem sample_pictureOf {frame : Frame} {picture : Picture}
    (made : pictureOf frame = .ok picture) {y j : Nat} (line : y < frame.height)
    (inside : j < frame.rowSize) :
    picture.samples[y * frame.rowSize + j]? = frame.samples[y * frame.lineSize + j]? := by
  simp only [pictureOf] at made
  split at made
  case isTrue fits =>
    cases made
    have within := row_within fits.2 line inside
    rw [Array.getElem?_eq_getElem within]
    simp [packRows, row_div inside, row_mod inside, row_lt line inside]
  case isFalse => cases made

/-- What became of a buffer that rows of pixels were copied into. -/
structure Painted (pixels : Array UInt16) (row rows : Nat) (buffer : Buffer)
    (samples : Array UInt16) : Prop where
  size_eq : samples.size = buffer.samples.size
  pixel {y j : Nat} (line : y < rows) (inside : j < row) :
    samples[y * buffer.lineSize + j]? = pixels[y * row + j]?
  padding {i : Nat} (outside : ∀ y j, y < rows → j < row → i ≠ y * buffer.lineSize + j) :
    samples[i]? = buffer.samples[i]?

theorem paint?_of_fits {pixels : Array UInt16} {row rows : Nat} {buffer : Buffer}
    (filled : pixels.size = row * rows) (wide : row ≤ buffer.lineSize)
    (fits : neededSamples buffer.lineSize rows row ≤ buffer.samples.size) :
    ∃ samples, paint? pixels row buffer = some samples ∧
      Painted pixels row rows buffer samples := by
  by_cases empty : row = 0 ∨ rows = 0
  · have none_there : pixels.size = 0 := by
      rcases empty with rfl | rfl <;> simp [filled]
    refine ⟨buffer.samples, by simp [paint?, none_there], rfl, ?_, fun _ => rfl⟩
    intro y j line inside
    omega
  · have positive : 0 < row := by omega
    have count : pixels.size / max row 1 = rows := by
      rw [filled, Nat.max_eq_left positive, Nat.mul_div_cancel_left _ positive]
    have some_rows : ¬ rows = 0 := by omega
    have enough : ¬ (row = 0 ∨ buffer.samples.size < neededSamples buffer.lineSize rows row) := by
      omega
    simp only [paint?, count, if_neg enough, if_neg some_rows]
    refine ⟨_, rfl, by simp, ?_, ?_⟩
    · intro y j line inside
      have place : y * buffer.lineSize + j < buffer.samples.size := row_within fits line inside
      have source : y * row + j < pixels.size := filled ▸ row_lt line inside
      have within : j < buffer.lineSize := by omega
      simp [paintedSample, row_div within, row_mod within, line, inside, place, source, Array.getD]
    · intro i outside
      by_cases inside : i < buffer.samples.size
      · have skipped : ¬ (i % buffer.lineSize < row ∧ i / buffer.lineSize < rows) := by
          rintro ⟨column, line⟩
          apply outside _ _ line column
          rw [Nat.mul_comm]
          exact (Nat.div_add_mod i buffer.lineSize).symm
        simp [paintedSample, skipped, inside]
      · simp [inside]

theorem deliver_of_fits {output : Output} {width height : Nat} {pixels : Array UInt16}
    {buffer : Buffer} (size : output.width = width ∧ output.height = height)
    (there : output.samples = some pixels) (filled : pixels.size = 3 * width * height)
    (wide : 3 * width ≤ buffer.lineSize)
    (fits : neededSamples buffer.lineSize height (3 * width) ≤ buffer.samples.size) :
    ∃ samples, deliver output buffer = .ok (output.pts, samples) ∧
      Painted pixels (3 * width) height buffer samples := by
  obtain ⟨samples, painting, painted⟩ := paint?_of_fits filled wide fits
  have enough : ¬ (buffer.lineSize < 3 * width ∨
      buffer.samples.size < neededSamples buffer.lineSize height (3 * width)) := by
    omega
  refine ⟨samples, ?_, painted⟩
  simp only [deliver, there, size, if_neg enough, painting]

end Simulated

namespace Kernel.Upscale
variable {width height : Nat} {picture : Picture}

theorem sample_enlarge (scale : Nat) (packed : picture.Packed width height)
    {x y c : Nat} (column : x < width * scale) (line : y < height * scale) (channel : c < 3) :
    (enlarge scale picture)[y * (3 * (width * scale)) + (3 * x + c)]? =
      picture.samples[y / scale * (3 * width) + (3 * (x / scale) + c)]? := by
  have inside : 3 * x + c < 3 * (width * scale) := by omega
  have place := row_lt line inside
  have line' : y / scale < height := Nat.div_lt_of_lt_mul (Nat.mul_comm height scale ▸ line)
  have column' : x / scale < width := Nat.div_lt_of_lt_mul (Nat.mul_comm width scale ▸ column)
  have source : y / scale * (3 * width) + (3 * (x / scale) + c) < picture.samples.size := by
    rw [packed.size_eq]
    exact row_lt line' (by omega)
  have pixel : (3 * x + c) / 3 = x ∧ (3 * x + c) % 3 = c := by omega
  have value : sampleAt scale picture (y * (3 * (width * scale)) + (3 * x + c)) =
      picture.samples[y / scale * (3 * width) + (3 * (x / scale) + c)] := by
    simp only [sampleAt, Picture.rowSize, packed.width_eq, row_div inside, row_mod inside, pixel,
      Nat.add_assoc]
    exact dif_pos source
  rw [Array.getElem?_eq_getElem source, ← value]
  simp [enlarge, packed.width_eq, packed.height_eq, place]

theorem enlarge_one (packed : picture.Packed width height) :
    enlarge 1 picture = picture.samples := by
  have size : (enlarge 1 picture).size = 3 * width * height := by
    simp [enlarge, packed.width_eq, packed.height_eq]
  apply ext_rows size packed.size_eq
  intro y j line inside
  have pixel : 3 * (j / 3) + j % 3 = j := Nat.div_add_mod j 3
  have same := sample_enlarge 1 packed (x := j / 3) (y := y) (by omega) (by omega)
    (Nat.mod_lt j (by decide))
  simpa only [Nat.mul_one, Nat.div_one, pixel] using same

theorem output?_eq {scale : Nat} (fits : Fits width height scale)
    (packed : picture.Packed width height) :
    output? scale picture =
      some ⟨width * scale, height * scale, picture.pts, some (enlarge scale picture)⟩ := by
  by_cases same : scale = 1
  · rw [same, enlarge_one packed, Nat.mul_one, Nat.mul_one, ← packed.width_eq, ← packed.height_eq]
    rfl
  · exact fits.output? same packed.fills

end Kernel.Upscale

end FrameRelay
