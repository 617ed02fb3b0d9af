import FrameRelay.Proofs.Directories
import FrameRelay.Proofs.Numerals
import FrameRelay.Proofs.PackedRows
import FrameRelay.Store.Tally

/-! Frames that a sink writes as images. Whatever the limit, the frames are counted as their pts
say, and each of the first ones is written as an image under the name of its pts. Frames of one pts
share a name, and of their images the last one stays. -/

namespace FrameRelay.Tally
open Number Text

/-! Names of images. -/

/-- The digits of a number behind zeros that fill them up to a width. -/
def padded (width n : Nat) : List Char :=
  List.replicate (width - (Nat.toDigits 10 n).length) '0' ++ Nat.toDigits 10 n

theorem toList_padZeros (width n : Nat) :
    (padZeros width (toString n)).toList = padded width n := by
  have count : (toString n).length = (Nat.toDigits 10 n).length := by
    rw [← String.length_toList, Nat.toString_eq_repr, Nat.toList_repr]
  rw [padZeros, String.toList_append, Layout.zeros, String.toList_ofList, count,
    Nat.toString_eq_repr, Nat.toList_repr, padded]

theorem ofDigitChars_padded (width n : Nat) : Nat.ofDigitChars 10 (padded width n) 0 = n := by
  rw [padded, Nat.ofDigitChars_append, Nat.ofDigitChars_replicate_zero, Nat.mul_zero,
    Nat.ofDigitChars_ten_toDigits]

theorem isDigit_padded {width n : Nat} : ∀ c ∈ padded width n, c.isDigit := by
  intro c listed
  rcases List.mem_append.mp listed with zero | digit
  · rw [List.eq_of_mem_replicate zero]
    decide
  · exact isDigit_of_mem_toDigits c digit

/-- What stands for a pts in a name. -/
def stamp (pts : Int) : List Char :=
  if pts < 0 then '-' :: padded 7 pts.natAbs else padded 8 pts.natAbs

theorem toList_imageName (pts : Int) :
    (imageName pts).toList = "frame_".toList ++ (stamp pts ++ ".png".toList) := by
  rw [imageName, stamp]
  split
  · rw [String.toList_append, String.toList_append, String.toList_append, toList_padZeros]
    simp
  · rw [String.toList_append, String.toList_append, toList_padZeros]
    simp

theorem stamp_injective : Function.Injective stamp := by
  have sign (width n : Nat) (rest : List Char) : '-' :: rest ≠ padded width n := fun same =>
    ne_of_isDigit (isDigit_padded '-' (same ▸ List.mem_cons_self)) (by decide) rfl
  have number (width : Nat) {n m : Nat} (same : padded width n = padded width m) : n = m := by
    rw [← ofDigitChars_padded width n, same, ofDigitChars_padded]
  intro pts pts' same
  rw [stamp, stamp] at same
  split at same <;> split at same
  · have := number 7 (List.cons.inj same).2
    omega
  · exact absurd same (sign _ _ _)
  · exact absurd same.symm (sign _ _ _)
  · have := number 8 same
    omega

theorem imageName_injective : Function.Injective imageName := by
  intro pts pts' same
  have chars := congrArg String.toList same
  rw [toList_imageName, toList_imageName] at chars
  exact stamp_injective (List.append_cancel_right (List.append_cancel_left chars))

/-- A character of a name, one byte long. -/
def Narrow (c : Char) : Prop := c ≠ '/' ∧ c.toNat ≠ 0 ∧ c.utf8Size = 1

instance (c : Char) : Decidable (Narrow c) := inferInstanceAs (Decidable (_ ∧ _))

theorem narrow_of_isDigit {c : Char} (digit : c.isDigit) : Narrow c := by
  have range := toNat_of_isDigit digit
  refine ⟨ne_of_isDigit digit (by decide), by omega, ?_⟩
  rw [Char.utf8Size_eq_one_iff, UInt32.le_iff_toNat_le]
  exact range.2.trans (by decide)

theorem narrow_stamp {pts : Int} : ∀ c ∈ stamp pts, Narrow c := by
  have digits (width n : Nat) : ∀ c ∈ padded width n, Narrow c := fun c listed =>
    narrow_of_isDigit (isDigit_padded c listed)
  rw [stamp]
  split
  · exact List.forall_mem_cons.mpr ⟨⟨by decide, by decide, by decide⟩, digits _ _⟩
  · exact digits _ _

theorem narrow_imageName (pts : Int) : ∀ c ∈ (imageName pts).toList, Narrow c := by
  have letters : ("frame_".toList ++ ".png".toList).all fun c => decide (Narrow c) := by decide
  intro c listed
  rw [toList_imageName, List.mem_append, List.mem_append] at listed
  rcases listed with front | middle | back
  · exact of_decide_eq_true (List.all_eq_true.mp letters c (List.mem_append_left _ front))
  · exact narrow_stamp c middle
  · exact of_decide_eq_true (List.all_eq_true.mp letters c (List.mem_append_right _ back))

theorem utf8ByteSize_of_narrow {name : String} (narrow : ∀ c ∈ name.toList, Narrow c) :
    name.utf8ByteSize = name.toList.length := by
  have counted : ∀ chars : List Char, (∀ c ∈ chars, Narrow c) →
      String.utf8Len chars = chars.length := by
    intro chars narrow
    induction chars with
    | nil => rfl
    | cons c rest ih =>
      rw [List.forall_mem_cons] at narrow
      rw [String.utf8Len_cons, ih narrow.2, narrow.1.2.2, List.length_cons]
  rw [← counted name.toList narrow, ← String.utf8ByteSize_ofList, String.ofList_toList]

theorem length_padded {n : Nat} (word : n ≤ 2 ^ 63) {width : Nat} (most : width ≤ 19) :
    (padded width n).length ≤ 19 := by
  have digits : (Nat.toDigits 10 n).length ≤ 19 :=
    (Nat.length_toDigits_le_iff (by decide) (by decide)).mpr (lt_of_le_of_lt word (by decide))
  rw [padded, List.length_append, List.length_replicate]
  omega

/-- The most bytes of an image's name. -/
def maxImageName : Nat := 30

theorem size_imageName {pts : Int} (word : InWord pts) :
    (imageName pts).utf8ByteSize ≤ maxImageName := by
  have bound : pts.natAbs ≤ 2 ^ 63 := by
    simp only [InWord, minWord, maxWord] at word
    omega
  have length : (stamp pts).length ≤ 20 := by
    rw [stamp]
    split
    · exact Nat.succ_le_succ (length_padded bound (by decide))
    · exact (length_padded bound (by decide)).trans (by decide)
  have ends : "frame_".toList.length = 6 ∧ ".png".toList.length = 4 := by decide
  rw [utf8ByteSize_of_narrow (narrow_imageName pts), toList_imageName, List.length_append,
    List.length_append, maxImageName]
  omega

theorem proper_imageName {pts : Int} (word : InWord pts) : Folder.Proper (imageName pts) where
  plain slash := (narrow_imageName pts '/' slash).1 rfl
  inked c listed := (narrow_imageName pts c listed).2.1
  step := by
    have first : (imageName pts).toList.head? = some 'f' := by
      rw [toList_imageName]
      rfl
    simp only [isStep, stays, Bool.or_eq_false_iff, beq_eq_false_iff_ne]
    refine ⟨⟨?_, ?_⟩, ?_⟩ <;> intro same <;> rw [same] at first <;> exact absurd first (by decide)
  short := (size_imageName word).trans (by decide)

/-! Images of frames. -/

/-- Where the channels red, green and blue are found in a pixel. -/
def channelOf : PixelFormat → Nat → Nat
  | .rgb48, c => c
  | .bgr48, c => 2 - c

/-- An image of the frame: its size, and the channels of each pixel without the padding. -/
def Depicts (entry : Entry) (frame : Frame) : Prop :=
  ∃ samples, entry = .image frame.width frame.height samples ∧
    samples.size = 3 * frame.width * frame.height ∧
    ∀ x < frame.width, ∀ y < frame.height, ∀ c < 3, ∃ sample,
      samples[y * (3 * frame.width) + (3 * x + c)]? = some sample ∧
        frame.samples[y * frame.lineSize + (3 * x + channelOf frame.format c)]? = some sample

/-- The image that a sink makes of a frame. -/
def imageOf (frame : Frame) : Entry :=
  imageEntry frame.width frame.height (inRgbOrder frame.format (frame.packed?.getD #[]))

theorem size_inRgbOrder (format : PixelFormat) (samples : Array UInt16) :
    (inRgbOrder format samples).size = samples.size := by
  cases format with
  | rgb48 => rfl
  | bgr48 => simp [inRgbOrder, swapChannels]

theorem sample_inRgbOrder (format : PixelFormat) {samples : Array UInt16} {pixel c : Nat}
    (inside : 3 * pixel + 2 < samples.size) (channel : c < 3) :
    (inRgbOrder format samples)[3 * pixel + c]? = samples[3 * pixel + channelOf format c]? := by
  cases format with
  | rgb48 => rfl
  | bgr48 =>
    have here : 3 * pixel + c < samples.size := by omega
    have there : 3 * pixel + (2 - c) < samples.size := by omega
    have place : (3 * pixel + c) / 3 * 3 + (2 - c % 3) = 3 * pixel + (2 - c) := by
      omega
    simp [inRgbOrder, swapChannels, channelOf, here, there, place, Array.getD]

theorem depicts_imageOf {frame : Frame} (complete : frame.Complete) (columns : 0 < frame.width)
    (lines : 0 < frame.height) : Depicts (imageOf frame) frame := by
  obtain ⟨samples, packed, packs⟩ := complete.readable.packed?
  have size : samples.size = 3 * frame.width * frame.height := packs.size_eq
  refine ⟨inRgbOrder frame.format samples, ?_, ?_, fun x column y line c channel => ?_⟩
  · rw [imageOf, packed, imageEntry, if_neg (by omega)]
    rfl
  · rw [size_inRgbOrder, size]
  · have swapped : channelOf frame.format c < 3 := by
      cases frame.format <;> simp only [channelOf] <;> omega
    have pixel : 3 * (y * frame.width + x) + 2 < samples.size := by
      have last := row_lt line (show 3 * x + 2 < 3 * frame.width by omega)
      rw [size]
      linarith
    have moved := sample_inRgbOrder frame.format pixel channel
    have kept := packs.sample line (show 3 * x + channelOf frame.format c < frame.rowSize by
      rw [Frame.rowSize]
      omega)
    have within : y * frame.lineSize + (3 * x + channelOf frame.format c) < frame.samples.size :=
      row_within complete.long line (by omega)
    refine ⟨_, ?_, Array.getElem?_eq_getElem within⟩
    rw [Frame.rowSize, channel_place] at kept
    rw [channel_place, moved, kept, Array.getElem?_eq_getElem within]

/-! What is counted. -/

/-- How often a pts is below the one before it. -/
def turns : List Int → Nat
  | first :: second :: rest => (if second < first then 1 else 0) + turns (second :: rest)
  | _ => 0

theorem turns_concat (pts : List Int) (next : Int) :
    turns (pts ++ [next]) = turns pts + match pts.getLast? with
      | some last => if next < last then 1 else 0
      | none => 0 := by
  induction pts with
  | nil => rfl
  | cons first rest ih =>
    cases rest with
    | nil => simp [turns]
    | cons second rest =>
      rw [List.cons_append, List.cons_append, turns, ← List.cons_append, ih, turns,
        List.getLast?_cons_cons, Nat.add_assoc]

/-- The counts of these frames. -/
structure Counts (pts : List Int) (stats : TallyStats) : Prop where
  frames : stats.frames = pts.length
  firstPts : stats.firstPts = pts.head?
  lastPts : stats.lastPts = pts.getLast?
  outOfOrder : stats.outOfOrder = turns pts

theorem Counts.count {pts : List Int} {stats : TallyStats} (counts : Counts pts stats)
    (frame : Frame) : Counts (pts ++ [frame.pts]) (count frame stats) := by
  refine ⟨?_, ?_, ?_, ?_⟩
  · simp [Tally.count, counts.frames]
  · cases pts <;> simp [Tally.count, counts.firstPts]
  · simp [Tally.count]
  · rw [turns_concat, ← counts.outOfOrder, ← counts.lastPts, Tally.count]
    cases stats.lastPts with
    | none => rfl
    | some last =>
      dsimp only
      split <;> rfl

/-! What is written. -/

/-- The folder after the images of these frames got into a directory. -/
def shelve (place : List String) (frames : List Frame) (folder : Folder) : Folder :=
  frames.foldl (fun folder frame => folder.put (place ++ [imageName frame.pts]) (imageOf frame))
    folder

section shelf
variable {place site : List String} {frames : List Frame} {folder : Folder}

theorem shelve_concat (place : List String) (frames : List Frame) (frame : Frame)
    (folder : Folder) : shelve place (frames ++ [frame]) folder =
      (shelve place frames folder).put (place ++ [imageName frame.pts]) (imageOf frame) :=
  List.foldl_concat ..

/-- Of the images under one name the last one is found. -/
theorem entries_shelve : (shelve place frames folder).entries[site]? =
    ((frames.reverse.find? fun frame => decide (place ++ [imageName frame.pts] = site)).map
      imageOf).or folder.entries[site]? := by
  induction frames using List.reverseRecOn with
  | nil => rfl
  | append_singleton frames frame ih =>
    rw [shelve_concat, Folder.entries_put, List.reverse_append, List.reverse_singleton,
      List.singleton_append, List.find?_cons]
    by_cases named : place ++ [imageName frame.pts] = site
    · simp [named]
    · simp [named, ih]

/-- No name is taken in the directory. -/
def Vacant (place : List String) (folder : Folder) : Prop :=
  ∀ name, folder.entries[place ++ [name]]? = none

theorem vacant_of_children (empty : folder.children place = []) : Vacant place folder := by
  intro name
  cases there : folder.entries[place ++ [name]]? with
  | none => rfl
  | some entry =>
    have listed := Folder.mem_children.mpr there
    rw [empty] at listed
    cases listed

theorem not_isDirectory_shelve (vacant : Vacant place folder) {name : String}
    (proper : Folder.Proper name) :
    ¬ (shelve place frames folder).isDirectory (place ++ [name]) = true := by
  rw [Folder.isDirectory, proper.entryAt?, entries_shelve, vacant name, Option.or_none]
  cases frames.reverse.find? _ with
  | none => decide
  | some frame =>
    rw [Option.map_some, imageOf, imageEntry]
    split <;> simp

theorem leads_shelve {directory : String} (leads : folder.Leads directory place)
    (vacant : Vacant place folder) (words : ∀ frame ∈ frames, InWord frame.pts) :
    (shelve place frames folder).Leads directory place := by
  induction frames using List.reverseRecOn with
  | nil => exact leads
  | append_singleton frames frame ih =>
    have word := words frame (List.mem_append_right _ (List.mem_singleton_self frame))
    rw [shelve_concat]
    exact (ih fun frame listed => words frame (List.mem_append_left _ listed)).put
      (not_isDirectory_shelve vacant (proper_imageName word))

/-- What a directory lists when the images of these frames are all that got into it. -/
structure Shelved (shown : List Frame) (images : List (String × Entry)) : Prop where
  names : (images.map Prod.fst).Nodup
  image {frame : Frame} {before after : List Frame} (split : shown = before ++ frame :: after)
    (last : ∀ later ∈ after, later.pts ≠ frame.pts) :
    ∃ entry, (imageName frame.pts, entry) ∈ images ∧ Depicts entry frame
  only {name : String} {entry : Entry} (listed : (name, entry) ∈ images) :
    ∃ frame ∈ shown, name = imageName frame.pts ∧ Depicts entry frame
  count : images.length = (shown.map Frame.pts).dedup.length

theorem shelved_shelve (vacant : Vacant place folder)
    (depicted : ∀ frame ∈ frames, Depicts (imageOf frame) frame) :
    Shelved frames ((shelve place frames folder).children place) := by
  have found (name : String) (entry : Entry) :
      (name, entry) ∈ (shelve place frames folder).children place ↔
        ∃ frame, (frames.reverse.find? fun frame => decide (imageName frame.pts = name)) =
          some frame ∧ imageOf frame = entry := by
    rw [Folder.mem_children, entries_shelve, vacant name, Option.or_none, Option.map_eq_some_iff]
    simp only [List.append_cancel_left_eq, List.cons.injEq, and_true]
  have only {name : String} {entry : Entry}
      (listed : (name, entry) ∈ (shelve place frames folder).children place) :
      ∃ frame ∈ frames, name = imageName frame.pts ∧ Depicts entry frame := by
    obtain ⟨frame, first, rfl⟩ := (found name entry).mp listed
    have member := List.mem_reverse.mp (List.mem_of_find?_eq_some first)
    have named := List.find?_some first
    exact ⟨frame, member, (of_decide_eq_true named).symm, depicted frame member⟩
  refine ⟨Folder.nodup_children, fun {frame before after} split last => ?_, only, ?_⟩
  · have first : (frames.reverse.find? fun other =>
        decide (imageName other.pts = imageName frame.pts)) = some frame := by
      rw [split, List.reverse_append, List.reverse_cons, List.append_assoc, List.find?_append,
        List.find?_eq_none.mpr]
      · simp
      · intro later listed
        have apart := last later (List.mem_reverse.mp listed)
        simpa using fun same => apart (imageName_injective same)
    exact ⟨imageOf frame, (found _ _).mpr ⟨frame, first, rfl⟩,
      depicted frame (split ▸ List.mem_append_right _ List.mem_cons_self)⟩
  -- the names listed are those of the pts, each once
  · have listed : ∀ name, name ∈ ((shelve place frames folder).children place).map Prod.fst ↔
        name ∈ (frames.map Frame.pts).dedup.map imageName := by
      intro name
      simp only [List.mem_map, List.mem_dedup, Prod.exists, exists_and_right, exists_eq_right]
      constructor
      · rintro ⟨entry, listed⟩
        obtain ⟨frame, member, rfl, -⟩ := only listed
        exact ⟨frame.pts, ⟨frame, member, rfl⟩, rfl⟩
      · rintro ⟨_, ⟨frame, member, rfl⟩, rfl⟩
        have some_frame : (frames.reverse.find? fun other =>
            decide (imageName other.pts = imageName frame.pts)).isSome := by
          rw [List.find?_isSome]
          exact ⟨frame, List.mem_reverse.mpr member, by simp⟩
        obtain ⟨last, first⟩ := Option.isSome_iff_exists.mp some_frame
        exact ⟨imageOf last, (found _ _).mpr ⟨last, first, rfl⟩⟩
    have unique : ((frames.map Frame.pts).dedup.map imageName).Nodup :=
      (List.nodup_dedup _).map imageName_injective
    have same := ((List.perm_ext_iff_of_nodup Folder.nodup_children unique).mpr listed).length_eq
    rwa [List.length_map, List.length_map] at same

end shelf

/-! A run. -/

/-- A frame with a size, its rows in the buffer and a pts of 64 bits. -/
structure Sound (frame : Frame) : Prop where
  columns : 0 < frame.width
  lines : 0 < frame.height
  complete : frame.Complete
  word : InWord frame.pts

/-- The directory can be made and is empty then, and its path leaves room for the names. -/
structure Ready (directory : String) (folder made : Folder) (place : List String) : Prop where
  makes : folder.makeDirectory directory = (.ok (), made)
  leads : made.Leads directory place
  vacant : Vacant place made
  room : directory.utf8ByteSize + 1 + maxImageName ≤ maxPath

/-- The folder when these frames are written; without any the directory is not even made. -/
def stored (folder made : Folder) (place : List String) (shown : List Frame) : Folder :=
  if shown = [] then folder else shelve place shown made

section run
variable {directory : String} {limit : Nat} {folder made : Folder} {place : List String}
  {seen frames shown : List Frame} {frame : Frame} {tally : Tally}

theorem Ready.dump? (ready : Ready directory folder made place)
    (words : ∀ frame ∈ shown, InWord frame.pts) (sound : Sound frame) :
    Tally.dump? frame directory (stored folder made place shown) =
      some (true, shelve place (shown ++ [frame]) made) := by
  have checked := Folder.checkPath_of_makeDirectory ready.makes
  have leads := leads_shelve ready.leads ready.vacant words
  have makes : (stored folder made place shown).makeDirectory directory =
      (.ok (), shelve place shown made) := by
    rw [stored]
    split
    case isTrue none =>
      rw [none]
      exact ready.makes
    case isFalse => exact leads.makeDirectory checked
  have proper := proper_imageName sound.word
  have path := proper.checkPath checked
    ((Nat.add_le_add_left (size_imageName sound.word) _).trans ready.room)
  have written := proper.write (imageOf frame) leads path
    (not_isDirectory_shelve ready.vacant proper)
  obtain ⟨samples, packed, -⟩ := sound.complete.readable.packed?
  have image : imageEntry frame.width frame.height (inRgbOrder frame.format samples) =
      imageOf frame := by
    rw [imageOf, packed]
    rfl
  simp only [Tally.dump?, makes, packed, Option.map_some, image, written, shelve_concat,
    sound.columns, sound.lines, and_self, decide_true]

/-- Where a sink stands after these frames. -/
structure Progress (directory : String) (limit : Nat) (folder made : Folder) (place : List String)
    (seen : List Frame) (tally : Tally) : Prop where
  target : tally.dumpTo = some directory
  dumpLimit : tally.dumpLimit = limit
  counts : Counts (seen.map Frame.pts) tally.stats
  dumped : tally.stats.dumped = min limit seen.length
  folder : tally.folder = stored folder made place (seen.take limit)

theorem progress_start :
    Progress directory limit folder made place [] (start (some directory) limit folder) := by
  refine ⟨rfl, rfl, ⟨rfl, rfl, rfl, rfl⟩, ?_, ?_⟩
  · rw [List.length_nil, Nat.min_zero]
    rfl
  · rw [List.take_nil]
    rfl

theorem Progress.accept (progress : Progress directory limit folder made place seen tally)
    (ready : Ready directory folder made place) (words : ∀ frame ∈ seen, InWord frame.pts)
    (sound : Sound frame) : ∃ tally', tally.accept? frame = some tally' ∧
      Progress directory limit folder made place (seen ++ [frame]) tally' := by
  have counts := progress.counts.count frame
  have still : (count frame tally.stats).dumped = tally.stats.dumped := rfl
  rw [← List.map_singleton, ← List.map_append] at counts
  by_cases room : seen.length < limit
  -- below the limit all frames so far are written, and this one behind them
  · have all : seen.take limit = seen := List.take_of_length_le room.le
    have all' : (seen ++ [frame]).take limit = seen ++ [frame] :=
      List.take_of_length_le (by rw [List.length_append, List.length_singleton]; omega)
    have below : tally.stats.dumped < limit := by
      rw [progress.dumped]
      omega
    have written := ready.dump? words sound
    rw [← all, ← progress.folder] at written
    simp only [accept?, progress.target, progress.dumpLimit, still, if_pos below, written,
      Option.map_some, if_true]
    refine ⟨_, rfl, rfl, rfl,
      ⟨counts.frames, counts.firstPts, counts.lastPts, counts.outOfOrder⟩, ?_, ?_⟩
    · show tally.stats.dumped + 1 = _
      rw [progress.dumped, List.length_append, List.length_singleton]
      omega
    · rw [all', stored, if_neg (by simp), all]
  -- once the limit is reached the folder stays
  · have full : limit ≤ seen.length := not_lt.mp room
    have reached : ¬ tally.stats.dumped < limit := by
      rw [progress.dumped]
      omega
    simp only [accept?, progress.target, progress.dumpLimit, still, if_neg reached]
    refine ⟨_, rfl, rfl, rfl, counts, ?_, ?_⟩
    · show tally.stats.dumped = _
      rw [progress.dumped, List.length_append, List.length_singleton]
      omega
    · rw [List.take_append_of_le_length full]
      exact progress.folder

/-- The sink takes frames one after the other; none if it breaks down. -/
def acceptAll (frames : List Frame) (tally : Tally) : Option Tally :=
  frames.foldlM (fun tally frame => tally.accept? frame) tally

theorem Ready.progress (ready : Ready directory folder made place) (limit : Nat)
    (sound : ∀ frame ∈ frames, Sound frame) :
    ∃ tally, acceptAll frames (start (some directory) limit folder) = some tally ∧
      Progress directory limit folder made place frames tally := by
  induction frames using List.reverseRecOn with
  | nil => exact ⟨_, rfl, progress_start⟩
  | append_singleton frames frame ih =>
    obtain ⟨tally, taken, progress⟩ := ih fun frame listed =>
      sound frame (List.mem_append_left _ listed)
    obtain ⟨tally', next, progress'⟩ := progress.accept ready
      (fun frame listed => (sound frame (List.mem_append_left _ listed)).word)
      (sound frame (List.mem_append_right _ (List.mem_singleton_self frame)))
    refine ⟨tally', ?_, progress'⟩
    rw [acceptAll] at taken ⊢
    rw [List.foldlM_append, taken]
    simpa using next

theorem Shelved.of_nodup {images : List (String × Entry)} (shelved : Shelved shown images)
    (apart : (shown.map Frame.pts).Nodup) : images.length = shown.length ∧
      ∀ frame ∈ shown, ∃ entry, (imageName frame.pts, entry) ∈ images ∧ Depicts entry frame := by
  refine ⟨?_, fun frame listed => ?_⟩
  · rw [shelved.count, apart.dedup, List.length_map]
  · obtain ⟨before, after, split⟩ := List.append_of_mem listed
    rw [split, List.map_append, List.map_cons, List.nodup_append, List.nodup_cons] at apart
    refine shelved.image split fun later behind same => apart.2.1.1 ?_
    exact List.mem_map.mpr ⟨later, behind, same⟩

/-- Frames are counted as their pts say and the first ones are written, up to the limit. The
directory then holds an image for each pts among them, of the last frame that has it, and so one for
each of them if no pts comes twice. -/
theorem acceptAll_dumps (makes : folder.makeDirectory directory = (.ok (), made))
    (empty : made.listing directory = .ok [])
    (room : directory.utf8ByteSize + 1 + maxImageName ≤ maxPath) (limit : Nat)
    (sound : ∀ frame ∈ frames, Sound frame) :
    ∃ tally, acceptAll frames (start (some directory) limit folder) = some tally ∧
      Counts (frames.map Frame.pts) tally.stats ∧
      tally.stats.dumped = min limit frames.length ∧
      (tally.stats.dumped = 0 → tally.folder = folder) ∧
      (0 < tally.stats.dumped → ∃ images, tally.folder.listing directory = .ok images ∧
        Shelved (frames.take limit) images ∧
        (((frames.take limit).map Frame.pts).Nodup → images.length = tally.stats.dumped ∧
          ∀ frame ∈ frames.take limit, ∃ entry,
            (imageName frame.pts, entry) ∈ images ∧ Depicts entry frame)) := by
  obtain ⟨place, leads, none⟩ := Folder.listing_eq_ok_iff.mp empty
  have vacant := vacant_of_children none
  have ready : Ready directory folder made place := ⟨makes, leads, vacant, room⟩
  obtain ⟨tally, taken, progress⟩ := ready.progress limit sound
  have length : (frames.take limit).length = tally.stats.dumped := by
    rw [List.length_take, progress.dumped]
  refine ⟨tally, taken, progress.counts, progress.dumped, fun nothing => ?_, fun something => ?_⟩
  · rw [nothing, List.length_eq_zero_iff] at length
    rw [progress.folder, stored, if_pos length]
  · have some_frame : frames.take limit ≠ [] := fun nil => by
      rw [nil, List.length_nil] at length
      omega
    have shown : ∀ frame ∈ frames.take limit, Sound frame := fun frame listed =>
      sound frame (List.mem_of_mem_take listed)
    have shelved := shelved_shelve vacant fun frame listed =>
      depicts_imageOf (shown frame listed).complete (shown frame listed).columns
        (shown frame listed).lines
    refine ⟨_, ?_, shelved, fun apart => ?_⟩
    · rw [progress.folder, stored, if_neg some_frame, Folder.listing_eq_ok_iff]
      exact ⟨place, leads_shelve leads vacant fun frame listed => (shown frame listed).word, rfl⟩
    · rw [← length]
      exact shelved.of_nodup apart

end run

theorem ready_in_empty :
    Ready "d" .empty (Folder.empty.put ["d"] .directory) ["d"] := by
  have start : startOf "d" = ([], ["d"]) := startOf_name (by decide)
  refine ⟨?_, ⟨?_, rfl⟩, vacant_of_children rfl, by decide⟩
  · simp only [Folder.makeDirectory, start]
    rfl
  · rw [start]
    rfl

/-- Of three frames two are written, one with padding and one with its channels exchanged. -/
theorem acceptAll_dumps_two_of_three :
    let frames : List Frame := [⟨1, 2, .rgb48, 5, .one, 4, #[1, 2, 3, 0, 4, 5, 6], false⟩,
      ⟨1, 1, .bgr48, -3, .one, 3, #[7, 8, 9], false⟩, ⟨1, 1, .rgb48, 5, .one, 3, #[7, 8, 9], false⟩]
    ∃ tally images, acceptAll frames (start (some "d") 2 .empty) = some tally ∧
      tally.stats.frames = 3 ∧ tally.stats.outOfOrder = 1 ∧ tally.stats.dumped = 2 ∧
      tally.folder.listing "d" = .ok images ∧ images.length = 2 := by
  intro frames
  have ready := ready_in_empty
  have sound : ∀ frame ∈ frames, Sound frame := by
    simp only [frames, List.forall_mem_cons]
    refine ⟨?_, ?_, ?_, fun frame none => nomatch none⟩ <;>
      exact ⟨by decide, by decide, ⟨by decide, by decide⟩, by decide⟩
  have empty : (Folder.empty.put ["d"] .directory).listing "d" = .ok [] :=
    Folder.listing_eq_ok_iff.mpr ⟨["d"], ready.leads, rfl⟩
  obtain ⟨tally, taken, counts, dumped, -, written⟩ :=
    acceptAll_dumps ready.makes empty ready.room 2 sound
  have two : tally.stats.dumped = 2 := dumped
  obtain ⟨images, listed, -, apart⟩ := written (by omega)
  obtain ⟨length, -⟩ := apart (by decide)
  exact ⟨tally, images, taken, counts.frames, counts.outOfOrder, two, listed, length.trans two⟩

/-- Two frames of one pts are both counted as written, and one image is there, the second one's. -/
theorem one_image_for_one_pts :
    let frame (fill : UInt16) : Frame :=
      { Frame.unpooled 1 1 .rgb48 (Array.replicate 3 fill) with pts := 7 }
    ∃ tally images, acceptAll [frame 1, frame 2] (start (some "d") 2 .empty) = some tally ∧
      tally.stats.dumped = 2 ∧ tally.folder.listing "d" = .ok images ∧ images.length = 1 ∧
      ¬ ∃ name entry, (name, entry) ∈ images ∧ Depicts entry (frame 1) := by
  intro frame
  have sound (fill : UInt16) : Sound (frame fill) :=
    ⟨Nat.one_pos, Nat.one_pos, ⟨Nat.le_refl 3, Nat.le_refl 3⟩, show InWord 7 by decide⟩
  have sounds : ∀ other ∈ [frame 1, frame 2], Sound other := by
    simp only [List.forall_mem_cons]
    exact ⟨sound 1, sound 2, fun other none => nomatch none⟩
  have ready := ready_in_empty
  obtain ⟨tally, taken, progress⟩ := ready.progress 2 sounds
  have shelved : Shelved [frame 1, frame 2] (tally.folder.children ["d"]) := by
    rw [progress.folder]
    exact shelved_shelve ready.vacant fun other listed =>
      depicts_imageOf (sounds other listed).complete (sounds other listed).columns
        (sounds other listed).lines
  have leads : tally.folder.Leads "d" ["d"] := by
    rw [progress.folder]
    exact leads_shelve ready.leads ready.vacant fun other listed => (sounds other listed).word
  have one : (tally.folder.children ["d"]).length = 1 := shelved.count
  have listing := Folder.listing_eq_ok_iff.mpr ⟨["d"], leads, rfl⟩
  refine ⟨tally, _, taken, progress.dumped, listing, one, ?_⟩
  rintro ⟨name, entry, listed, first⟩
  have split : [frame 1, frame 2] = [frame 1] ++ frame 2 :: [] := rfl
  obtain ⟨entry', listed', second⟩ := shelved.image split fun other none => nomatch none
  obtain ⟨only, all⟩ := List.length_eq_one_iff.mp one
  rw [all, List.mem_singleton] at listed listed'
  obtain rfl : entry = entry' := congrArg Prod.snd (listed.trans listed'.symm)
  obtain ⟨samples, rfl, -, pixel⟩ := first
  obtain ⟨samples', same, -, pixel'⟩ := second
  obtain rfl : samples = samples' := by injection same
  obtain ⟨red, here, there⟩ := pixel 0 (by decide) 0 (by decide) 0 (by decide)
  obtain ⟨red', here', there'⟩ := pixel' 0 (by decide) 0 (by decide) 0 (by decide)
  obtain rfl : red = red' := Option.some.inj (here.symm.trans here')
  have first : some 1 = some red := there
  have second : some 2 = some red := there'
  exact absurd (first.trans second.symm) (by decide)

end FrameRelay.Tally
