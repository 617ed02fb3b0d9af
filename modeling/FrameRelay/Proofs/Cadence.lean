import FrameRelay.Proofs.Schedule

/-! The schedule of an interpolation on exact ratios. Output `k` lies at `k` times the fps factor.
The last distinct input is never behind the next output, so the pushes and the end share out the
outputs without a gap: each distinct input takes those that lie before it and are left, and the end
takes the rest. -/

namespace FrameRelay.Kernel

namespace Timeline

/-- The nearest whole number, away from zero where two are as near. -/
def nearestRatio (x : ℚ) : ℤ := if 0 ≤ x then ⌊x + 1 / 2⌋ else ⌈x - 1 / 2⌉

/-- The sample at `t` on the way from `a` to `b`. -/
def mixRatio (a b : UInt16) (t : ℚ) : UInt16 :=
  .ofNat (min (nearestRatio (a.toNat + ((b.toNat : ℚ) - a.toNat) * t)).toNat 65535)

instance : Timeline ℚ where
  ofInt := Int.cast
  slack := 1e-9
  nearest := nearestRatio
  mix := mixRatio
  reach step limit := ⌊limit / step⌋₊ + 1

theorem ofInt_ratio (n : ℤ) : (ofInt n : ℚ) = n := rfl

theorem slack_ratio : (slack : ℚ) = 1e-9 := rfl

theorem reach_ratio (step limit : ℚ) : reach step limit = ⌊limit / step⌋₊ + 1 := rfl

theorem nearest_intCast (n : ℤ) : nearest (n : ℚ) = n := by
  show nearestRatio n = n
  unfold nearestRatio
  split
  · rw [Int.floor_eq_iff]
    constructor <;> linarith
  · rw [Int.ceil_eq_iff]
    constructor <;> linarith

theorem nearest_mono {x y : ℚ} (nonneg : 0 ≤ x) (order : x ≤ y) : nearest x ≤ nearest y := by
  show nearestRatio x ≤ nearestRatio y
  rw [nearestRatio, nearestRatio, if_pos nonneg, if_pos (nonneg.trans order)]
  exact Int.floor_le_floor (by linarith)

theorem nearest_nonneg {x : ℚ} (nonneg : 0 ≤ x) : 0 ≤ nearest x := by
  have least := nearest_mono le_rfl nonneg
  rwa [← Int.cast_zero, nearest_intCast] at least

end Timeline

namespace Interpolation
open Timeline

section stream
variable {α : Type} [Add α] [Sub α] [Mul α] [Div α] [LT α] [LE α] [DecidableLT α] [DecidableLE α]
  [Timeline α]

/-- The outputs that a push brings, each with the number it is counted under. -/
def pushed (state : Interpolation α) (frame : Picture) : List (Output × Nat) :=
  (state.push frame).2.zipIdx state.next

/-- Those that the end brings. -/
def finished (state : Interpolation α) : List (Output × Nat) := state.finish.2.zipIdx state.next

/-- Those of all pushes and of the end after them. -/
def stream (state : Interpolation α) : List Picture → List (Output × Nat)
  | [] => state.finished
  | frame :: later => state.pushed frame ++ (state.push frame).1.stream later

/-- The kernel at its end, with the pts step that the outputs behind the anchor have. -/
def settled (state : Interpolation α) (place : α) (anchor : Picture) : Interpolation α :=
  { state with anchor := none, ptsStep := state.lastStep place anchor }

/-- The kernel after some pushes. -/
def after (state : Interpolation α) (frames : List Picture) : Interpolation α :=
  frames.foldl (fun state frame => (state.push frame).1) state

theorem numbered_map {β : Type} (shown : Nat → β) (first count : Nat) :
    ((List.range' first count).map shown).zipIdx first =
      (List.range' first count).map fun k => (shown k, k) := by
  induction count generalizing first with
  | zero => rfl
  | succ count ih =>
    rw [List.range'_succ, List.map_cons, List.map_cons, List.zipIdx_cons, ih]

end stream

/-- How many outputs lie before an input. -/
def before (f : ℚ) (place : ℕ) : ℕ := ⌈(place : ℚ) / f⌉₊

/-- How many outputs there are for so many inputs. -/
def total (f : ℚ) (count : ℕ) : ℕ := ⌊(((count - 1 : ℕ) : ℚ) + 1e-9) / f⌋₊ + 1

section counts
variable {f : ℚ} (positive : 0 < f)
include positive

theorem lt_before {place k : ℕ} : k < before f place ↔ (k : ℚ) * f < place := by
  rw [before, Nat.lt_ceil, lt_div_iff₀ positive]

theorem lt_total {count k : ℕ} :
    k < total f count ↔ (k : ℚ) * f ≤ (count - 1 : ℕ) + 1e-9 := by
  have nonneg : (0 : ℚ) ≤ (((count - 1 : ℕ) : ℚ) + 1e-9) / f := by positivity
  rw [total, Nat.lt_succ_iff, Nat.le_floor_iff nonneg, le_div_iff₀ positive]

theorem before_mono {place place' : ℕ} (order : place ≤ place') :
    before f place ≤ before f place' := by
  unfold before
  gcongr

theorem before_le_total {place count : ℕ} (inside : place < count) :
    before f place ≤ total f count := by
  by_contra short
  have late := (lt_before positive).mp (Nat.lt_of_not_le short)
  have last : (place : ℚ) ≤ (count - 1 : ℕ) := by
    exact_mod_cast Nat.le_sub_one_of_lt inside
  have early : total f count < total f count := (lt_total positive).mpr (by linarith)
  exact absurd early (Nat.lt_irrefl _)

end counts

theorem due_of_opens (state : Interpolation ℚ) {limit : ℚ} {meets : ℚ → Bool} {bound : ℕ}
    (opens : ∀ k, meets (state.position k) = decide (k < bound)) (low : state.next ≤ bound)
    (near : bound ≤ reach state.fpsFactor limit + 1) :
    state.due limit meets = List.range' state.next (bound - state.next) := by
  obtain ⟨stop, after, within, taken, passes, fails⟩ :=
    takeWhile_range' (fun k => meets (state.position k)) state.next
      (reach state.fpsFactor limit + 1 - state.next)
  have same : stop = bound := by
    apply Nat.le_antisymm
    · by_contra late
      have passed := passes bound low (Nat.lt_of_not_le late)
      rw [opens] at passed
      exact absurd (of_decide_eq_true passed) (Nat.lt_irrefl _)
    · by_contra early
      have failed := fails (by omega)
      rw [opens] at failed
      exact of_decide_eq_false failed (Nat.lt_of_not_le early)
  rw [← same]
  exact taken

/-- The schedule after so many inputs, when the anchor is the one at `place`: the outputs that lie
before the anchor are out. -/
structure Paces (f : ℚ) (limit : Float) (count place : ℕ) (anchor : Picture)
    (state : Interpolation ℚ) : Prop where
  factor_eq : state.fpsFactor = f
  limit_eq : state.duplicateLimit = limit
  inputs_eq : state.inputs = count
  anchor_eq : state.anchor = some ((place : ℚ), anchor)
  place_lt : place < count
  next_eq : state.next = before f place

section run
variable {f threshold : ℚ} {limit : Float} {count place : ℕ} {anchor frame : Picture}
  {state : Interpolation ℚ}

theorem push_first (f threshold : ℚ) (limit : Float) (frame : Picture) :
    ((start f threshold limit).push frame).2 = [] ∧
      ((start f threshold limit).push frame).1.Paces f limit 1 0 frame := by
  have none_before : 0 = before f 0 := by simp [before]
  exact ⟨rfl, rfl, rfl, rfl, rfl, Nat.one_pos, none_before⟩

namespace Paces

theorem position_eq (paces : state.Paces f limit count place anchor) (k : ℕ) :
    state.position k = k * f := by
  rw [position, paces.factor_eq, ofInt_ratio, Int.cast_natCast]

theorem next_le (positive : 0 < f) (paces : state.Paces f limit count place anchor) :
    state.next ≤ before f count := by
  rw [paces.next_eq]
  exact before_mono positive paces.place_lt.le

theorem push_of_held (paces : state.Paces f limit count place anchor)
    (held : isDuplicate limit anchor frame = true) :
    state.push frame =
      ({ state with inputs := count + 1, newest := some ((count : ℚ), frame.pts) }, []) := by
  rw [← paces.limit_eq] at held
  simp only [push, paces.anchor_eq, held, if_true, paces.inputs_eq, ofInt_ratio, Int.cast_natCast]

theorem push_of_distinct (positive : 0 < f) (paces : state.Paces f limit count place anchor)
    (distinct : isDuplicate limit anchor frame = false) :
    state.push frame =
      ({ state with
          inputs := count + 1
          newest := some ((count : ℚ), frame.pts)
          anchor := some ((count : ℚ), frame)
          next := before f count
          ptsStep := (frame.pts - anchor.pts : ℤ) / ((count : ℚ) - place) },
        (List.range' state.next (before f count - state.next)).map
          (state.between place anchor count frame)) := by
  have near : before f count ≤ reach state.fpsFactor (count : ℚ) + 1 := by
    rw [paces.factor_eq, reach_ratio]
    exact (Nat.ceil_le_floor_add_one _).trans (Nat.le_succ _)
  have due_eq : state.due (count : ℚ) (fun x => decide (x < count)) =
      List.range' state.next (before f count - state.next) := by
    apply state.due_of_opens _ (paces.next_le positive) near
    intro k
    rw [paces.position_eq, decide_eq_decide]
    exact (lt_before positive).symm
  have next_eq : state.next + (before f count - state.next) = before f count :=
    Nat.add_sub_of_le (paces.next_le positive)
  rw [← paces.limit_eq] at distinct
  simp only [push, paces.anchor_eq, distinct, Bool.false_eq_true, if_false, paces.inputs_eq,
    ofInt_ratio, Int.cast_natCast, due_eq, List.length_range', next_eq]

theorem pushed_cases (positive : 0 < f) (paces : state.Paces f limit count place anchor)
    (frame : Picture) :
    (isDuplicate limit anchor frame = true ∧ state.pushed frame = [] ∧
      (state.push frame).1.Paces f limit (count + 1) place anchor) ∨
    (isDuplicate limit anchor frame = false ∧
      state.pushed frame = (List.range' state.next (before f count - state.next)).map
        (fun k => (state.between place anchor count frame k, k)) ∧
      (state.push frame).1.Paces f limit (count + 1) count frame) := by
  cases held : isDuplicate limit anchor frame with
  | true =>
    rw [pushed, paces.push_of_held held]
    exact .inl ⟨rfl, rfl, paces.factor_eq, paces.limit_eq, rfl, paces.anchor_eq,
      Nat.lt_succ_of_lt paces.place_lt, paces.next_eq⟩
  | false =>
    rw [pushed, paces.push_of_distinct positive held]
    exact .inr ⟨rfl, numbered_map _ _ _, paces.factor_eq, paces.limit_eq, rfl, rfl,
      Nat.lt_succ_self count, rfl⟩

theorem finished_eq (positive : 0 < f) (paces : state.Paces f limit count place anchor) :
    state.finished = (List.range' state.next (total f count - state.next)).map fun k =>
      ((state.settled place anchor).trailing place anchor k, k) := by
  have last : (ofInt (state.inputs - 1 : ℕ) + slack : ℚ) = (count - 1 : ℕ) + 1e-9 := by
    rw [paces.inputs_eq, ofInt_ratio, slack_ratio, Int.cast_natCast]
  have low : state.next ≤ total f count := by
    rw [paces.next_eq]
    exact before_le_total positive paces.place_lt
  have near : total f count ≤ reach state.fpsFactor ((count - 1 : ℕ) + 1e-9 : ℚ) + 1 := by
    rw [paces.factor_eq, reach_ratio, total]
    exact Nat.le_succ _
  have due_eq : (state.settled place anchor).due ((count - 1 : ℕ) + 1e-9 : ℚ)
      (fun x => decide (x ≤ (count - 1 : ℕ) + 1e-9)) =
        List.range' state.next (total f count - state.next) := by
    apply (state.settled place anchor).due_of_opens _ low near
    intro k
    have place_eq : (state.settled place anchor).position k = k * f := paces.position_eq k
    rw [place_eq, decide_eq_decide]
    exact (lt_total positive).symm
  have outputs : state.finish.2 = ((state.settled place anchor).due ((count - 1 : ℕ) + 1e-9 : ℚ)
      fun x => decide (x ≤ (count - 1 : ℕ) + 1e-9)).map
        ((state.settled place anchor).trailing place anchor) := by
    simp only [finish, paces.anchor_eq, last]
    rfl
  rw [finished, outputs, due_eq, numbered_map]

theorem trailing_eq (paces : state.Paces f limit count place anchor) (k : ℕ) :
    (state.settled place anchor).trailing place anchor k = ⟨anchor.width, anchor.height,
      anchor.pts + nearest ((k * f - place) * state.lastStep place anchor),
      some anchor.samples⟩ := by
  rw [← paces.position_eq]
  rfl

theorem after (positive : 0 < f) (paces : state.Paces f limit count place anchor)
    (frames : List Picture) : ∃ place' anchor',
      (state.after frames).Paces f limit (count + frames.length) place' anchor' := by
  induction frames generalizing state count place anchor with
  | nil => exact ⟨place, anchor, paces⟩
  | cons frame later ih =>
    rw [List.length_cons, Nat.add_comm later.length, ← Nat.add_assoc]
    obtain ⟨-, -, paces'⟩ | ⟨-, -, paces'⟩ := paces.pushed_cases positive frame
    · exact ih paces'
    · exact ih paces'

/-- What the pushes and the end bring together are the outputs from the next one on. -/
theorem numbers_stream (positive : 0 < f) (paces : state.Paces f limit count place anchor)
    (frames : List Picture) :
    (state.stream frames).map Prod.snd =
      List.range' state.next (total f (count + frames.length) - state.next) := by
  induction frames generalizing state count place anchor with
  | nil =>
    rw [stream, paces.finished_eq positive, List.map_map, List.length_nil, Nat.add_zero]
    exact List.map_id _
  | cons frame later ih =>
    rw [stream, List.map_append, List.length_cons, Nat.add_comm later.length, ← Nat.add_assoc]
    obtain ⟨-, nothing, paces'⟩ | ⟨-, outputs, paces'⟩ := paces.pushed_cases positive frame
    · have next_eq : (state.push frame).1.next = state.next := by
        rw [paces'.next_eq, paces.next_eq]
      rw [nothing, ih paces', next_eq, List.map_nil, List.nil_append]
    · have low := paces.next_le positive
      have high : before f count ≤ total f (count + 1 + later.length) :=
        before_le_total positive (by omega)
      have here : state.next + (before f count - state.next) = before f count := by omega
      have all : before f count - state.next +
          (total f (count + 1 + later.length) - before f count) =
            total f (count + 1 + later.length) - state.next := by
        omega
      have numbers : (state.pushed frame).map Prod.snd =
          List.range' state.next (before f count - state.next) := by
        rw [outputs, List.map_map]
        exact List.map_id _
      rw [numbers, ih paces', paces'.next_eq]
      -- the next anchor is where this push stops, so the two ranges meet
      calc
        List.range' state.next (before f count - state.next) ++ List.range' (before f count)
              (total f (count + 1 + later.length) - before f count)
          = List.range' state.next (before f count - state.next) ++
              List.range' (state.next + (before f count - state.next))
                (total f (count + 1 + later.length) - before f count) := by rw [here]
        _ = List.range' state.next (total f (count + 1 + later.length) - state.next) := by
            rw [List.range'_append_1, all]

theorem of_mem_left (positive : 0 < f) (paces : state.Paces f limit count place anchor)
    {bound k : ℕ} (inside : k ∈ List.range' state.next (bound - state.next)) :
    (place : ℚ) ≤ k * f ∧ k < bound := by
  obtain ⟨low, high⟩ := List.mem_range'_1.mp inside
  refine ⟨?_, by omega⟩
  by_contra late
  have out := (lt_before positive).mpr (lt_of_not_ge late)
  rw [paces.next_eq] at low
  omega

theorem of_mem_pushed (positive : 0 < f) (paces : state.Paces f limit count place anchor)
    {output : Output} {k : ℕ} (inside : (output, k) ∈ state.pushed frame) :
    isDuplicate limit anchor frame = false ∧ (place : ℚ) ≤ k * f ∧ (k : ℚ) * f < count ∧
      output = state.between place anchor count frame k := by
  obtain ⟨-, nothing, -⟩ | ⟨distinct, outputs, -⟩ := paces.pushed_cases positive frame
  · rw [nothing] at inside
    exact absurd inside List.not_mem_nil
  · rw [outputs] at inside
    obtain ⟨k', within, same⟩ := List.mem_map.mp inside
    obtain ⟨rfl, rfl⟩ := Prod.mk.inj same
    obtain ⟨low, high⟩ := paces.of_mem_left positive within
    exact ⟨distinct, low, (lt_before positive).mp high, rfl⟩

theorem of_mem_finished (positive : 0 < f) (paces : state.Paces f limit count place anchor)
    {output : Output} {k : ℕ} (inside : (output, k) ∈ state.finished) :
    (place : ℚ) ≤ k * f ∧ output = ⟨anchor.width, anchor.height,
      anchor.pts + nearest ((k * f - place) * state.lastStep place anchor),
      some anchor.samples⟩ := by
  rw [paces.finished_eq positive] at inside
  obtain ⟨k', within, same⟩ := List.mem_map.mp inside
  obtain ⟨rfl, rfl⟩ := Prod.mk.inj same
  exact ⟨(paces.of_mem_left positive within).1, paces.trailing_eq k'⟩

end Paces

theorem Fits.stream {width height : ℕ} (fits : state.Fits width height) {frames : List Picture}
    (packed : ∀ frame ∈ frames, frame.Packed width height) :
    ∀ shown ∈ state.stream frames, shown.1.Packed width height := by
  induction frames generalizing state with
  | nil =>
    intro shown inside
    exact fits.finish.2 shown.1 (List.fst_mem_of_mem_zipIdx inside)
  | cons frame later ih =>
    rw [List.forall_mem_cons] at packed
    obtain ⟨fits', outputs⟩ := fits.push packed.1
    intro shown inside
    rcases List.mem_append.mp inside with here | there
    · exact outputs shown.1 (List.fst_mem_of_mem_zipIdx here)
    · exact ih fits' packed.2 shown there

/-- The pts went up to the newest input so far. -/
structure Rises (anchor : Picture) (newest : ℤ) (state : Interpolation ℚ) : Prop where
  newest_eq : ∃ here, state.newest = some (here, newest)
  order : anchor.pts ≤ newest
  ptsStep : 0 ≤ state.ptsStep

namespace Rises
variable {newest : ℤ}

theorem push_held (paces : state.Paces f limit count place anchor)
    (rises : state.Rises anchor newest) (order : newest ≤ frame.pts)
    (held : isDuplicate limit anchor frame = true) :
    (state.push frame).1.Rises anchor frame.pts := by
  rw [paces.push_of_held held]
  exact ⟨⟨_, rfl⟩, rises.order.trans order, rises.ptsStep⟩

theorem push_distinct (positive : 0 < f) (paces : state.Paces f limit count place anchor)
    (rises : state.Rises anchor newest) (order : newest ≤ frame.pts)
    (distinct : isDuplicate limit anchor frame = false) :
    (state.push frame).1.Rises frame frame.pts := by
  have gap : (0 : ℚ) ≤ (frame.pts - anchor.pts : ℤ) := by
    exact_mod_cast sub_nonneg.mpr (rises.order.trans order)
  have span : (0 : ℚ) ≤ count - place := by
    have before : (place : ℚ) ≤ count := by exact_mod_cast paces.place_lt.le
    linarith
  rw [paces.push_of_distinct positive distinct]
  exact ⟨⟨_, rfl⟩, le_rfl, div_nonneg gap span⟩

theorem lastStep_nonneg (rises : state.Rises anchor newest) (place : ℚ) :
    0 ≤ state.lastStep place anchor := by
  obtain ⟨here, newest_eq⟩ := rises.newest_eq
  simp only [lastStep, newest_eq]
  split
  case isTrue ahead =>
    have gap : (0 : ℚ) ≤ (newest - anchor.pts : ℤ) := by
      exact_mod_cast sub_nonneg.mpr rises.order
    exact div_nonneg gap (sub_nonneg.mpr ahead.le)
  case isFalse => exact rises.ptsStep

end Rises

theorem pairwise_map_range' {shown : ℕ → Output × ℕ} {first count : ℕ}
    (mono : ∀ k ∈ List.range' first count, ∀ k' ∈ List.range' first count, k ≤ k' →
      (shown k).1.pts ≤ (shown k').1.pts) :
    ((List.range' first count).map shown).Pairwise fun a b => a.1.pts ≤ b.1.pts := by
  rw [List.pairwise_map]
  have ascending : (List.range' first count).Pairwise (· < ·) := List.pairwise_lt_range' 1
  refine ascending.imp_of_mem ?_
  intro k k' inside inside' earlier
  exact mono k inside k' inside' earlier.le

theorem Paces.sorted_pushed (positive : 0 < f) (paces : state.Paces f limit count place anchor)
    (order : anchor.pts ≤ frame.pts) :
    (∀ shown ∈ state.pushed frame, anchor.pts ≤ shown.1.pts ∧ shown.1.pts ≤ frame.pts) ∧
      (state.pushed frame).Pairwise fun a b => a.1.pts ≤ b.1.pts := by
  obtain ⟨-, nothing, -⟩ | ⟨-, outputs, -⟩ := paces.pushed_cases positive frame
  · rw [nothing]
    exact ⟨by simp, List.Pairwise.nil⟩
  have gap : (0 : ℚ) ≤ (frame.pts - anchor.pts : ℤ) := by exact_mod_cast sub_nonneg.mpr order
  have span : (0 : ℚ) < count - place := by
    have earlier : (place : ℚ) < count := by exact_mod_cast paces.place_lt
    linarith
  -- the way from the anchor to the input, and the pts on it
  let way (k : ℕ) : ℚ := (k * f - place) / (count - place)
  have pts_eq (k : ℕ) : (state.between place anchor count frame k).pts =
      anchor.pts + nearest ((frame.pts - anchor.pts : ℤ) * way k) := by
    rw [between, paces.position_eq, ofInt_ratio]
  have started {k : ℕ} (inside : k ∈ List.range' state.next (before f count - state.next)) :
      0 ≤ way k :=
    div_nonneg (sub_nonneg.mpr (paces.of_mem_left positive inside).1) span.le
  have arrives {k : ℕ} (inside : k ∈ List.range' state.next (before f count - state.next)) :
      way k ≤ 1 := by
    have early := (lt_before positive).mp (paces.of_mem_left positive inside).2
    rw [div_le_one span]
    linarith
  rw [outputs]
  constructor
  · rw [List.forall_mem_map]
    intro k inside
    have most : nearest ((frame.pts - anchor.pts : ℤ) * way k) ≤ frame.pts - anchor.pts := by
      have whole := nearest_mono (mul_nonneg gap (started inside))
        (mul_le_of_le_one_right gap (arrives inside))
      rwa [nearest_intCast] at whole
    have least := nearest_nonneg (mul_nonneg gap (started inside))
    rw [pts_eq]
    omega
  · apply pairwise_map_range'
    intro k inside k' _ earlier
    have nearer : way k ≤ way k' := by
      show (k * f - place) / (count - place) ≤ (k' * f - place) / (count - place : ℚ)
      gcongr
    have ordered := nearest_mono (mul_nonneg gap (started inside))
      (mul_le_mul_of_nonneg_left nearer gap)
    rw [pts_eq, pts_eq]
    omega

theorem Paces.sorted_finished (positive : 0 < f) (paces : state.Paces f limit count place anchor)
    {newest : ℤ} (rises : state.Rises anchor newest) :
    (∀ shown ∈ state.finished, anchor.pts ≤ shown.1.pts) ∧
      state.finished.Pairwise fun a b => a.1.pts ≤ b.1.pts := by
  have steady := rises.lastStep_nonneg place
  have pts_eq (k : ℕ) : ((state.settled place anchor).trailing place anchor k).pts =
      anchor.pts + nearest ((k * f - place) * state.lastStep place anchor) := by
    rw [paces.trailing_eq]
  have started {k : ℕ} (inside : k ∈ List.range' state.next (total f count - state.next)) :
      0 ≤ (k * f - place) * state.lastStep place anchor :=
    mul_nonneg (sub_nonneg.mpr (paces.of_mem_left positive inside).1) steady
  rw [paces.finished_eq positive]
  constructor
  · rw [List.forall_mem_map]
    intro k inside
    have least := nearest_nonneg (started inside)
    rw [pts_eq]
    omega
  · apply pairwise_map_range'
    intro k inside k' _ earlier
    have ordered : nearest ((k * f - place) * state.lastStep place anchor) ≤
        nearest ((k' * f - place) * state.lastStep place anchor) := by
      apply nearest_mono (started inside)
      gcongr
    rw [pts_eq, pts_eq]
    omega

theorem Paces.sorted_stream (positive : 0 < f) (paces : state.Paces f limit count place anchor)
    {newest : ℤ} (rises : state.Rises anchor newest) {frames : List Picture}
    (ordered : frames.Pairwise fun a b => a.pts ≤ b.pts)
    (above : ∀ frame ∈ frames, newest ≤ frame.pts) :
    (∀ shown ∈ state.stream frames, anchor.pts ≤ shown.1.pts) ∧
      (state.stream frames).Pairwise fun a b => a.1.pts ≤ b.1.pts := by
  induction frames generalizing state count place anchor newest with
  | nil => exact paces.sorted_finished positive rises
  | cons frame later ih =>
    rw [List.pairwise_cons] at ordered
    rw [List.forall_mem_cons] at above
    obtain ⟨held, nothing, paces'⟩ | ⟨distinct, -, paces'⟩ := paces.pushed_cases positive frame
    · rw [stream, nothing]
      exact ih paces' (rises.push_held paces above.1 held) ordered.2 ordered.1
    · -- the pts of the next anchor lie between what this push brings and all that follows
      have upwards := rises.order.trans above.1
      have rises' := rises.push_distinct positive paces above.1 distinct
      obtain ⟨low, sorted⟩ := ih paces' rises' ordered.2 ordered.1
      obtain ⟨within, sorted'⟩ := paces.sorted_pushed positive upwards
      rw [stream, List.forall_mem_append, List.pairwise_append]
      refine ⟨⟨fun shown inside => (within shown inside).1,
        fun shown inside => upwards.trans (low shown inside)⟩, sorted', sorted, ?_⟩
      intro shown inside shown' inside'
      exact (within shown inside).2.trans (low shown' inside')

theorem stream_first (f threshold : ℚ) (limit : Float) (first : Picture) (later : List Picture) :
    (start f threshold limit).stream (first :: later) =
      ((start f threshold limit).push first).1.stream later := by
  rw [stream, pushed, (push_first f threshold limit first).1, List.zipIdx_nil, List.nil_append]

theorem rises_first (f threshold : ℚ) (limit : Float) (first : Picture) :
    ((start f threshold limit).push first).1.Rises first first.pts := by
  have one : (0 : ℚ) ≤ (1 : ℤ) := by norm_num
  exact ⟨⟨_, rfl⟩, le_rfl, one⟩

theorem paces_after (positive : 0 < f) (threshold : ℚ) (limit : Float) {frames : List Picture}
    (some_there : frames ≠ []) : ∃ place anchor,
      ((start f threshold limit).after frames).Paces f limit frames.length place anchor := by
  obtain ⟨first, later, rfl⟩ := List.exists_cons_of_ne_nil some_there
  rw [List.length_cons, Nat.add_comm]
  exact (push_first f threshold limit first).2.after positive later

end run

/-- On exact numbers an interpolation with inputs of one size brings one output for each multiple
of the fps factor up to the last input, slack included, in the order of the multiples. A push
brings those between the last distinct input and its own, and a duplicate brings none; the end
brings copies of the last distinct input. Every output has the size of the inputs, and with pts that
never go down those of the outputs do not either. -/
theorem outputs_at_the_multiples {f : ℚ} (positive : 0 < f) (threshold : ℚ) (limit : Float)
    {width height : ℕ} {pictures : List Picture} (some_there : pictures ≠ [])
    (sized : ∀ picture ∈ pictures, picture.Packed width height) :
    let start : Interpolation ℚ := .start f threshold limit
    (∃ total, (start.stream pictures).map Prod.snd = List.range total ∧
      ∀ k, k < total ↔ (k : ℚ) * f ≤ (pictures.length - 1 : ℕ) + 1e-9) ∧
    (∀ earlier frame later, pictures = earlier ++ frame :: later → ∀ output k,
      (output, k) ∈ (start.after earlier).pushed frame → ∃ (place : ℕ) (anchor : Picture),
        (start.after earlier).anchor = some ((place : ℚ), anchor) ∧
        isDuplicate limit anchor frame = false ∧
        (place : ℚ) ≤ k * f ∧ (k : ℚ) * f < earlier.length ∧
        output = (start.after earlier).between place anchor earlier.length frame k) ∧
    (∀ output k, (output, k) ∈ (start.after pictures).finished →
      ∃ (place : ℕ) (anchor : Picture), (start.after pictures).anchor = some ((place : ℚ), anchor) ∧
        (place : ℚ) ≤ k * f ∧ output = ⟨anchor.width, anchor.height, anchor.pts +
          nearest ((k * f - place) * (start.after pictures).lastStep place anchor),
          some anchor.samples⟩) ∧
    (∀ shown ∈ start.stream pictures, shown.1.Packed width height) ∧
    ((pictures.Pairwise fun a b => a.pts ≤ b.pts) →
      (start.stream pictures).Pairwise fun a b => a.1.pts ≤ b.1.pts) := by
  intro start
  refine ⟨?_, ?_, ?_, ?_, ?_⟩
  · obtain ⟨first, later, rfl⟩ := List.exists_cons_of_ne_nil some_there
    have paces := (push_first f threshold limit first).2
    have none_out : (start.push first).1.next = 0 := by
      rw [paces.next_eq, before, Nat.cast_zero, zero_div, Nat.ceil_zero]
    refine ⟨total f (first :: later).length, ?_, fun k => lt_total positive⟩
    rw [stream_first, paces.numbers_stream positive, none_out, Nat.sub_zero,
      List.range_eq_range', List.length_cons, Nat.add_comm 1]
  · intro earlier frame later split output k inside
    by_cases first : earlier = []
    · rw [first, after, List.foldl_nil, pushed, (push_first f threshold limit frame).1,
        List.zipIdx_nil] at inside
      exact absurd inside List.not_mem_nil
    · obtain ⟨place, anchor, paces⟩ := paces_after positive threshold limit first
      exact ⟨place, anchor, paces.anchor_eq, paces.of_mem_pushed positive inside⟩
  · intro output k inside
    obtain ⟨place, anchor, paces⟩ := paces_after positive threshold limit some_there
    exact ⟨place, anchor, paces.anchor_eq, paces.of_mem_finished positive inside⟩
  · have fits : start.Fits width height := by
      intro place anchor held
      cases held
    exact fits.stream sized
  · intro ordered
    obtain ⟨first, later, rfl⟩ := List.exists_cons_of_ne_nil some_there
    have paces := (push_first f threshold limit first).2
    have rises := rises_first f threshold limit first
    rw [List.pairwise_cons] at ordered
    rw [stream_first]
    exact (paces.sorted_stream positive rises ordered.2 ordered.1).2

/-- Five inputs at a factor of a half bring nine outputs. -/
theorem outputs_at_the_multiples_five :
    let picture (pts : ℤ) (value : UInt16) : Picture := ⟨1, 1, pts, #[value, value, value]⟩
    let pictures := [picture 0 0, picture 100 1000, picture 200 2000, picture 300 2000,
      picture 400 4000]
    let outputs := (start (1 / 2 : ℚ) (3 / 20) 0.01).stream pictures
    outputs.map Prod.snd = List.range 9 ∧
      (∀ shown ∈ outputs, shown.1.Packed 1 1) ∧
      outputs.Pairwise fun a b => a.1.pts ≤ b.1.pts := by
  intro picture pictures outputs
  have sized : ∀ frame ∈ pictures, frame.Packed 1 1 := by
    simp only [pictures, List.forall_mem_cons]
    exact ⟨⟨rfl, rfl, rfl⟩, ⟨rfl, rfl, rfl⟩, ⟨rfl, rfl, rfl⟩, ⟨rfl, rfl, rfl⟩, ⟨rfl, rfl, rfl⟩,
      by simp⟩
  obtain ⟨⟨total, numbers, covers⟩, -, -, packed, sorted⟩ :=
    outputs_at_the_multiples (f := 1 / 2) (by norm_num) (3 / 20) 0.01 (by simp [pictures]) sized
  have nine : total = 9 := by
    have reached := (covers 8).mpr (by norm_num [pictures])
    have passed := (covers 9).not.mpr (by norm_num [pictures])
    omega
  rw [nine] at numbers
  exact ⟨numbers, packed, sorted (by decide)⟩

end Interpolation

end FrameRelay.Kernel
