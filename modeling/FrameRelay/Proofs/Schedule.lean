import FrameRelay.Proofs.Doubles
import FrameRelay.Proofs.Packing

/-! The schedule of an interpolation on doubles. The outputs that go out are those whose rounded
positions lie before a limit, in their order, and none is left behind that lies there. -/

namespace FrameRelay.Kernel
open Number

theorem takeWhile_range' (test : Nat → Bool) (start count : Nat) :
    ∃ stop, start ≤ stop ∧ stop ≤ start + count ∧
      (List.range' start count).takeWhile test = List.range' start (stop - start) ∧
      (∀ k, start ≤ k → k < stop → test k = true) ∧
      (stop < start + count → test stop = false) := by
  induction count generalizing start with
  | zero => exact ⟨start, le_rfl, le_rfl, by simp, by omega, by omega⟩
  | succ count ih =>
    rw [List.range'_succ]
    cases here : test start with
    | false => exact ⟨start, le_rfl, by omega, by simp [here], by omega, fun _ => here⟩
    | true =>
      obtain ⟨stop, after, within, taken, passes, fails⟩ := ih (start + 1)
      refine ⟨stop, by omega, by omega, ?_, fun k low high => ?_, fun more => fails (by omega)⟩
      · have longer : stop - start = stop - (start + 1) + 1 := by omega
        rw [List.takeWhile_cons_of_pos here, taken, longer, List.range'_succ]
      · rcases Nat.eq_or_lt_of_le low with rfl | later
        · exact here
        · exact passes k later high

namespace Timeline

theorem lt_reach {step limit : Float} {stepValue limitValue : ℚ} (holds : Holds step stepValue)
    (positive : 0 < stepValue) (holds' : Holds limit limitValue) :
    limitValue < reach step limit * stepValue := by
  obtain ⟨stepMantissa, stepExponent, stepParts, rfl⟩ := holds.parts
  obtain ⟨mantissa, exponent, parts, rfl⟩ := holds'.parts
  have some : 0 < stepMantissa := by
    refine Nat.pos_of_ne_zero fun none => ?_
    rw [none] at positive
    simp at positive
  set above := mantissa * twoTo exponent.toNat * twoTo (-stepExponent).toNat with above_def
  set below := stepMantissa * twoTo stepExponent.toNat * twoTo (-exponent).toNat with below_def
  have reach_eq : reach step limit = above / below + 2 := by
    show reachDouble step limit = _
    simp only [reachDouble, stepParts, parts, if_neg some.ne']
    rfl
  have below_pos : 0 < below :=
    Nat.mul_pos (Nat.mul_pos some (Nat.two_pow_pos _)) (Nat.two_pow_pos _)
  have under : above < below * (above / below + 1) := Nat.lt_mul_div_succ above below_pos
  -- both numbers over the one power of two that clears their denominators
  have clear (e : ℤ) : (2 : ℚ) ^ e * 2 ^ (-e).toNat = 2 ^ e.toNat := by
    rw [← zpow_natCast, ← zpow_natCast, ← zpow_add₀ two_ne_zero]
    congr 1
    omega
  have scale : (0 : ℚ) < 2 ^ (-stepExponent).toNat * 2 ^ (-exponent).toNat := by positivity
  have limit_eq : (mantissa : ℚ) * 2 ^ exponent *
      (2 ^ (-stepExponent).toNat * 2 ^ (-exponent).toNat) = above := by
    rw [above_def, twoTo, twoTo]
    push_cast [Nat.pow_eq]
    rw [← clear exponent]
    ring
  have step_eq : (stepMantissa : ℚ) * 2 ^ stepExponent *
      (2 ^ (-stepExponent).toNat * 2 ^ (-exponent).toNat) = below := by
    rw [below_def, twoTo, twoTo]
    push_cast [Nat.pow_eq]
    rw [← clear stepExponent]
    ring
  refine lt_of_mul_lt_mul_right ?_ scale.le
  calc (mantissa : ℚ) * 2 ^ exponent * (2 ^ (-stepExponent).toNat * 2 ^ (-exponent).toNat)
      = above := limit_eq
    _ < below * (above / below + 1 : ℕ) := by exact_mod_cast under
    _ ≤ below * (above / below + 2 : ℕ) := by gcongr; omega
    _ = _ := by rw [reach_eq, ← step_eq]; ring

/-- The slack behind the last input widens the limit by less than any distance of two schedules. -/
theorem slack_limit {last : ℕ} (count : last ≤ 2 ^ 53) :
    ∃ limit, Holds (Float.ofNat last + (slack : Float)) limit ∧ (last : ℚ) ≤ limit ∧
      limit ≤ last + 1 / 2 ^ 28 := by
  have slackParts : Parts.ofDouble (slack : Float) = .finite false 4835703278458517 (-82) := by
    decide +kernel
  have slackHolds := Holds.of_parts slackParts ⟨by norm_num, by norm_num, .inl (by norm_num)⟩
    (by norm_num)
  have whole : (last : ℚ) ≤ 2 ^ 53 := by exact_mod_cast count
  obtain ⟨limit, holds, rounds⟩ := (ofNat_exact count).add slackHolds (by norm_num; linarith)
  refine ⟨limit, holds, rounds.ge_of_ge (fine_natCast count) (by norm_num), ?_⟩
  have near := (abs_le.mp (rounds.nearest last (fine_natCast count))).2
  rw [abs_of_nonpos (by norm_num)] at near
  norm_num at near ⊢
  linarith

end Timeline

theorem upright_ofInt {i : ℤ} (positive : 0 ≤ i) : Upright (Float.ofInt i) := by
  obtain ⟨n, rfl⟩ := Int.eq_ofNat_of_zero_le positive
  exact Upright.ofNat n

theorem multiple_holds {step : Float} {f : ℚ} (factor : Holds step f) (small : f ≤ 1) {k : ℕ}
    (count : k ≤ 2 ^ 53) :
    ∃ place, Holds (Float.ofNat k * step) place ∧ Rounds (k * f) place := by
  have whole : (k : ℚ) ≤ 2 ^ 53 := by exact_mod_cast count
  have bounded : (k : ℚ) * f ≤ 2 ^ 100 := by
    have positive : (0 : ℚ) ≤ k := Nat.cast_nonneg k
    nlinarith
  exact (ofNat_exact count).mul factor bounded

section multiple
variable {step : Float} {f place place' other : ℚ} {k k' : ℕ}

theorem le_multiple (factor : Holds step f) (small : f ≤ 1) (count : k ≤ 2 ^ 53)
    (holds : Holds (Float.ofNat k * step) place) (fine : Fine other) (below : other ≤ k * f) :
    other ≤ place := by
  obtain ⟨rounded, same, rounds⟩ := multiple_holds factor small count
  rw [holds.unique same]
  exact rounds.ge_of_ge fine below

theorem multiple_le (factor : Holds step f) (small : f ≤ 1) (count : k ≤ 2 ^ 53)
    (holds : Holds (Float.ofNat k * step) place) (fine : Fine other) (above : k * f ≤ other) :
    place ≤ other := by
  obtain ⟨rounded, same, rounds⟩ := multiple_holds factor small count
  rw [holds.unique same]
  exact rounds.le_of_le fine above

theorem multiple_mono (factor : Holds step f) (positive : 0 < f) (small : f ≤ 1) (order : k ≤ k')
    (count : k' ≤ 2 ^ 53) (holds : Holds (Float.ofNat k * step) place)
    (holds' : Holds (Float.ofNat k' * step) place') : place ≤ place' := by
  rcases Nat.eq_or_lt_of_le order with rfl | before
  · exact (holds.unique holds').le
  · obtain ⟨rounded, same, rounds⟩ := multiple_holds factor small (order.trans count)
    obtain ⟨rounded', same', rounds'⟩ := multiple_holds factor small count
    rw [holds.unique same, holds'.unique same']
    exact rounds.mono rounds' (by gcongr)

end multiple

namespace Interpolation
variable {state : Interpolation Float} {step : Float} {f : ℚ} {pts : ℕ → ℤ} {bound count : ℕ}

/-- The last distinct picture is one of those taken, and no output before it is still due. -/
structure Anchors (step : Float) (pts : ℕ → ℤ) (count : ℕ) (state : Interpolation Float)
    (index : ℕ) (anchor : Picture) : Prop where
  before : index < count
  anchor_eq : state.anchor = some (Float.ofNat index, anchor)
  pts_eq : anchor.pts = pts index
  newest_eq : state.newest = some (Float.ofNat (count - 1), pts (count - 1))
  late : ∀ k place, state.next ≤ k → k ≤ 2 ^ 53 → Holds (Float.ofNat k * step) place →
    (index : ℚ) ≤ place

/-- The schedule after so many pictures with these pts. -/
structure Follows (step : Float) (pts : ℕ → ℤ) (bound count : ℕ) (state : Interpolation Float) :
    Prop where
  step_eq : state.fpsFactor = step
  inputs : state.inputs = count
  bounded : state.next ≤ bound
  ptsStep : Upright state.ptsStep
  anchors : if count = 0 then state.anchor = none
    else ∃ index anchor, state.Anchors step pts count index anchor

theorem follows_start (step threshold duplicateLimit : Float) (pts : ℕ → ℤ) (bound : ℕ) :
    (Interpolation.start step threshold duplicateLimit).Follows step pts bound 0 :=
  ⟨rfl, rfl, Nat.zero_le _, Upright.ofNat 1, rfl⟩

theorem due_eq (state : Interpolation Float) (limit : Float) (meets : Float → Bool)
    {bound : ℕ} (bounded : state.next ≤ bound) (closed : meets (state.position bound) = false) :
    ∃ stop, state.next ≤ stop ∧ stop ≤ bound ∧
      state.due limit meets = List.range' state.next (stop - state.next) ∧
      (stop ≤ Timeline.reach state.fpsFactor limit → meets (state.position stop) = false) := by
  obtain ⟨stop, after, within, taken, passes, fails⟩ :=
    takeWhile_range' (fun k => meets (state.position k)) state.next
      (Timeline.reach state.fpsFactor limit + 1 - state.next)
  refine ⟨stop, after, ?_, taken, fun short => fails (by omega)⟩
  by_contra beyond
  have passed := passes bound bounded (by omega)
  rw [closed] at passed
  cases passed

variable {picture anchor : Picture} {index k : ℕ} {place : ℚ}

theorem upright_slope {earlier later : ℤ} (counted : count ≤ 2 ^ 53) (before : index ≤ count)
    (order : earlier ≤ later) :
    Upright (Float.ofInt (later - earlier) / (Float.ofNat count - Float.ofNat index)) :=
  (upright_ofInt (sub_nonneg.mpr order)).div
    (Upright.sub (ofNat_exact counted) (ofNat_exact (by omega)) (by exact_mod_cast before))

theorem pts_between (step_eq : state.fpsFactor = step) (counted : count ≤ 2 ^ 53)
    (before : index < count) (holds : Holds (Float.ofNat k * step) place)
    (late : (index : ℚ) ≤ place) (start : 0 ≤ anchor.pts) (order : anchor.pts ≤ picture.pts) :
    0 ≤ (state.between (Float.ofNat index) anchor (Float.ofNat count) picture k).pts := by
  have first : Upright (Float.ofNat k * step - Float.ofNat index) :=
    Upright.sub holds (ofNat_exact (by omega)) late
  have whole : Upright (Float.ofNat count - Float.ofNat index) :=
    Upright.sub (ofNat_exact counted) (ofNat_exact (by omega)) (by exact_mod_cast before.le)
  have way := upright_ofInt (sub_nonneg.mpr order)
  have shift := (way.mul (first.div whole)).nearestWord_nonneg
  rw [← step_eq] at shift
  exact add_nonneg start shift

theorem pts_trailing (step_eq : state.fpsFactor = step) (counted : index ≤ 2 ^ 53)
    (holds : Holds (Float.ofNat k * step) place) (late : (index : ℚ) ≤ place)
    (start : 0 ≤ anchor.pts) (upright : Upright state.ptsStep) :
    0 ≤ (state.trailing (Float.ofNat index) anchor k).pts := by
  have way : Upright (Float.ofNat k * step - Float.ofNat index) :=
    Upright.sub holds (ofNat_exact counted) late
  have shift := (way.mul upright).nearestWord_nonneg
  rw [← step_eq] at shift
  exact add_nonneg start shift

theorem Anchors.upright_lastStep (anchors : state.Anchors step pts count index anchor)
    (ordered : Monotone pts) (counted : count - 1 ≤ 2 ^ 53) (upright : Upright state.ptsStep) :
    Upright (state.lastStep (Float.ofNat index) anchor) := by
  have before := anchors.before
  simp only [lastStep, anchors.newest_eq]
  split
  · exact upright_slope counted (by omega) (anchors.pts_eq ▸ ordered (by omega))
  · exact upright

section schedule
variable (factor : Holds step f) (positive : 0 < f) (small : f ≤ 1)
include factor positive small

theorem limit_le_of_due (step_eq : state.fpsFactor = step) {stop : ℕ} {limit : Float}
    {limitValue : ℚ} (holds : Holds limit limitValue)
    (fails : stop ≤ Timeline.reach state.fpsFactor limit → ¬ state.position stop < limit)
    (order : stop ≤ k) (count : k ≤ 2 ^ 53) (holds' : Holds (Float.ofNat k * step) place) :
    limitValue ≤ place := by
  obtain ⟨first, same, -⟩ := multiple_holds factor small (order.trans count)
  refine le_trans ?_ (multiple_mono factor positive small order count same holds')
  subst step_eq
  by_cases near : stop ≤ Timeline.reach state.fpsFactor limit
  · exact not_lt.mp fun before => fails near ((same.lt_iff holds).mpr before)
  · have beyond := Timeline.lt_reach factor positive holds
    have further : (Timeline.reach state.fpsFactor limit : ℚ) * f ≤ stop * f := by
      gcongr
      omega
    exact le_multiple factor small (order.trans count) same holds.fine (beyond.le.trans further)

variable (ordered : Monotone pts) (start : 0 ≤ pts 0) {last : ℕ} (within : bound ≤ 2 ^ 53)
  (closed : ∀ place, Holds (Float.ofNat bound * step) place → (last : ℚ) + 1 / 2 ^ 28 < place)
include within closed

omit positive in
theorem last_le : last ≤ 2 ^ 53 := by
  obtain ⟨place, holds, -⟩ := multiple_holds factor small within
  have beyond := closed place holds
  have before : place ≤ bound := by
    refine multiple_le factor small within holds (fine_natCast within) ?_
    have counted : (0 : ℚ) ≤ bound := Nat.cast_nonneg _
    nlinarith
  have less : (last : ℚ) < bound := by linarith
  have less : last < bound := by exact_mod_cast less
  omega

theorem due_before (step_eq : state.fpsFactor = step) (bounded : state.next ≤ bound)
    (counted : count ≤ last) :
    ∃ stop, state.next ≤ stop ∧ stop ≤ bound ∧
      state.due (Float.ofNat count) (fun x => decide (x < Float.ofNat count)) =
        List.range' state.next (stop - state.next) ∧
      ∀ k place, stop ≤ k → k ≤ 2 ^ 53 → Holds (Float.ofNat k * step) place →
        (count : ℚ) ≤ place := by
  have here := ofNat_exact (counted.trans (last_le factor small within closed))
  have shut : decide (state.position bound < Float.ofNat count) = false := by
    obtain ⟨place, holds, -⟩ := multiple_holds factor small within
    have beyond := closed place holds
    have counted' : (count : ℚ) ≤ last := by exact_mod_cast counted
    refine decide_eq_false fun less => ?_
    rw [position, step_eq] at less
    have := (holds.lt_iff here).mp less
    linarith
  obtain ⟨stop, after, low, stretch, fails⟩ :=
    state.due_eq (Float.ofNat count) (fun x => decide (x < Float.ofNat count)) bounded shut
  exact ⟨stop, after, low, stretch, fun k place => limit_le_of_due factor positive small step_eq
    here fun near => of_decide_eq_false (fails near)⟩

theorem due_upTo (step_eq : state.fpsFactor = step) (bounded : state.next ≤ bound) :
    let limit : Float := Float.ofNat last + Timeline.slack
    ∃ stop, state.next ≤ stop ∧ stop ≤ bound ∧
      state.due limit (fun x => decide (x ≤ limit)) =
        List.range' state.next (stop - state.next) ∧
      ∀ enough : ℕ, (∀ k < enough, (k : ℚ) * f ≤ last) → enough ≤ stop := by
  intro limit
  have exact_last : last ≤ 2 ^ 53 := last_le factor small within closed
  obtain ⟨limitValue, limit_holds, after_last, near_last⟩ := Timeline.slack_limit exact_last
  have shut : decide (state.position bound ≤ limit) = false := by
    obtain ⟨place, holds, -⟩ := multiple_holds factor small within
    have beyond := closed place holds
    refine decide_eq_false fun less => ?_
    rw [position, step_eq] at less
    have := (holds.le_iff limit_holds).mp less
    linarith
  obtain ⟨stop, after, low, stretch, fails⟩ :=
    state.due_eq limit (fun x => decide (x ≤ limit)) bounded shut
  refine ⟨stop, after, low, stretch, fun enough lies => ?_⟩
  by_contra short
  have lies_stop := lies stop (by omega)
  obtain ⟨place, holds, -⟩ := multiple_holds factor small (low.trans within)
  have near : stop ≤ Timeline.reach state.fpsFactor limit := by
    have beyond := Timeline.lt_reach (step_eq.symm ▸ factor) positive limit_holds
    have less : (stop : ℚ) * f < Timeline.reach state.fpsFactor limit * f := by linarith
    exact_mod_cast (lt_of_mul_lt_mul_right less positive.le).le
  have before : place ≤ last :=
    multiple_le factor small (low.trans within) holds (fine_natCast exact_last) lies_stop
  refine of_decide_eq_false (fails near) ?_
  rw [position, step_eq]
  exact (holds.le_iff limit_holds).mpr (before.trans after_last)

include ordered start

theorem Follows.push (follows : state.Follows step pts bound count) (counted : count ≤ last)
    (picture_pts : picture.pts = pts count) :
    (state.push picture).1.Follows step pts bound (count + 1) ∧
      (state.push picture).1.next = state.next + (state.push picture).2.length ∧
      ∀ output ∈ (state.push picture).2, 0 ≤ output.pts := by
  obtain ⟨step_eq, inputs, bounded, ptsStep, anchored⟩ := follows
  have exact_count : count ≤ 2 ^ 53 := counted.trans (last_le factor small within closed)
  have here : (Timeline.ofInt state.inputs : Float) = Float.ofNat count := by
    rw [inputs]
    rfl
  have newest : (some (Timeline.ofInt state.inputs, picture.pts) : Option (Float × ℤ)) =
      some (Float.ofNat (count + 1 - 1), pts (count + 1 - 1)) := by
    rw [here, picture_pts, Nat.add_sub_cancel]
  by_cases none_yet : count = 0
  · rw [if_pos none_yet] at anchored
    subst none_yet
    have late : ∀ k place, state.next ≤ k → k ≤ 2 ^ 53 → Holds (Float.ofNat k * step) place →
        ((0 : ℕ) : ℚ) ≤ place := fun k place _ _ holds => by simpa using holds.nonneg
    simp only [Interpolation.push, anchored, here]
    refine ⟨⟨step_eq, congrArg (· + 1) inputs, bounded, ptsStep, ?_⟩, rfl, by simp⟩
    rw [if_neg (by omega)]
    exact ⟨0, picture, by omega, rfl, picture_pts, here ▸ newest, late⟩
  rw [if_neg none_yet] at anchored
  obtain ⟨index, anchor, before, anchor_eq, pts_eq, -, late⟩ := anchored
  simp only [Interpolation.push, anchor_eq]
  split
  · refine ⟨⟨step_eq, congrArg (· + 1) inputs, bounded, ptsStep, ?_⟩, rfl, by simp⟩
    rw [if_neg (by omega)]
    exact ⟨index, anchor, by omega, rfl, pts_eq, newest, late⟩
  have order : anchor.pts ≤ picture.pts := by
    rw [pts_eq, picture_pts]
    exact ordered before.le
  obtain ⟨stop, after, low, stretch, late'⟩ :=
    due_before factor positive small within closed step_eq bounded counted
  have length : (List.range' state.next (stop - state.next)).length = stop - state.next :=
    List.length_range'
  have next : state.next + (stop - state.next) = stop := by omega
  rw [here] at newest
  simp only [here, stretch, length, next, List.length_map]
  refine ⟨⟨step_eq, congrArg (· + 1) inputs, low, upright_slope exact_count before.le order, ?_⟩,
    trivial, ?_⟩
  · rw [if_neg (by omega)]
    exact ⟨count, picture, by omega, rfl, picture_pts, newest, late'⟩
  · simp only [List.forall_mem_map]
    intro k inside
    obtain ⟨low', high⟩ := List.mem_range'_1.mp inside
    obtain ⟨place, holds, -⟩ := multiple_holds factor small (show k ≤ 2 ^ 53 by omega)
    exact pts_between step_eq exact_count before holds (late k place low' (by omega) holds)
      (pts_eq ▸ start.trans (ordered (Nat.zero_le index))) order

/-- The end brings out what is due up to the last picture. All outputs before one that lies beyond
it are at most as many as that one's number, and at least as many as lie up to it exactly. -/
theorem Follows.finish (follows : state.Follows step pts bound (last + 1)) :
    state.next + state.finish.2.length ≤ bound ∧
      (∀ enough : ℕ, (∀ k < enough, (k : ℚ) * f ≤ last) →
        enough ≤ state.next + state.finish.2.length) ∧
      ∀ output ∈ state.finish.2, 0 ≤ output.pts := by
  obtain ⟨step_eq, inputs, bounded, ptsStep, anchored⟩ := follows
  have exact_last : last ≤ 2 ^ 53 := last_le factor small within closed
  rw [if_neg (Nat.succ_ne_zero last)] at anchored
  obtain ⟨index, anchor, anchors⟩ := anchored
  have upright := anchors.upright_lastStep ordered exact_last ptsStep
  obtain ⟨before, anchor_eq, pts_eq, -, late⟩ := anchors
  have here : (Timeline.ofInt ((state.inputs - 1 : ℕ) : ℤ) : Float) = Float.ofNat last := by
    rw [inputs]
    rfl
  let settled : Interpolation Float :=
    { state with anchor := none, ptsStep := state.lastStep (Float.ofNat index) anchor }
  have settled_step : settled.fpsFactor = step := step_eq
  have settled_next : settled.next = state.next := rfl
  obtain ⟨stop, after, low, stretch, least⟩ :=
    due_upTo factor positive small within closed settled_step bounded
  rw [settled_next] at after stretch
  have finish_eq : state.finish.2 = (List.range' state.next (stop - state.next)).map
      (settled.trailing (Float.ofNat index) anchor) := by
    simp only [Interpolation.finish, anchor_eq]
    show (settled.due (Timeline.ofInt ((state.inputs - 1 : ℕ) : ℤ) + Timeline.slack) _).map _ = _
    rw [here]
    exact congrArg _ stretch
  have length : state.next + state.finish.2.length = stop := by
    rw [finish_eq, List.length_map, List.length_range']
    omega
  rw [length]
  refine ⟨low, least, ?_⟩
  rw [finish_eq]
  simp only [List.forall_mem_map]
  intro k inside
  obtain ⟨low', high⟩ := List.mem_range'_1.mp inside
  obtain ⟨place, holds, -⟩ := multiple_holds factor small (show k ≤ 2 ^ 53 by omega)
  exact pts_trailing settled_step (by omega) holds (late k place low' (by omega) holds)
    (pts_eq ▸ start.trans (ordered (Nat.zero_le index))) upright

end schedule

end Interpolation

end FrameRelay.Kernel
