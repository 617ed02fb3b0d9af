import FrameRelay.Proofs.Accounting
import FrameRelay.Proofs.Schedule

/-! The number of frames of a slow motion. The spacing of the outputs is one over the factor,
rounded to single precision. Where that is exact, a clip comes out with as many frames as the factor
says. Everywhere else it is above, and the frame at the last input is lost. -/

namespace FrameRelay
open Number
open Simulated (Processor)

namespace Kernel

/-- The spacing of the outputs as the kernel gets it. -/
def spacing (slowmo : ℕ) : Float := widen (narrow (1.0 / Float.ofNat slowmo))

/-- Whether these are the parts of one over a factor, exact for a power of two and otherwise above
by one to seven parts in `2 ^ 27`. -/
def spaces (slowmo : ℕ) : Parts → Bool
  | .finite false mantissa exponent =>
    let product := slowmo * mantissa
    let one := 2 ^ (-exponent).toNat
    decide (2 ^ 52 ≤ mantissa ∧ mantissa < 2 ^ 53 ∧ -1074 ≤ exponent ∧ exponent ≤ 0 ∧
      mantissa ≤ one ∧ if 16 % slowmo = 0 then product = one
      else (2 ^ 27 + 1) * one ≤ 2 ^ 27 * product ∧ 2 ^ 27 * product ≤ (2 ^ 27 + 7) * one)
  | _ => false

theorem spaces_spacing : ∀ slowmo ∈ List.range' 1 16,
    spaces slowmo (Parts.ofDouble (spacing slowmo)) = true := by
  decide +kernel

theorem spacing_holds {slowmo : ℕ} (low : 1 ≤ slowmo) (high : slowmo ≤ 16) :
    ∃ f, Holds (spacing slowmo) f ∧ 0 < f ∧ f ≤ 1 ∧ (slowmo ∣ 16 → slowmo * f = 1) ∧
      (¬ slowmo ∣ 16 → 1 + 1 / 2 ^ 27 ≤ slowmo * f ∧ slowmo * f ≤ 1 + 7 / 2 ^ 27) := by
  have table := spaces_spacing slowmo (List.mem_range'_1.mpr (by omega))
  cases parts : Parts.ofDouble (spacing slowmo) with
  | notANumber => simp [parts, spaces] at table
  | infinite negative => simp [parts, spaces] at table
  | finite negative mantissa exponent =>
    rw [parts] at table
    cases negative with
    | true => simp [spaces] at table
    | false =>
      obtain ⟨full, short, deep, below, small, exact_or_near⟩ := of_decide_eq_true table
      have holds := Holds.of_parts parts ⟨short, deep, .inl full⟩ (by omega)
      generalize power : (-exponent).toNat = shift at small exact_or_near
      obtain rfl : exponent = -(shift : ℤ) := by omega
      have one_pos : (0 : ℚ) < 2 ^ shift := by positivity
      have some : (0 : ℚ) < mantissa := by
        exact_mod_cast (show 0 < mantissa by omega)
      rw [zpow_neg, zpow_natCast, ← div_eq_mul_inv] at holds
      have product : (slowmo : ℚ) * (mantissa / 2 ^ shift) =
          (slowmo * mantissa : ℕ) / 2 ^ shift := by
        push_cast
        ring
      refine ⟨_, holds, by positivity, ?_, fun divides => ?_, fun other => ?_⟩
      · rw [div_le_one one_pos]
        exact_mod_cast small
      · rw [if_pos (Nat.mod_eq_zero_of_dvd divides)] at exact_or_near
        rw [product, exact_or_near, Nat.cast_pow, Nat.cast_ofNat]
        exact div_self one_pos.ne'
      · rw [if_neg fun divides => other (Nat.dvd_of_mod_eq_zero divides)] at exact_or_near
        obtain ⟨above, near⟩ := exact_or_near
        have above : ((2 ^ 27 + 1) * 2 ^ shift : ℚ) ≤ 2 ^ 27 * (slowmo * mantissa : ℕ) := by
          exact_mod_cast above
        have near : (2 ^ 27 * (slowmo * mantissa : ℕ) : ℚ) ≤ (2 ^ 27 + 7) * 2 ^ shift := by
          exact_mod_cast near
        rw [product, le_div_iff₀ one_pos, div_le_iff₀ one_pos]
        constructor <;> linarith

section count
variable {slowmo last : ℕ} {step : Float} {f : ℚ}

theorem beyond_exact (factor : Holds step f) (small : f ≤ 1) (divides : slowmo ∣ 16)
    (exact_f : slowmo * f = 1) (count : slowmo * last + 1 < 2 ^ 53) {place : ℚ}
    (holds : Holds (Float.ofNat (slowmo * last + 1) * step) place) :
    (last : ℚ) + 1 / 2 ^ 28 < place := by
  obtain ⟨j, short, rfl⟩ := (Nat.dvd_prime_pow Nat.prime_two (m := 4)).mp divides
  have power : (0 : ℚ) < 2 ^ j := by positivity
  have f_eq : f = (2 ^ j)⁻¹ := by
    push_cast at exact_f
    exact eq_inv_of_mul_eq_one_right exact_f
  have fine : Fine ((2 ^ j * last + 1 : ℕ) * f) := by
    refine ⟨2 ^ j * last + 1, -j, count, by omega, ?_⟩
    rw [f_eq, zpow_neg, zpow_natCast]
  have sixteenth : (1 / 2 ^ 4 : ℚ) ≤ f := by
    rw [f_eq, one_div]
    gcongr
    · exact one_le_two
  have above := le_multiple factor small count.le holds fine le_rfl
  push_cast at above exact_f
  have parts : ((2 : ℚ) ^ j * last + 1) * f = last + f := by
    calc ((2 : ℚ) ^ j * last + 1) * f = last * (2 ^ j * f) + f := by ring
      _ = last + f := by rw [exact_f, mul_one]
  rw [parts] at above
  norm_num at sixteenth above ⊢
  linarith

/-- A spacing that is too large puts it beyond the last input already. -/
theorem beyond_near (factor : Holds step f) (small : f ≤ 1) (above : 1 + 1 / 2 ^ 27 ≤ slowmo * f)
    (near : slowmo * f ≤ 1 + 7 / 2 ^ 27) (some : 0 < last) (count : slowmo * last ≤ 2 ^ 53)
    {place : ℚ} (holds : Holds (Float.ofNat (slowmo * last) * step) place) :
    (last : ℚ) + 1 / 2 ^ 28 < place := by
  obtain ⟨rounded, same, rounds⟩ := multiple_holds factor small count
  rw [holds.unique same]
  have one : (1 : ℚ) ≤ last := by exact_mod_cast some
  have parts : ((slowmo * last : ℕ) : ℚ) * f = last * (slowmo * f) := by
    push_cast
    ring
  rw [parts] at rounds
  have low : (last : ℚ) * (1 + 1 / 2 ^ 27) ≤ last * (slowmo * f) := by gcongr
  have high : (last : ℚ) * (slowmo * f) ≤ last * (1 + 7 / 2 ^ 27) := by gcongr
  have normal : (2 : ℚ) ^ (-1022 : ℤ) ≤ last * (slowmo * f) := by
    have tiny : (2 : ℚ) ^ (-1022 : ℤ) ≤ 2 ^ (0 : ℤ) := zpow_le_zpow_right₀ one_le_two (by norm_num)
    rw [zpow_zero] at tiny
    norm_num at low
    linarith
  have error := (abs_le.mp (rounds.close normal)).1
  norm_num at error low high ⊢
  linarith

theorem beyond_first (factor : Holds step f) (small : f ≤ 1) (high : slowmo ≤ 16)
    (above : 1 ≤ slowmo * f) {place : ℚ} (holds : Holds (Float.ofNat 1 * step) place) :
    (1 : ℚ) / 2 ^ 28 < place := by
  have sixteen : (slowmo : ℚ) ≤ 16 := by exact_mod_cast high
  have same := le_multiple factor small (by norm_num) holds factor.fine (by simp)
  have positive := factor.nonneg
  norm_num
  nlinarith

theorem within_near (above : 1 + 1 / 2 ^ 27 ≤ slowmo * f) (near : slowmo * f ≤ 1 + 7 / 2 ^ 27)
    (high : slowmo ≤ 16) (few : last ≤ 2 ^ 20) {k : ℕ} (before : k < slowmo * last) :
    (k : ℚ) * f ≤ last := by
  have sixteen : (slowmo : ℚ) ≤ 16 := by exact_mod_cast high
  have positive : 0 < f := by
    by_contra negative
    have : (slowmo : ℚ) * f ≤ 0 := mul_nonpos_of_nonneg_of_nonpos (Nat.cast_nonneg _) (by linarith)
    norm_num at above
    linarith
  have few' : (last : ℚ) ≤ 2 ^ 20 := by exact_mod_cast few
  have count : (k : ℚ) + 1 ≤ slowmo * last := by exact_mod_cast before
  have sixteenth : 1 / 16 ≤ f := by
    norm_num at above
    nlinarith
  calc (k : ℚ) * f ≤ (slowmo * last - 1) * f := by gcongr; linarith
    _ = last * (slowmo * f) - f := by ring
    _ ≤ last * (1 + 7 / 2 ^ 27) - 1 / 16 := by gcongr
    _ ≤ last := by norm_num; linarith

theorem exists_bound (last : ℕ) (factor : Holds step f) (small : f ≤ 1) (high : slowmo ≤ 16)
    (exact_f : slowmo ∣ 16 → slowmo * f = 1)
    (near_f : ¬ slowmo ∣ 16 → 1 + 1 / 2 ^ 27 ≤ slowmo * f ∧ slowmo * f ≤ 1 + 7 / 2 ^ 27)
    (count : slowmo * last + 1 < 2 ^ 53) :
    ∃ bound ≤ 2 ^ 53,
      (∀ place, Holds (Float.ofNat bound * step) place → (last : ℚ) + 1 / 2 ^ 28 < place) ∧
      ∀ frames ≤ bound, (∀ enough : ℕ, (∀ k < enough, (k : ℚ) * f ≤ last) → enough ≤ frames) →
        (slowmo ∣ 16 ∨ last = 0 → frames = slowmo * last + 1) ∧
        (¬ slowmo ∣ 16 → 0 < last →
          frames ≤ slowmo * last ∧ (last < 2 ^ 20 → frames = slowmo * last)) := by
  by_cases divides : slowmo ∣ 16
  · have exact_f := exact_f divides
    refine ⟨slowmo * last + 1, count.le,
      fun place => beyond_exact factor small divides exact_f count, fun frames most least => ?_⟩
    have all : slowmo * last + 1 ≤ frames := by
      refine least _ fun k before => ?_
      have k_le : (k : ℚ) ≤ slowmo * last := by exact_mod_cast Nat.le_of_lt_succ before
      calc (k : ℚ) * f ≤ slowmo * last * f := mul_le_mul_of_nonneg_right k_le factor.nonneg
        _ = last * (slowmo * f) := by ring
        _ = last := by rw [exact_f, mul_one]
    exact ⟨fun _ => by omega, fun other => absurd divides other⟩
  · obtain ⟨above, near⟩ := near_f divides
    rcases Nat.eq_zero_or_pos last with rfl | some
    · refine ⟨1, by norm_num, fun place holds => ?_, fun frames most least => ?_⟩
      · have beyond := beyond_first factor small high (le_trans (by norm_num) above) holds
        simpa using beyond
      · have first : 1 ≤ frames := by
          refine least _ fun k before => ?_
          obtain rfl : k = 0 := by omega
          simp
        exact ⟨fun _ => by omega, fun _ impossible => absurd impossible (lt_irrefl 0)⟩
    · refine ⟨slowmo * last, by omega,
        fun place => beyond_near factor small above near some (by omega),
        fun frames most least => ⟨fun either => ?_, fun _ _ => ⟨most, fun few => ?_⟩⟩⟩
      · rcases either with divides' | none
        · exact absurd divides' divides
        · omega
      · have all := least _ fun k => within_near above near high few.le
        omega

end count

end Kernel

theorem Retiming.of_compute {slowmo : Float} {target rate : Ratio} {spacing : Retiming}
    (unspecified : target.isSpecified = false)
    (computed : Retiming.compute slowmo target rate = .ok spacing) :
    spacing.fpsFactor = 1.0 / slowmo := by
  obtain ⟨-, frameRate, found⟩ := factor_of_compute computed
  simp only [factor?, unspecified, Bool.false_eq_true, if_false, Except.ok.injEq,
    Prod.mk.injEq] at found
  exact found.1.symm

theorem Host.Begins.schedule {σ : Type} {book : List Frame → σ → Prop} {link outLink : Link}
    {settings : StreamSettings} {spec : ProcessorSpec} {kernel : Kernel}
    {h h' : Host Simulated Processor σ} {o : InterpolationOptions}
    (begins : h.Begins link outLink book settings spec kernel h')
    (options : h.stage.options = .interpolation o) (unspecified : o.fps.isSpecified = false) :
    ∃ threshold duplicateLimit, kernel =
      .interpolation (.start (widen (narrow (1.0 / o.slowmo))) threshold duplicateLimit) := by
  obtain ⟨model, rfl⟩ := begins.granted
  have asked := begins.asked
  have built := begins.built
  rw [options, StageOptions.settings?] at asked
  cases computed : Retiming.compute o.slowmo o.fps link.frameRate with
  | error cause => simp [computed, Except.map] at asked
  | ok spacing =>
    simp only [computed, Except.map, Except.ok.injEq] at asked
    subst asked
    have factor := Retiming.of_compute unspecified computed
    simp only [Kernel.build, StreamSettings.specFor, InterpolationOptions.settings,
      StageParameters.values, Kernel.buildInterpolation] at built
    split at built
    · cases built
      exact ⟨_, _, by rw [factor]⟩
    · cases built

theorem Link.length_relay {link : Link} {outputs : List Output}
    (late : ∀ output ∈ outputs, 0 ≤ output.pts) (aspect : Ratio) :
    (link.relay aspect outputs).length = outputs.length := by
  have same : ((link.relay aspect outputs).map Frame.pts).length =
      (outputs.map Output.pts).length := congrArg List.length (Link.pts_relay late aspect)
  rwa [List.length_map, List.length_map] at same

/-- The pts of the frames of a clip. -/
def Clip.ptsAt (index : ℕ) : ℤ := index * Clip.ticks

theorem Clip.monotone_ptsAt : Monotone Clip.ptsAt := by
  intro first second order
  simp only [ptsAt, ticks]
  omega

section host
variable {σ : Type} {c : Channel σ} {shut : List Frame → σ → Prop} {step : Float} {f : ℚ}
  {bound index : ℕ} {h : Host Simulated Processor σ} {clip : Clip}

/-- The host in the middle of a clip: the outputs of the schedule so far went out. -/
structure Host.Retimes (c : Channel σ) (step : Float) (bound index : ℕ)
    (h : Host Simulated Processor σ) : Prop where
  stream : ∃ state, ∃ frames : List Frame, h.Streams c true (.interpolation state) index frames ∧
    (Kernel.interpolation state).Makes c.width c.height c.link.width c.link.height ∧
    state.Follows step Clip.ptsAt bound index ∧ frames.length = state.next
  framesIn : h.framesIn = index
  failures : h.submissionFailures = 0

namespace Host

theorem Retimes.state (retimes : h.Retimes c step bound index) : h.state = .streaming := by
  obtain ⟨_, _, streams, -⟩ := retimes.stream
  exact streams.state

variable [Sink σ] (factor : Holds step f) (positive : 0 < f) (small : f ≤ 1) {last : ℕ}
  (within : bound ≤ 2 ^ 53)
  (closed : ∀ place, Holds (Float.ofNat bound * step) place → (last : ℚ) + 1 / 2 ^ 28 < place)
  (keeps : Sink.Keeps c.book shut) (fillable : c.link.Fillable)
include factor positive small within closed keeps fillable

theorem Retimes.takes (retimes : h.Retimes c step bound index) (before : index ≤ last)
    (missed : c.hits (index + 1) = false) (width : c.width = clip.width)
    (height : c.height = clip.height) (rows : 0 < clip.height) (pool : Pool) :
    ∃ h', (h.withPool pool).takeFrame (clip.frame index) = (.ok .more, h') ∧
      h'.Retimes c step bound (index + 1) := by
  obtain ⟨state, frames, streams, makes, follows, sent⟩ := retimes.stream
  obtain ⟨picture, made, packed, pts⟩ := Clip.pictureOf_frame rows index
  have taken := Channel.examine_of_miss missed width height (.interpolation state) index
  rw [made] at taken
  rw [← width, ← height] at packed
  obtain ⟨follows', next, late⟩ := follows.push factor positive small Clip.monotone_ptsAt le_rfl
    within closed before pts
  obtain ⟨kernel', outputs, pushed, makes', each⟩ := makes.push? packed
  have pushes : (Kernel.interpolation state).push? picture =
      some (.interpolation (state.push picture).1, (state.push picture).2) := rfl
  obtain ⟨rfl, rfl⟩ := Prod.mk.inj (Option.some.inj (pushed.symm.trans pushes))
  obtain ⟨h', answer, streams', framesIn, failures⟩ :=
    (streams.withPool pool).takes keeps fillable taken pushed each
  refine ⟨h', answer, ⟨_, _, streams', makes', follows', ?_⟩,
    framesIn.trans (congrArg (· + 1) retimes.framesIn), failures.trans retimes.failures⟩
  rw [List.length_append, Link.length_relay late, sent, next]

theorem Retimes.finishes (retimes : h.Retimes c step bound (last + 1)) (pool : Pool) :
    ∃ h', ∃ frames : List Frame, (h.withPool pool).finish = (.ok .ended, h') ∧
      h'.Shuts shut c.earlier frames ∧ frames.length ≤ bound ∧
      (∀ enough : ℕ, (∀ k < enough, (k : ℚ) * f ≤ last) → enough ≤ frames.length) ∧
      h'.framesIn = last + 1 ∧ h'.submissionFailures = 0 := by
  obtain ⟨state, frames, streams, makes, follows, sent⟩ := retimes.stream
  obtain ⟨most, least, late⟩ := follows.finish factor positive small Clip.monotone_ptsAt le_rfl
    within closed
  obtain ⟨kernel', outputs, finished, each⟩ := makes.finish?
  have finishes : (Kernel.interpolation state).finish? =
      some (.interpolation state.finish.1, state.finish.2, []) := rfl
  obtain ⟨rfl, same⟩ := Prod.mk.inj (Option.some.inj (finished.symm.trans finishes))
  obtain rfl : outputs = state.finish.2 := congrArg Prod.fst same
  obtain ⟨h', aspect, answer, shuts, framesIn, failures⟩ :=
    (streams.withPool pool).finishes keeps fillable finished each
  have length : (frames ++ c.link.relay aspect state.finish.2).length =
      state.next + state.finish.2.length := by
    rw [List.length_append, Link.length_relay late, sent]
  refine ⟨h', _, answer, shuts, ?_, ?_, framesIn.trans retimes.framesIn,
    failures.trans retimes.failures⟩
  · rwa [length]
  · rwa [length]

theorem Retimes.runs (policy : FailurePolicy) (start : h.Retimes c step bound 0)
    (total : clip.total = last + 1) (spared : c.rejectEvery = none) (width : c.width = clip.width)
    (height : c.height = clip.height) (rows : 0 < clip.height) (fresh : clip.index = 0) :
    ∃ h', h.run policy clip =
        (.ok (.ofHost (clip.total + 1) h'.stats), h', clip.after clip.total) ∧
      ∃ frames : List Frame, h'.Shuts shut c.earlier frames ∧ frames.length ≤ bound ∧
        (∀ enough : ℕ, (∀ k < enough, (k : ℚ) * f ≤ last) → enough ≤ frames.length) ∧
        h'.framesIn = last + 1 ∧ h'.submissionFailures = 0 := by
  have step' (index : Nat) (h : Host Simulated Processor σ) (more : index < clip.total)
      (retimes : h.Retimes c step bound index) : ∃ answer h',
        h.request (clip.after index) = (answer, h', clip.after (index + 1)) ∧
          Passes policy answer ∧ h'.Retimes c step bound (index + 1) := by
    have missed : c.hits (index + 1) = false := by rw [Channel.hits, spared]
    obtain ⟨h', answer, retimes'⟩ := retimes.takes factor positive small within closed keeps
      fillable (by omega) missed width height rows ⟨h.out.pool.live + 1⟩
    rw [request_clip retimes.state more, answer]
    exact ⟨_, h', rfl, .inl rfl, retimes'⟩
  refine run_advances fresh step' (fun h retimes => ?_) start
  have state := retimes.state
  rw [total] at retimes
  obtain ⟨h', frames, answer, ends⟩ :=
    retimes.finishes factor positive small within closed keeps fillable h.out.pool
  rw [request_clip_end state, answer]
  exact ⟨h', rfl, frames, ends⟩

end Host

end host

section run
variable {o : InterpolationOptions} {gpus : ℕ} {policy : DrainPolicy} {dumpTo : Option String}
  {limit : ℕ} {folder : Folder} {stage : Stage Simulated Processor Tally}
  {h : Host Simulated Processor Tally} {clip : Clip} {outLink : Link}
  (unspecified : o.fps.isSpecified = false) (patient : 1 ≤ policy.maxStalledPolls)
  (started : Stage.start (.interpolation o) (.start gpus none) policy
    (Tally.start dumpTo limit folder) .empty = .ok stage)
  (fresh : clip.index = 0) (rows : 0 < clip.height)
  (configured : (Host.start stage).configure clip.link = (.ok outLink, h))
  (onFailure : FailurePolicy)
include unspecified patient started fresh rows configured

/-- A clip is interpolated to its end. The frames that go out are at most as many as the number of
an output that lies beyond the last input, and at least as many as lie up to it exactly. -/
theorem run_interpolates {f : ℚ} {bound last : ℕ}
    (factor : Holds (widen (narrow (1.0 / o.slowmo))) f) (positive : 0 < f) (small : f ≤ 1)
    (within : bound ≤ 2 ^ 53) (closed : ∀ place,
      Holds (Float.ofNat bound * widen (narrow (1.0 / o.slowmo))) place →
        (last : ℚ) + 1 / 2 ^ 28 < place)
    (total : clip.total = last + 1) :
    ∃ polls frames h', h.run onFailure clip =
        (.ok ⟨clip.total + 1, clip.total, frames, 0, true, polls⟩, h', clip.after clip.total) ∧
      h'.out.sink.stats.frames = frames ∧ h'.out.sink.stats.ends = 1 ∧ frames ≤ bound ∧
      ∀ enough : ℕ, (∀ k < enough, (k : ℚ) * f ≤ last) → enough ≤ frames := by
  obtain rfl := Stage.eq_idle_of_start started
  obtain ⟨settings, spec, kernel, begins⟩ := Host.begins_of_configure configured patient
    (Tally.counted_start dumpTo limit folder)
  obtain ⟨threshold, duplicateLimit, rfl⟩ := begins.schedule rfl unspecified
  have start : h.Retimes _ _ bound 0 :=
    ⟨⟨_, [], begins.streams, begins.makes rfl,
      Kernel.Interpolation.follows_start _ threshold duplicateLimit _ bound, rfl⟩,
      begins.framesIn, begins.submissionFailures⟩
  obtain ⟨h', ran, frames, shuts, most, least, framesIn, failures⟩ :=
    start.runs factor positive small within closed (Tally.keeps 0) (.inl (begins.rows rows))
      onFailure total rfl rfl rfl rows fresh
  have pushed : h'.out.pushed = frames.length := shuts.pushed.trans (Nat.zero_add _)
  refine ⟨h'.stats.drainPolls, frames.length, h', ?_, shuts.shut.number, shuts.shut.ended, most,
    least⟩
  rw [ran, RunStats.ofHost]
  simp only [Host.stats, framesIn, failures, pushed, shuts.endSent, total]

/-- The number of frames of a slow motion. An interpolation by a whole factor, without a target
rate, is started with valid options on the simulated engine and configured for a clip with rows and
at least one frame. Its run ends the stream. With a factor that divides sixteen, or with one frame
alone, there are as many frames as the factor says: one for each part of the way from each input to
the next, and one for the last input. With any other factor the last one is missing; with more than
`2 ^ 20` inputs still more may be. -/
theorem slow_motion_frames {slowmo : ℕ} (low : 1 ≤ slowmo) (high : slowmo ≤ 16)
    (asked : o.slowmo = Float.ofNat slowmo) (some : 1 ≤ clip.total)
    (countable : slowmo * (clip.total - 1) + 1 < 2 ^ 53) :
    let last := clip.total - 1
    ∃ polls frames h', h.run onFailure clip =
        (.ok ⟨clip.total + 1, clip.total, frames, 0, true, polls⟩, h', clip.after clip.total) ∧
      h'.out.sink.stats.frames = frames ∧ h'.out.sink.stats.ends = 1 ∧
      (slowmo ∣ 16 ∨ last = 0 → frames = slowmo * last + 1) ∧
      (¬ slowmo ∣ 16 → 0 < last →
        frames ≤ slowmo * last ∧ (last < 2 ^ 20 → frames = slowmo * last)) := by
  intro last
  obtain ⟨f, factor, positive, small, exact_f, near_f⟩ := Kernel.spacing_holds low high
  obtain ⟨bound, within, closed, counts⟩ :=
    Kernel.exists_bound last factor small high exact_f near_f countable
  rw [Kernel.spacing, ← asked] at factor closed
  obtain ⟨polls, frames, h', ran, tally, ends, most, least⟩ :=
    run_interpolates unspecified patient started fresh rows configured onFailure factor positive
      small within closed (by omega)
  exact ⟨polls, frames, h', ran, tally, ends, counts frames most least⟩

end run

/-- Three frames at double the number. -/
theorem slow_motion_frames_double :
    let o : InterpolationOptions := { slowmo := Float.ofNat 2 }
    let clip : Clip := ⟨4, 2, .rgb48, ⟨30, 1⟩, 3, 0⟩
    ∃ (stage : Stage Simulated Processor Tally) (outLink : Link)
      (h : Host Simulated Processor Tally),
      Stage.start (.interpolation o) (.start 1 none) .postflight (.start none 0 .empty) .empty =
        .ok stage ∧
      (Host.start stage).configure clip.link = (.ok outLink, h) ∧
      (h.run .abort clip).2.1.out.sink.stats.frames = 5 := by
  intro o clip
  let stage : Stage Simulated Processor Tally :=
    .idle (.interpolation o) (.start 1 none) .postflight (.start none 0 .empty) .empty
  have valid : (StageOptions.interpolation o).validate.toOption.isSome = true := by decide +kernel
  have opens : ((Host.start stage).configure clip.link).1.toOption.isSome = true := by
    decide +kernel
  have started : Stage.start (.interpolation o) (.start 1 none) .postflight
      (.start none 0 .empty) .empty = .ok stage := Stage.start_of_validate _ _ _ _ valid
  obtain ⟨outLink, h, configured⟩ := Host.configured_of_isSome opens
  obtain ⟨polls, frames, h', ran, tally, -, all, -⟩ :=
    slow_motion_frames rfl (by decide) started rfl (by decide) configured .abort (by decide)
      (by decide) rfl (by decide) (by decide)
  refine ⟨stage, outLink, h, started, configured, ?_⟩
  rw [ran, tally]
  exact all (.inl (by decide))

/-- Two frames at three times the number: the fourth frame does not come. -/
theorem slow_motion_by_three_falls_short :
    let o : InterpolationOptions := { slowmo := Float.ofNat 3 }
    let clip : Clip := ⟨4, 2, .rgb48, ⟨30, 1⟩, 2, 0⟩
    ∃ (stage : Stage Simulated Processor Tally) (outLink : Link)
      (h : Host Simulated Processor Tally),
      Stage.start (.interpolation o) (.start 1 none) .postflight (.start none 0 .empty) .empty =
        .ok stage ∧
      (Host.start stage).configure clip.link = (.ok outLink, h) ∧
      let frames := (h.run .abort clip).2.1.out.sink.stats.frames
      frames = 3 ∧ frames ≠ 3 * (clip.total - 1) + 1 := by
  intro o clip
  let stage : Stage Simulated Processor Tally :=
    .idle (.interpolation o) (.start 1 none) .postflight (.start none 0 .empty) .empty
  have valid : (StageOptions.interpolation o).validate.toOption.isSome = true := by decide +kernel
  have opens : ((Host.start stage).configure clip.link).1.toOption.isSome = true := by
    decide +kernel
  have started : Stage.start (.interpolation o) (.start 1 none) .postflight
      (.start none 0 .empty) .empty = .ok stage := Stage.start_of_validate _ _ _ _ valid
  obtain ⟨outLink, h, configured⟩ := Host.configured_of_isSome opens
  obtain ⟨f, factor, positive, small, exact_f, near_f⟩ :=
    Kernel.spacing_holds (show 1 ≤ 3 by decide) (by decide)
  obtain ⟨bound, within, closed, counts⟩ :=
    Kernel.exists_bound 1 factor small (by decide) exact_f near_f (by decide)
  obtain ⟨polls, frames, h', ran, tally, -, most, least⟩ :=
    run_interpolates rfl (by decide) started rfl (by decide) configured .abort factor positive
      small within closed rfl
  have three := ((counts frames most least).2 (by decide) (by decide)).2 (by decide)
  refine ⟨stage, outLink, h, started, configured, ?_⟩
  rw [ran, tally, three]
  decide

end FrameRelay
