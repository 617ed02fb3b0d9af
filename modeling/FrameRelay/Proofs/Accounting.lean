import FrameRelay.Proofs.PoolBalance
import FrameRelay.Proofs.Windows
import FrameRelay.Store.Tally

/-! The counts of a whole run. What the host counts, what the sink counts and what the pool still
counts in the end follow from the length of the clip and the period of the injected failures. -/

namespace FrameRelay
open Simulated (Processor)

theorem Frame.packed?_of_tight {frame : Frame} (tight : frame.Tight) :
    ∃ samples, frame.packed? = some samples := by
  have enough : 0 + frame.rowSize * frame.height ≤ frame.samples.size := by
    rw [tight.size_eq, Nat.zero_add]
    exact Nat.le_refl _
  have line : frame.lineSize = frame.rowSize := tight.lineSize_eq
  rw [packed?, packed, if_pos line, slice, slice?, if_pos enough]
  exact ⟨_, rfl⟩

namespace Tally
variable {ends : Nat} {frames : List Frame} {frame : Frame} {tally : Tally}

/-- The sink has counted these frames and so many ends of a stream. Frames in the order of their pts
leave nothing out of order. -/
structure Counted (ends : Nat) (frames : List Frame) (tally : Tally) : Prop where
  number : tally.stats.frames = frames.length
  ended : tally.stats.ends = ends
  last : tally.stats.lastPts = (frames.map Frame.pts).getLast?
  ordered : (frames.map Frame.pts).Pairwise (· ≤ ·) → tally.stats.outOfOrder = 0

theorem counted_start (dumpTo : Option String) (limit : Nat) (folder : Folder) :
    (start dumpTo limit folder).Counted 0 [] := ⟨rfl, rfl, rfl, fun _ => rfl⟩

theorem accept?_of_tight (tight : frame.Tight) (tally : Tally) :
    ∃ tally' dumped, tally.accept? frame = some tally' ∧
      tally'.stats = { count frame tally.stats with dumped } := by
  obtain ⟨samples, packed⟩ := Frame.packed?_of_tight tight
  cases directory : tally.dumpTo with
  | none =>
    simp only [accept?, directory]
    exact ⟨_, _, rfl, rfl⟩
  | some name =>
    have dumps : ∃ result, dump? frame name tally.folder = some result := by
      unfold dump?
      split
      · exact ⟨_, rfl⟩
      · rw [packed, Option.map_some]
        exact ⟨_, rfl⟩
    obtain ⟨⟨written, folder⟩, dumped⟩ := dumps
    simp only [accept?, directory, dumped, Option.map_some]
    split
    · exact ⟨_, _, rfl, rfl⟩
    · exact ⟨_, _, rfl, rfl⟩

theorem Counted.accept (counted : tally.Counted ends frames) (tight : frame.Tight) :
    ∃ tally', tally.accept? frame = some tally' ∧ tally'.Counted ends (frames ++ [frame]) := by
  obtain ⟨tally', dumped, taken, stats⟩ := accept?_of_tight tight tally
  refine ⟨tally', taken, ?_, ?_, ?_, fun sorted => ?_⟩
  · rw [stats, List.length_append, List.length_singleton, ← counted.number]
    rfl
  · rw [stats]
    exact counted.ended
  · rw [stats, List.map_append, List.map_singleton, List.getLast?_concat]
    rfl
  · rw [List.map_append, List.map_singleton, List.pairwise_append] at sorted
    obtain ⟨earlier, -, later⟩ := sorted
    have clean := counted.ordered earlier
    have same : tally'.stats.outOfOrder = (count frame tally.stats).outOfOrder := by rw [stats]
    cases last : (frames.map Frame.pts).getLast? with
    | none => simp only [same, count, counted.last.trans last, clean]
    | some pts =>
      have before := later pts (List.mem_of_getLast? last) frame.pts (List.mem_singleton_self _)
      simp only [same, count, counted.last.trans last, clean]
      exact if_neg (Int.not_lt.mpr before)

theorem Counted.finish (counted : tally.Counted ends frames) :
    ({ tally with stats := { tally.stats with ends := tally.stats.ends + 1 } } : Tally).Counted
      (ends + 1) frames :=
  ⟨counted.number, congrArg (· + 1) counted.ended, counted.last, counted.ordered⟩

theorem keeps (ends : Nat) : Sink.Keeps (Tally.Counted ends) (Tally.Counted (ends + 1)) where
  accept {frames frame tally} here tight := by
    obtain ⟨tally', taken, counted⟩ := here.accept tight
    exact ⟨tally', counted, .inr (by simp only [Sink.accept, taken])⟩
  finish here := ⟨_, here.finish, rfl⟩

/-- It lets go of every frame. -/
instance : Holder Tally where
  held _ := []
  held_accept frame tally := by
    have answer : (Sink.accept frame tally).1 ≠ .kept := by
      simp only [Sink.accept]
      split <;> simp
    exact (if_neg answer).symm
  held_finish _ := rfl

end Tally

section pool
variable {ε π σ ρ : Type} [Engine ε π] [Holder σ] [Supplier ρ] {h : Host ε π σ} {source : ρ}

theorem Host.inBalance_run (policy : FailurePolicy) (balance : World.InBalance ⟨h, source⟩)
    (tidy : h.Tidy) :
    World.InBalance ⟨(h.run policy source).2.1, (h.run policy source).2.2⟩ ∧
      (h.run policy source).2.1.Tidy := by
  have pulls (left requests : Nat) :
      World.InBalance ⟨(h.pullAll policy left requests source).2.1,
        (h.pullAll policy left requests source).2.2⟩ ∧
        (h.pullAll policy left requests source).2.1.Tidy := by
    induction left generalizing requests h source with
    | zero => exact ⟨balance, tidy⟩
    | succ left ih =>
      have moved := Host.surplus_request h source
      have balance' : World.InBalance ⟨(h.request source).2.1, (h.request source).2.2⟩ := by
        rw [show h.surplus = pooledCount (Supplier.queued source) from balance,
          Int.sub_self] at moved
        exact Int.eq_of_sub_eq_zero moved
      have tidy' := Host.tidy_request tidy source
      have stays := @ih _ _ balance' tidy' (requests + 1)
      unfold pullAll
      generalize h.request source = answer at balance' tidy' stays ⊢
      obtain ⟨cause | _ | _, h', source'⟩ := answer
      · dsimp only
        split
        · exact stays
        · exact ⟨balance', tidy'⟩
      · exact stays
      · exact ⟨balance', tidy'⟩
  unfold run
  exact pulls (Source.left source + 1) 0

omit [Supplier ρ] in
/-- A stage that starts with an empty slot is configured and run on a clip. When the stream was
given up, only what the sink holds is alive. -/
theorem Host.live_close_run {stage : Stage ε π σ} {link outLink : Link}
    (configured : (Host.start stage).configure link = (.ok outLink, h))
    (empty : stage.station.previous = none) (even : stage.station.out.surplus = 0)
    (policy : FailurePolicy) (clip : Clip) :
    let h' := (h.run policy clip).2.1
    h'.close.out.pool.live = pooledCount (Holder.held h'.close.out.sink) := by
  intro h'
  have balance : World.InBalance ⟨h, clip⟩ := by
    have kept := Host.surplus_configure link (Host.start stage)
    have none_there : (Host.start stage).surplus = 0 := by
      show stage.station.out.surplus - slotWeight stage.station.previous = 0
      rw [empty, even]
      rfl
    rw [configured] at kept
    exact kept.trans none_there
  have tidy : h.Tidy := by
    have stays := Host.tidy_configure link (h := Host.start stage) ⟨fun _ => empty, fun _ => empty⟩
    rw [configured] at stays
    exact stays
  obtain ⟨balance', tidy'⟩ := Host.inBalance_run policy balance tidy
  have kept : h'.close.surplus = 0 := (Host.surplus_close h').trans balance'
  have vacant : h'.close.stage.station.previous = none := Stage.previous_close tidy'.stage
  simp only [Host.surplus, Station.surplus, Outlet.surplus, vacant, slotWeight_none] at kept
  simp only [Host.out]
  omega

end pool

namespace Channel
variable {σ : Type} {c : Channel σ} {n : Nat}

theorem spared_of_failures {total : Nat} (none_failed : c.failures total = 0) :
    ∀ index < total, c.hits (index + 1) = false := by
  intro index before
  unfold failures at none_failed
  unfold hits
  cases period : c.rejectEvery with
  | none => rfl
  | some n =>
    rw [period] at none_failed
    have rare : n = 0 ∨ total < n := Nat.div_eq_zero_iff.mp none_failed
    have rest : (index + 1) % n = index + 1 := by
      rcases rare with rfl | rare
      · exact Nat.mod_zero _
      · exact Nat.mod_eq_of_lt (by omega)
    show ((index + 1) % n == 0) = false
    rw [rest]
    rfl

theorem failures_of_start {gpus : Nat} {rejectEvery : Option Nat}
    (period : c.rejectEvery = (Simulated.start gpus rejectEvery).rejectEvery) (total : Nat) :
    c.failures total = (rejectEvery.map (total / ·)).getD 0 := by
  unfold failures
  rw [period]
  cases rejectEvery with
  | none => rfl
  | some n =>
    cases n with
    | zero => exact (Nat.div_zero total).symm
    | succ n => rfl

/-- The first submission that is hit is the one whose number is the period. -/
theorem first_hit (period : c.rejectEvery = some n) (positive : 1 ≤ n) :
    c.hits (n - 1 + 1) = true ∧ c.failures (n - 1 + 1) = 1 ∧
      ∀ earlier < n - 1, c.hits (earlier + 1) = false := by
  have last : n - 1 + 1 = n := Nat.sub_add_cancel positive
  refine ⟨?_, ?_, fun earlier before => ?_⟩
  · simp [hits, period, last]
  · simp [failures, period, last, Nat.div_self positive]
  · have rest : (earlier + 1) % n = earlier + 1 := Nat.mod_eq_of_lt (by omega)
    simp [hits, period, rest]

end Channel

namespace Host
variable {σ : Type} {book : List Frame → σ → Prop} {link outLink : Link}

theorem forwards_of_configure {h h' : Host Simulated Processor σ}
    (configured : h.configure link = (.ok outLink, h'))
    (patient : 1 ≤ h.stage.station.session.policy.maxStalledPolls) (blank : book [] h.out.sink)
    (valid : h.stage.options.validate = .ok ()) (plain : h.stage.options.respaces = false)
    (framesIn : h.framesIn = 0) (failures : h.submissionFailures = 0) :
    ∃ c : Channel σ, h'.Forwards c h.stage.options.window 0 ∧ c.width = link.width ∧
      c.height = link.height ∧ c.rejectEvery = h.stage.station.engine.rejectEvery ∧
      c.book = book ∧ c.earlier = h.out.pushed ∧ (0 < link.height → 0 < c.link.height) := by
  obtain ⟨settings, spec, kernel, begins⟩ := begins_of_configure configured patient blank
  have kind := begins.kernel valid plain
  have none_failed (c : Channel σ) : c.failures 0 = 0 := Nat.eq_zero_of_add_eq_zero_left
    (c.length_taken 0)
  refine ⟨⟨link.width, link.height, Kernel.Stabilization.cropOf? spec,
      h.stage.station.engine.rejectEvery, outLink, book, h.out.pushed⟩,
    ⟨⟨_, kernel, [], [], rfl, (Nat.min_zero _).symm, begins.streams, ?_⟩,
      begins.framesIn.trans framesIn,
      (begins.submissionFailures.trans failures).trans (none_failed _).symm⟩,
    rfl, rfl, rfl, rfl, rfl, begins.rows⟩
  cases synthesizes : h.stage.options.synthesizes with
  | true =>
    rw [synthesizes, if_pos rfl] at kind
    exact ⟨kind, begins.makes synthesizes⟩
  | false =>
    rw [synthesizes, if_neg Bool.false_ne_true] at kind
    exact kind

variable {c : Channel Tally} {window : Nat} {h : Host Simulated Processor Tally} {clip : Clip}

theorem Forwards.counts_whole {policy : FailurePolicy} (start : h.Forwards c window 0)
    (fillable : c.link.Fillable) (book : c.book = Tally.Counted 0) (earlier : c.earlier = 0)
    (width : c.width = clip.width) (height : c.height = clip.height) (rows : 0 < clip.height)
    (fresh : clip.index = 0)
    (goes_on : policy = .carryOn ∨ ∀ index < clip.total, c.hits (index + 1) = false) :
    ∃ polls h', h.run policy clip =
        (.ok ⟨clip.total + 1, clip.total, clip.total - c.failures clip.total,
          c.failures clip.total, true, polls⟩, h', clip.after clip.total) ∧
      h'.out.sink.stats.frames = clip.total - c.failures clip.total ∧
      h'.out.sink.stats.ends = 1 ∧ h'.out.sink.stats.outOfOrder = 0 := by
  have keeps : Sink.Keeps c.book (Tally.Counted 1) := book ▸ Tally.keeps 0
  obtain ⟨h', frames, ran, shuts, order, framesIn, failures⟩ :=
    start.runs keeps fillable width height rows fresh goes_on
  have number : frames.length = clip.total - c.failures clip.total := by
    have total := c.length_taken clip.total
    rw [← order, List.length_map] at total
    omega
  have pushed : h'.out.pushed = clip.total - c.failures clip.total := by
    rw [shuts.pushed, earlier, Nat.zero_add, number]
  have sorted : (frames.map Frame.pts).Pairwise (· ≤ ·) := order ▸ c.sorted_taken clip.total
  refine ⟨h'.stats.drainPolls, h', ?_, shuts.shut.number.trans number, shuts.shut.ended,
    shuts.shut.ordered sorted⟩
  rw [ran, RunStats.ofHost]
  simp only [stats, framesIn, failures, pushed, shuts.endSent]

theorem Forwards.counts_stopped {n : Nat} (start : h.Forwards c window 0)
    (fillable : c.link.Fillable) (book : c.book = Tally.Counted 0) (earlier : c.earlier = 0)
    (width : c.width = clip.width) (height : c.height = clip.height) (rows : 0 < clip.height)
    (fresh : clip.index = 0) (period : c.rejectEvery = some n) (positive : 1 ≤ n)
    (within : n ≤ clip.total) :
    ∃ cause h', h.run .abort clip =
        (.error (.submission ((n - 1 : Nat) * Clip.ticks) cause), h', clip.after n) ∧
      h'.state = .streaming ∧ h'.framesIn = n ∧ h'.submissionFailures = 1 ∧
      h'.out.pushed = n - 1 - window ∧ h'.out.sink.stats.frames = n - 1 - window ∧
      h'.out.sink.stats.ends = 0 := by
  have keeps : Sink.Keeps c.book (Tally.Counted 1) := book ▸ Tally.keeps 0
  have last : n - 1 + 1 = n := Nat.sub_add_cancel positive
  obtain ⟨hit, one, spared⟩ := Channel.first_hit period positive
  obtain ⟨cause, h', ran, forwards⟩ := start.stops keeps fillable width height rows fresh
    (by omega) hit spared
  obtain ⟨state, frames, booked, pushed, number⟩ := forwards.sent
  have failures := forwards.failures
  have framesIn := forwards.framesIn
  rw [book] at booked
  rw [one] at failures number
  rw [last] at ran framesIn number
  refine ⟨cause, h', ran, state, framesIn, failures, ?_, booked.number.trans number, booked.ended⟩
  rw [pushed, earlier, Nat.zero_add, number]

end Host

section start
variable {ε π σ : Type} {options : StageOptions} {engine : ε} {policy : DrainPolicy} {sink : σ}
  {pool : Pool}

theorem Stage.validate_of_start {stage : Stage ε π σ}
    (started : Stage.start options engine policy sink pool = .ok stage) :
    options.validate = .ok () := by
  unfold Stage.start at started
  cases validated : options.validate with
  | error cause =>
    rw [validated] at started
    cases started
  | ok done => rfl

theorem Stage.start_of_validate (engine : ε) (policy : DrainPolicy) (sink : σ) (pool : Pool)
    (valid : options.validate.toOption.isSome = true) :
    (Stage.start options engine policy sink pool : Outcome (Stage ε π σ)) =
      .ok (.idle options engine policy sink pool) := by
  unfold Stage.start
  cases validated : options.validate with
  | error cause => simp [validated, Except.toOption] at valid
  | ok done => rfl

theorem Host.configured_of_isSome [Engine ε π] {h : Host ε π σ} {link : Link}
    (opens : (h.configure link).1.toOption.isSome = true) :
    ∃ outLink h', h.configure link = (.ok outLink, h') := by
  cases configured : h.configure link with
  | mk answer h' =>
    rw [configured] at opens
    cases answer with
    | error cause => cases opens
    | ok outLink => exact ⟨outLink, h', rfl⟩

end start

section run
variable {options : StageOptions} {gpus : Nat} {rejectEvery : Option Nat} {policy : DrainPolicy}
  {dumpTo : Option String} {limit : Nat} {folder : Folder}
  {stage : Stage Simulated Processor Tally} {h : Host Simulated Processor Tally} {clip : Clip}
  {outLink : Link}

/-- The counts of a run. A stage that keeps the spacing of its stream is started with valid options
on the simulated engine and configured for a clip with rows, and every so many submissions fail.
A run that goes on after failures, or that has none, takes the whole clip: every frame that did not
fail goes out, in order, and then the end of the stream. A run that stops at failures stops at the
first one, when the frames before it went out but for those in the window. Giving up the stream
leaves no frame alive. -/
theorem run_accounts (plain : options.respaces = false) (patient : 1 ≤ policy.maxStalledPolls)
    (started : Stage.start options (.start gpus rejectEvery) policy
      (Tally.start dumpTo limit folder) .empty = .ok stage)
    (fresh : clip.index = 0) (rows : 0 < clip.height)
    (configured : (Host.start stage).configure clip.link = (.ok outLink, h))
    (onFailure : FailurePolicy) :
    let failures := (rejectEvery.map (clip.total / ·)).getD 0
    let result := (h.run onFailure clip).1
    let h' := (h.run onFailure clip).2.1
    let tally := h'.out.sink.stats
    (onFailure = .carryOn ∨ failures = 0 →
      (∃ polls, result =
        .ok ⟨clip.total + 1, clip.total, clip.total - failures, failures, true, polls⟩) ∧
      tally.frames = clip.total - failures ∧ tally.ends = 1 ∧ tally.outOfOrder = 0) ∧
    (∀ n, onFailure = .abort → rejectEvery = some n → 1 ≤ n → n ≤ clip.total →
      (∃ cause, result = .error (.submission ((n - 1 : Nat) * Clip.ticks) cause)) ∧
      h'.state = .streaming ∧ h'.framesIn = n ∧ h'.submissionFailures = 1 ∧
      h'.out.pushed = n - 1 - options.window ∧ tally.frames = n - 1 - options.window ∧
      tally.ends = 0) ∧
    h'.close.out.pool.live = 0 := by
  intro failures result h' tally
  have valid := Stage.validate_of_start started
  have stage_eq := Stage.eq_idle_of_start started
  have live := Host.live_close_run configured (by rw [stage_eq]; rfl) (by rw [stage_eq]; rfl)
    onFailure clip
  subst stage_eq
  obtain ⟨c, start, width, height, every, book, earlier, fills⟩ :=
    Host.forwards_of_configure configured patient (Tally.counted_start dumpTo limit folder) valid
      plain rfl rfl
  have fillable : c.link.Fillable := .inl (fills rows)
  have failed : c.failures clip.total = failures := Channel.failures_of_start every clip.total
  refine ⟨fun goes_on => ?_, fun n stops period positive within => ?_, live⟩
  · have whole := goes_on.imp_right fun none_failed =>
      Channel.spared_of_failures (failed.trans none_failed)
    obtain ⟨polls, h₁, ran, counts⟩ :=
      start.counts_whole fillable book earlier width height rows fresh whole
    have same : h' = h₁ := congrArg (·.2.1) ran
    rw [failed] at ran counts
    rw [← same] at counts
    exact ⟨⟨polls, congrArg (·.1) ran⟩, counts⟩
  · have period' : c.rejectEvery = some n := by
      rw [every, period]
      exact Option.filter_some_pos (p := (0 < ·)) (decide_eq_true positive)
    obtain ⟨cause, h₁, ran, counts⟩ :=
      start.counts_stopped fillable book earlier width height rows fresh period' positive within
    rw [← stops] at ran
    have same : h' = h₁ := congrArg (·.2.1) ran
    rw [← same] at counts
    exact ⟨⟨cause, congrArg (·.1) ran⟩, counts⟩

/-- A window of one frame, with a failure at the fourth of five frames. -/
theorem run_accounts_stabilization :
    let clip : Clip := ⟨2, 1, .bgr48, ⟨25, 1⟩, 5, 0⟩
    let options : StageOptions := .stabilization { ws := 1, cache := 2 }
    ∃ (stage : Stage Simulated Processor Tally) (outLink : Link)
      (h : Host Simulated Processor Tally),
      Stage.start options (.start 1 (some 4)) .postflight (.start none 0 .empty) .empty =
        .ok stage ∧
      (Host.start stage).configure clip.link = (.ok outLink, h) ∧
      let result := (h.run .abort clip).1
      let h' := (h.run .abort clip).2.1
      (∃ cause, result = .error (.submission 3000 cause)) ∧ h'.state = .streaming ∧
        h'.framesIn = 4 ∧ h'.submissionFailures = 1 ∧ h'.out.pushed = 2 ∧
        h'.out.sink.stats.frames = 2 ∧ h'.out.sink.stats.ends = 0 ∧ h'.close.out.pool.live = 0 := by
  intro clip options
  let stage : Stage Simulated Processor Tally :=
    .idle options (.start 1 (some 4)) .postflight (.start none 0 .empty) .empty
  have valid : options.validate.toOption.isSome = true := by decide +kernel
  have opens : ((Host.start stage).configure clip.link).1.toOption.isSome = true := by
    decide +kernel
  have started : Stage.start options (.start 1 (some 4)) .postflight (.start none 0 .empty) .empty =
      .ok stage := Stage.start_of_validate _ _ _ _ valid
  obtain ⟨outLink, h, configured⟩ := Host.configured_of_isSome opens
  obtain ⟨-, stopped, live⟩ :=
    run_accounts rfl (by decide) started rfl (by decide) configured .abort
  obtain ⟨failed, state, framesIn, failures, pushed, frames, ends⟩ :=
    stopped 4 rfl rfl (by decide) (by decide)
  exact ⟨stage, outLink, h, started, configured, failed, state, framesIn, failures, pushed, frames,
    ends, live⟩

end run

end FrameRelay
