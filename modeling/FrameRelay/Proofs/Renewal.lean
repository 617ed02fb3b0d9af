import FrameRelay.Proofs.Fixtures
import FrameRelay.Proofs.Likeness
import FrameRelay.Proofs.Slot
import FrameRelay.Proofs.Workers

/-! A host that is configured again is as good as new. Whatever its past, a configuration that
succeeds leaves it like a new host around the same stage, configured for the same link: from then on
both answer every history of calls the same. Only the counters of frames go on from where they
were, and what finished streams left behind stays behind. -/

namespace FrameRelay

section renewed
variable {ε π σ : Type} [Engine ε π]

namespace Station

/-- The station without its stream, around another outlet. -/
def blank (out : Outlet σ) (s : Station ε π σ) : Station ε π σ :=
  ⟨s.close.engine, .start s.session.policy, none, out⟩

theorem policy_close (s : Station ε π σ) : s.close.session.policy = s.session.policy :=
  s.advances_close.policy

theorem openStream_blank (settings : StreamSettings) (link : Link) (out : Outlet σ)
    {s : Station ε π σ} (empty : s.previous = none) : (s.blank out).openStream settings link =
      ((s.openStream settings link).1, { (s.openStream settings link).2 with out }) := by
  have closed : (s.blank out).close = s.blank out := rfl
  have vacant := s.handle_close
  have slot := (previous_close s).trans empty
  simp only [openStream, closed]
  unfold blank Session.start
  dsimp only
  rw [vacant, policy_close, slot]
  rcases settings.resolve (Engine.offer s.close.engine) link with _ | ⟨spec, outLink⟩
  · rfl
  · dsimp only
    rcases Engine.create spec s.close.engine with ⟨_ | _, engine⟩ <;> rfl

theorem blank_clearPrevious (out : Outlet σ) (s : Station ε π σ) :
    s.clearPrevious.blank out = s.blank out := by
  rcases s with ⟨engine, ⟨_ | handle, settings, policy⟩, previous, out'⟩ <;> rfl

end Station

namespace Stage

def withOut (out : Outlet σ) (stage : Stage ε π σ) : Stage ε π σ :=
  { stage with station := { stage.station with out } }

/-- The stage without its stream, around another outlet. -/
def blank (out : Outlet σ) (stage : Stage ε π σ) : Stage ε π σ :=
  ⟨stage.options, stage.station.blank out, none⟩

/-- The spacing is that of an open stream, if the stage gives its stream one. -/
def Unspaced (stage : Stage ε π σ) : Prop :=
  stage.options.respaces = false → stage.retiming = none

theorem openStream_blank (settings : StreamSettings) (link : Link) (out : Outlet σ)
    {stage : Stage ε π σ} (empty : stage.station.previous = none) :
    (stage.blank out).openStream settings link =
      ((stage.openStream settings link).1,
        { (stage.openStream settings link).2.withOut out with retiming := none }) := by
  unfold openStream blank
  dsimp only
  rw [Station.openStream_blank settings link out empty]
  rfl

theorem openStream_blank_of_unspaced (settings : StreamSettings) (link : Link) (out : Outlet σ)
    {stage : Stage ε π σ} (empty : stage.station.previous = none)
    (unspaced : stage.retiming = none) : (stage.blank out).openStream settings link =
      ((stage.openStream settings link).1, (stage.openStream settings link).2.withOut out) := by
  have same : (stage.openStream settings link).2.retiming = none := unspaced
  rw [openStream_blank settings link out empty, ← same]
  rfl

theorem blank_clearPrevious (out : Outlet σ) (stage : Stage ε π σ) :
    (stage.blank out).clearPrevious = stage.clearPrevious.blank out := by
  unfold blank clearPrevious
  rw [Station.blank_clearPrevious]
  rfl

theorem configureInterpolation_blank {o : InterpolationOptions} {link outLink : Link}
    {stage stage' : Stage ε π σ} (empty : stage.station.previous = none)
    (configured : stage.configureInterpolation o link = (.ok outLink, stage')) (out : Outlet σ) :
    (stage.blank out).configureInterpolation o link = (.ok outLink, stage'.withOut out) := by
  unfold configureInterpolation at configured ⊢
  rcases computed : Retiming.compute o.slowmo o.fps link.frameRate with cause | retiming
  · rw [computed] at configured
    cases configured
  · rw [computed] at configured
    dsimp only at configured ⊢
    rw [openStream_blank (o.settings retiming) link out empty]
    generalize stage.openStream (o.settings retiming) link = answer at configured ⊢
    rcases answer with ⟨_ | outLink', opened⟩
    · cases configured
    · cases configured
      rfl

theorem configureStabilization_blank {o : StabilizationOptions} {link outLink : Link}
    {stage stage' : Stage ε π σ} (empty : stage.station.previous = none)
    (unspaced : stage.retiming = none)
    (configured : stage.configureStabilization o link = (.ok outLink, stage')) (out : Outlet σ) :
    (stage.blank out).configureStabilization o link = (.ok outLink, stage'.withOut out) := by
  unfold configureStabilization at configured ⊢
  rw [openStream_blank_of_unspaced o.settings link out empty unspaced]
  generalize stage.openStream o.settings link = answer at configured ⊢
  rcases answer with ⟨_ | outLink', opened⟩
  · cases configured
  · dsimp only [withOut] at configured ⊢
    split at configured <;>
    · cases configured
      rfl

theorem configure_blank {link outLink : Link} {stage stage' : Stage ε π σ} (tidy : stage.Tidy)
    (unspaced : stage.Unspaced) (configured : stage.configure link = (.ok outLink, stage'))
    (out : Outlet σ) : (stage.blank out).configure link = (.ok outLink, stage'.withOut out) := by
  rcases stage with ⟨o | o | o | o | o, station, retiming⟩
  · have opened := openStream_blank_of_unspaced o.settings link out (tidy rfl) (unspaced rfl)
    simp only [configure] at configured
    rw [configured] at opened
    exact opened
  · have opened := openStream_blank_of_unspaced o.settings link out (tidy rfl) (unspaced rfl)
    simp only [configure] at configured
    rw [configured] at opened
    exact opened
  · simp only [configure] at configured
    have opened := configureInterpolation_blank rfl configured out
    rwa [← blank_clearPrevious] at opened
  · have spacing : (clearPrevious ⟨.upscale o, station, retiming⟩).retiming = none := unspaced rfl
    have opened := openStream_blank_of_unspaced (o.settings (o.scaleFor link)) link out rfl spacing
    rw [← blank_clearPrevious] at opened
    simp only [configure] at configured
    rw [configured] at opened
    exact opened
  · have spacing : (clearPrevious ⟨.stabilization o, station, retiming⟩).retiming = none :=
      unspaced rfl
    simp only [configure] at configured
    have opened := configureStabilization_blank rfl spacing configured out
    rwa [← blank_clearPrevious] at opened

end Stage

namespace Host

/-- The host without its stream, with another sink and pool. Its frames stay counted. -/
def renewed (sink : σ) (pool : Pool) (h : Host ε π σ) : Host ε π σ :=
  ⟨h.stage.blank ⟨none, sink, pool, h.out.pushed, false⟩, .streaming, h.framesIn,
    h.submissionFailures, none, none⟩

theorem configure_renewed {link outLink : Link} {h h' : Host ε π σ} (tidy : h.stage.Tidy)
    (unspaced : h.stage.Unspaced) (configured : h.configure link = (.ok outLink, h')) (sink : σ)
    (pool : Pool) : (h.renewed sink pool).configure link =
      (.ok outLink, h'.withOut { h'.out with sink, pool }) := by
  have links := h.links_configure link
  have same := Station.pushed_configures (h.stage.configures_configure link).1
  rw [configured] at links
  cases links with
  | @linked outLink stage answer =>
    have format : ¬ link.format ≠ (h.renewed sink pool).stage.options.format := by
      intro other
      have other : link.format ≠ h.stage.options.format := other
      simp [configure, other] at configured
    rw [answer] at same
    unfold configure
    rw [if_neg format]
    simp only [renewed, Stage.configure_blank tidy unspaced answer]
    simp only [relinked, withOut, Stage.withOut, out, Outlet.setLink]
    rw [same]

end Host

end renewed

namespace Simulated

/-- The engine when earlier streams left something behind. -/
def following (prior : List Artifact) (engine : Simulated) : Simulated :=
  { engine with artifacts := prior ++ engine.artifacts }

theorem gather_following (prior : List Artifact) (engine : Simulated) (p : Processor) :
    (engine.following prior).gather p =
      ((engine.gather p).1, (engine.gather p).2.following prior) := by
  simp only [gather, following, List.append_assoc]

/-- No call of the engine depends on what earlier streams left behind. -/
def sequel (prior : List Artifact) :
    EngineBisimulation Simulated Processor Simulated Processor where
  Vacant e e' := e = e'.following prior
  Serving _ x y := x = (y.1, y.2.following prior)
  process frame alike := by
    cases alike
    simp only [Engine.process, gather_following]
    exact ⟨_, _, _, rfl⟩
  ready alike := by
    cases alike
    exact ⟨_, _, _, rfl⟩
  discard alike := by
    cases alike
    exact ⟨_, _, _, rfl⟩
  pull buffer alike := by
    cases alike
    exact ⟨_, _, _, rfl⟩
  remaining alike := by
    cases alike
    exact ⟨_, _, _, rfl⟩
  endStream alike := by
    cases alike
    exact gather_following prior _ _
  outputSize alike := by
    cases alike
    rfl
  release alike := by
    cases alike
    rfl
  offer alike := by
    cases alike
    rfl
  create {e e'} spec alike := by
    cases alike
    have same : (e'.following prior).create spec = e'.create spec := rfl
    simp only [Engine.create, same]
    rcases e'.create spec with cause | p
    · exact .refused cause rfl
    · exact .created rfl

theorem eq_following_of_config {engine : Simulated} {gpus : Nat} {rejectEvery : Option Nat}
    (config : engine.config = (start gpus rejectEvery).config) :
    engine = (start gpus rejectEvery).following engine.artifacts := by
  obtain ⟨same, same'⟩ := Prod.mk.inj config
  unfold following
  rw [← same, ← same', start, List.append_nil]

end Simulated

/-- The statistics of a host that goes on counting where another one stopped. -/
def HostStats.after (before stats : HostStats) : HostStats :=
  { stats with
    framesIn := stats.framesIn + before.framesIn
    framesOut := stats.framesOut + before.framesOut
    submissionFailures := stats.submissionFailures + before.submissionFailures }

section stats
variable {ε π ε' π' σ : Type} [Engine ε π] [Engine ε' π'] [Sink σ]
  {S : ServiceBisimulation ε π ε' π'}

/-- How far the counters of one host are ahead of those of a new one. -/
def HostStats.lead (before : HostStats) : Lead where
  framesIn := before.framesIn
  failures := before.submissionFailures
  pushed := before.framesOut

theorem Host.stats_of_alike {before : HostStats} {h : Host ε π σ} {h' : Host ε' π' σ}
    (alike : h.Alike S (.same σ) before.lead h') : h.stats = before.after h'.stats := by
  have pushed := alike.out.pushed
  have endSent := alike.out.endSent
  obtain ⟨stages, state, framesIn, failures, drained, failure⟩ := alike
  simp only [stats, HostStats.after, state, framesIn, failures, drained, pushed, endSent]
  rfl

end stats

namespace World
variable {σ ρ : Type} [Sink σ]

theorem alike_supply {B : EngineBisimulation Simulated Simulated.Processor Simulated
      Simulated.Processor} {before : HostStats} (supply : Supply σ ρ)
    {h h' : Host Simulated Simulated.Processor σ} (source source' : ρ)
    (alike : h.Alike B.toServiceBisimulation (.same σ) before.lead h') :
    let w := World.mk h source
    let w' := World.mk h' source'
    (w.withSurroundings (supply.apply w.surroundings)).Alike B.toServiceBisimulation (.same σ)
      before.lead (w'.withSurroundings (supply.apply w'.surroundings)) := by
  intro w w'
  have outs : ({ h.out with sink := supply.sink, pool := supply.pool } : Outlet σ).Alike
      (.same σ) before.lead { h'.out with sink := supply.sink, pool := supply.pool } :=
    { alike.out with sink := rfl, live := (Int.add_zero _).symm }
  exact ⟨alike.withOut outs, rfl⟩

variable [Source ρ]

/-- After any history the host without its stream is like a new one, on an engine where earlier
streams left something behind. -/
theorem alike_renewed (options : StageOptions) (gpus : Nat) (rejectEvery : Option Nat)
    (policy : DrainPolicy) (sink newSink : σ) (pool newPool : Pool) (source newSource : ρ)
    (history : List (Call (Supply σ ρ))) :
    let w := (fresh options (Simulated.start gpus rejectEvery) policy sink pool source).run
      Supply.apply history
    (w.host.renewed newSink newPool).Alike
      (Simulated.sequel w.host.station.close.engine.artifacts).toServiceBisimulation (.same σ)
      w.host.stats.lead
      (fresh options (Simulated.start gpus rejectEvery) policy newSink newPool newSource).host := by
  intro w
  let start : World Simulated Simulated.Processor σ ρ :=
    fresh options (Simulated.start gpus rejectEvery) policy sink pool source
  have options' : w.host.stage.options = options := options_run Supply.apply start history
  have policy' : w.host.station.session.policy = policy := policy_run Supply.apply start history
  have config : w.host.station.close.engine.config = (Simulated.start gpus rejectEvery).config :=
    (Simulated.config_of_advances w.host.station.advances_close).trans (config_run start history)
  have engine := Simulated.eq_following_of_config config
  refine ⟨?_, rfl, (Nat.zero_add _).symm, (Nat.zero_add _).symm, rfl, rfl⟩
  unfold Host.renewed Stage.blank Station.blank
  rw [options', policy']
  refine ⟨options, none, .vacant none policy none ?_ engine⟩
  exact ⟨rfl, rfl, (Int.add_zero _).symm, (Nat.zero_add _).symm, rfl⟩

/-- Configuring again equals starting fresh. On the simulated engine, with any number of devices
and any injected failures, and after any history of calls: if a configuration succeeds, then a new
host around the same stage gives the same answer to it. From then on, with any sink, pool and source
that both get, they answer every history of calls the same, leave the same behind in the sink, and
have the same statistics; the frames in and out and the failures are counted on from where they
were at the configuration. -/
theorem configured_again_as_new (options : StageOptions) (gpus : Nat) (rejectEvery : Option Nat)
    (policy : DrainPolicy) (sink newSink : σ) (pool newPool : Pool) (source newSource : ρ)
    (history : List (Call (Supply σ ρ))) (link : Link) :
    let engine := Simulated.start gpus rejectEvery
    let past := (fresh options engine policy sink pool source).run Supply.apply history
    let again := past.perform Supply.apply (.configure link)
    let first := (fresh options engine policy newSink newPool newSource).perform Supply.apply
      (.configure link)
    again.1.opens = true → again.1 = first.1 ∧
      ∀ (supply : Supply σ ρ) (later : List (Call (Supply σ ρ))),
        let calls := .outside supply :: later
        again.2.answers Supply.apply calls = first.2.answers Supply.apply calls ∧
        (again.2.run Supply.apply calls).host.out.sink =
          (first.2.run Supply.apply calls).host.out.sink ∧
        (again.2.run Supply.apply calls).host.stats =
          past.host.stats.after (first.2.run Supply.apply calls).host.stats := by
  intro engine past again first succeeds
  let start : World Simulated Simulated.Processor σ ρ :=
    fresh options engine policy sink pool source
  have renewed := alike_renewed options gpus rejectEvery policy sink newSink pool newPool source
    newSource history
  have tidy : past.host.stage.Tidy :=
    (tidy_run Supply.apply ⟨fun _ => rfl, fun _ => rfl⟩ history).stage
  have unspaced : past.host.stage.Unspaced := by
    intro plain
    have options' : past.host.stage.options = options := options_run Supply.apply start history
    rw [options'] at plain
    exact retiming_run Supply.apply (w := start) plain history
  rcases answer : past.host.configure link with ⟨cause | outLink, h⟩
  · simp only [again, perform, answer, Answer.opens] at succeeds
    cases succeeds
  have agree := Host.alike_configure link renewed
  rw [Host.configure_renewed tidy unspaced answer newSink newPool] at agree
  rcases answer' : (fresh options engine policy newSink newPool newSource).host.configure link with
    ⟨result, h'⟩
  rw [answer'] at agree
  rcases agree with ⟨_, _, _, alike⟩
  have again' : again = (.linked (.ok outLink), ⟨h, past.source⟩) := by
    simp only [again, perform, answer]
  have first' : first = (.linked (.ok outLink), ⟨h', newSource⟩) := by
    simp only [first, perform, answer']
    rfl
  rw [again', first']
  refine ⟨rfl, fun supply later => ?_⟩
  have supplied := alike_supply supply past.source newSource alike
  obtain ⟨same, related⟩ := alike_run (Source.blind_zero ρ)
    (fun supply w w' alike => alike_supply supply w.source w'.source alike.host) supplied later
  exact ⟨congrArg _ same, related.host.out.sink, Host.stats_of_alike related.host⟩

/-- A stabilizer that has an open stream with two frames in its window when it is configured again.
Before that it was asked for a frame too early, and given a link of the wrong format. -/
theorem configured_again_as_new_stabilization :
    let link : Link := ⟨1, 1, .bgr48, ⟨1, 25⟩, ⟨25, 1⟩, .one⟩
    let frame := Frame.unpooled 1 1 .bgr48 #[7, 0, 0]
    let options : StageOptions := .stabilization { ws := 2, cache := 2 }
    let history : List (Call (Supply Recorder Queue)) :=
      [.request, .configure { link with format := .rgb48 }, .configure link, .request, .request]
    let engine := Simulated.start 1 (some 4)
    let past := (fresh options engine .postflight .empty .empty ⟨[frame, frame, frame], none⟩).run
      Supply.apply history
    let again := past.perform Supply.apply (.configure link)
    let first := (fresh options engine .postflight .empty .empty ⟨[], none⟩).perform
      Supply.apply (.configure link)
    past.host.station.session.handle.isSome = true ∧ past.host.station.previous.isSome = true ∧
      past.host.stats.framesIn = 3 ∧ past.host.stats.framesOut = 0 ∧
      again.1.opens = true ∧ again.1 = first.1 ∧
      ∀ (supply : Supply Recorder Queue) (later : List (Call (Supply Recorder Queue))),
        let calls := .outside supply :: later
        again.2.answers Supply.apply calls = first.2.answers Supply.apply calls ∧
        (again.2.run Supply.apply calls).host.out.sink =
          (first.2.run Supply.apply calls).host.out.sink ∧
        (again.2.run Supply.apply calls).host.stats =
          past.host.stats.after (first.2.run Supply.apply calls).host.stats := by
  intro link frame options history engine past again first
  have opens : again.1.opens = true := by decide +kernel
  exact ⟨by decide +kernel, by decide +kernel, by decide +kernel, by decide +kernel, opens,
    configured_again_as_new options 1 (some 4) .postflight Recorder.empty
      Recorder.empty .empty .empty (Queue.mk [frame, frame, frame] none) (Queue.mk [] none) history
      link opens⟩

end World

end FrameRelay
