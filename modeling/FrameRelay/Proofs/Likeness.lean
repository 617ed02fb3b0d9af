import FrameRelay.Proofs.Bisimulation
import FrameRelay.Proofs.History
import FrameRelay.Proofs.Steps

/-! A host cannot look inside its engine and its sink. Where no call tells one engine from another
and one sink from another, two hosts run alike on them: call by call they answer the same, and what
they leave is alike again. -/

namespace FrameRelay

section station
variable {ε π ε' π' σ σ' : Type} [Engine ε π] [Engine ε' π'] [Sink σ] [Sink σ']
  {S : ServiceBisimulation ε π ε' π'} {G : SinkBisimulation σ σ'} {lead : Lead}

open Lease (AlikeBeside)

namespace Station

/-- Stations that are alike, with a handle each or without. -/
inductive Alike (S : ServiceBisimulation ε π ε' π') (G : SinkBisimulation σ σ') (lead : Lead) :
    Station ε π σ → Station ε' π' σ' → Prop where
  | vacant {e : ε} {e' : ε'} {out : Outlet σ} {out' : Outlet σ'}
    (settings : Option StreamSettings) (policy : DrainPolicy) (previous : Option Frame)
    (outs : out.Alike G lead out') (engines : S.Vacant e e') :
    Alike S G lead ⟨e, ⟨none, settings, policy⟩, previous, out⟩
      ⟨e', ⟨none, settings, policy⟩, previous, out'⟩
  | held {e : ε} {e' : ε'} {handle : Handle π} {handle' : Handle π'} {out : Outlet σ}
    {out' : Outlet σ'} (settings : Option StreamSettings) (policy : DrainPolicy)
    (previous : Option Frame) (outs : out.Alike G lead out') (stopped : Bool)
    (leases : Lease.Alike S stopped ⟨e, handle⟩ ⟨e', handle'⟩) :
    Alike S G lead ⟨e, ⟨some handle, settings, policy⟩, previous, out⟩
      ⟨e', ⟨some handle', settings, policy⟩, previous, out'⟩

variable {s : Station ε π σ} {s' : Station ε' π' σ'}

theorem Alike.out (alike : s.Alike S G lead s') : s.out.Alike G lead s'.out := by
  cases alike with
  | vacant _ _ _ outs engines => exact outs
  | held _ _ _ outs stopped leases => exact outs

theorem Alike.previous (alike : s.Alike S G lead s') : s.previous = s'.previous := by
  cases alike <;> rfl

theorem Alike.withSettings (alike : s.Alike S G lead s') (settings : Option StreamSettings) :
    Alike S G lead { s with session := { s.session with settings } }
      { s' with session := { s'.session with settings } } := by
  cases alike with
  | vacant _ policy previous outs engines => exact .vacant _ _ _ outs engines
  | held _ policy previous outs stopped leases => exact .held _ _ _ outs stopped leases

theorem Alike.reslot {lead' : Lead} (alike : s.Alike S G lead s') (previous : Option Frame)
    {out : Outlet σ} {out' : Outlet σ'} (outs : out.Alike G lead' out') :
    Alike S G lead' { s with previous, out } { s' with previous, out := out' } := by
  cases alike with
  | vacant _ _ _ _ engines => exact .vacant _ _ _ outs engines
  | held _ _ _ _ stopped leases => exact .held _ _ _ outs stopped leases

theorem Alike.withOut {lead' : Lead} (alike : s.Alike S G lead s') {out : Outlet σ}
    {out' : Outlet σ'} (outs : out.Alike G lead' out') :
    Alike S G lead' { s with out } { s' with out := out' } := by
  cases alike with
  | vacant _ _ _ _ engines => exact .vacant _ _ _ outs engines
  | held _ _ _ _ stopped leases => exact .held _ _ _ outs stopped leases

theorem Alike.clearPrevious (alike : s.Alike S G lead s') :
    s.clearPrevious.Alike S G lead s'.clearPrevious := by
  have outs := alike.out.releaseSlot s.previous
  unfold Station.clearPrevious
  rw [← alike.previous]
  exact alike.reslot none outs

theorem Alike.keepPrevious (alike : s.Alike S G lead s') (frame : Frame) :
    (s.keepPrevious frame).Alike S G lead (s'.keepPrevious frame) := by
  have outs := alike.out.releaseSlot s.previous
  unfold Station.keepPrevious
  rw [← alike.previous]
  exact alike.reslot (some frame) outs

theorem Alike.close (alike : s.Alike S G lead s') : s.close.Alike S G lead s'.close := by
  cases alike with
  | vacant settings policy previous outs engines => exact .vacant _ _ _ outs engines
  | held settings policy previous outs stopped leases =>
    exact .vacant _ _ _ outs (Lease.vacant_retire policy leases)

theorem alike_submit (frame : Frame) (alike : s.Alike S G lead s') :
    Agree (Alike S G lead) (s.submit frame) (s'.submit frame) := by
  cases alike with
  | vacant settings policy previous outs engines =>
    exact ⟨_, _, _, .vacant _ _ _ (outs.release frame) engines⟩
  | @held e e' handle handle' _ _ settings policy previous outs stopped leases =>
    have submitted := Lease.alike_submit frame leases
    simp only [submit]
    generalize Lease.submit frame ⟨e, handle⟩ = answer, Lease.submit frame ⟨e', handle'⟩ = answer'
      at submitted
    rcases submitted with ⟨_ | _, l, l', leases⟩
    · exact ⟨_, _, _, .held _ _ _ (outs.release frame) stopped leases⟩
    · exact ⟨_, _, _, .held _ _ _ outs stopped leases⟩

theorem Alike.ignoreOutput (alike : s.Alike S G lead s') :
    s.ignoreOutput.Alike S G lead s'.ignoreOutput := by
  cases alike with
  | vacant settings policy previous outs engines => exact .vacant _ _ _ outs engines
  | @held e e' handle handle' _ _ settings policy previous outs stopped leases =>
    have ignored := Lease.alike_ignoreOutput leases
    simp only [Station.ignoreOutput]
    generalize Lease.ignoreOutput ⟨e, handle⟩ = answer, Lease.ignoreOutput ⟨e', handle'⟩ = answer'
      at ignored
    rcases ignored with ⟨count, l, l', leases⟩
    exact .held _ _ _ outs stopped leases

theorem alike_drainAndDestroy
    {run : DrainPolicy → Lease ε π → Outlet σ → Outcome DrainReport × Lease ε π × Outlet σ}
    {run' : DrainPolicy → Lease ε' π' → Outlet σ' → Outcome DrainReport × Lease ε' π' × Outlet σ'}
    (runs : ∀ policy stopped l out l' out',
      AlikeBeside S stopped (Outlet.Alike G lead) (l, out) (l', out') →
      Agree (AlikeBeside S true (Outlet.Alike G lead)) (run policy l out) (run' policy l' out'))
    (alike : s.Alike S G lead s') :
    Agree (Alike S G lead) (s.drainAndDestroy run) (s'.drainAndDestroy run') := by
  cases alike with
  | vacant settings policy previous outs engines =>
    exact ⟨_, _, _, .vacant _ _ _ outs engines⟩
  | @held e e' handle handle' out out' settings policy previous outs stopped leases =>
    have drained := runs policy stopped ⟨e, handle⟩ out ⟨e', handle'⟩ out' ⟨leases, outs⟩
    simp only [drainAndDestroy]
    generalize run policy ⟨e, handle⟩ out = answer, run' policy ⟨e', handle'⟩ out' = answer'
      at drained
    rcases drained with ⟨result, ⟨l, out⟩, ⟨l', out'⟩, leases, outs⟩
    exact ⟨_, _, _, .vacant _ _ _ outs (Lease.vacant_destroy leases)⟩

theorem alike_drainIgnoring (alike : s.Alike S G lead s') :
    Agree (Alike S G lead) s.drainIgnoring s'.drainIgnoring :=
  alike_drainAndDestroy (fun policy _ _ _ _ _ beside => Lease.alike_drainIgnoring policy beside)
    alike

theorem alike_addOutput (reference : Frame) (alike : s.Alike S G lead s') :
    Agree (Alike S G lead) (s.addOutput reference) (s'.addOutput reference) := by
  cases alike with
  | vacant settings policy previous outs engines => exact ⟨_, _, _, .vacant _ _ _ outs engines⟩
  | @held e e' handle handle' out out' settings policy previous outs stopped leases =>
    have added := Lease.alike_addOutput reference ⟨leases, outs⟩
    simp only [addOutput]
    generalize Lease.addOutput reference ⟨e, handle⟩ out = answer,
      Lease.addOutput reference ⟨e', handle'⟩ out' = answer' at added
    rcases added with ⟨result, ⟨l, out⟩, ⟨l', out'⟩, leases, outs⟩
    exact ⟨_, _, _, .held _ _ _ outs stopped leases⟩

theorem alike_synthesize (frame : Frame) (alike : s.Alike S G lead s') :
    Agree (Alike S G lead) (s.synthesize frame) (s'.synthesize frame) := by
  have submitted := alike_submit frame alike
  unfold synthesize
  generalize s.submit frame = answer, s'.submit frame = answer' at submitted
  rcases submitted with ⟨_ | _, t, t', alike⟩
  · exact ⟨_, _, _, alike⟩
  · exact alike_addOutput frame (alike.keepPrevious frame)

theorem alike_finishSynthesis (alike : s.Alike S G lead s') :
    Agree (Alike S G lead) s.finishSynthesis s'.finishSynthesis := by
  have drained := alike_drainAndDestroy (fun policy _ _ _ _ _ beside =>
    Lease.alike_postflight policy s.previous beside) alike
  unfold finishSynthesis postflight
  rw [← alike.previous]
  generalize s.drainAndDestroy _ = answer, s'.drainAndDestroy _ = answer' at drained ⊢
  rcases drained with ⟨result, t, t', alike⟩
  exact ⟨_, _, _, alike.clearPrevious⟩

theorem alike_passThrough (frame : Frame) (alike : s.Alike S G lead s') :
    Agree (Alike S G lead) (s.passThrough frame) (s'.passThrough frame) := by
  have submitted := alike_submit frame alike
  unfold passThrough
  generalize s.submit frame = answer, s'.submit frame = answer' at submitted
  rcases submitted with ⟨_ | _, t, t', alike⟩
  · exact ⟨_, _, _, alike⟩
  · have ignored := alike.ignoreOutput
    have pushed := Outlet.alike_push frame ignored.out
    dsimp only
    generalize t.ignoreOutput = t, t'.ignoreOutput = t' at ignored pushed
    generalize t.out.push frame = answer, t'.out.push frame = answer' at pushed
    rcases pushed with ⟨result, out, out', outs⟩
    exact ⟨_, _, _, ignored.withOut outs⟩

variable {B : EngineBisimulation ε π ε' π'}

theorem alike_openStream (settings : StreamSettings) (link : Link)
    (alike : s.Alike B.toServiceBisimulation G lead s') :
    Agree (Alike B.toServiceBisimulation G lead) (s.openStream settings link)
      (s'.openStream settings link) := by
  have closed := alike.close.withSettings none
  have vacant := handle_close s
  simp only [openStream]
  generalize s.close = t, s'.close = t' at closed vacant
  rcases t with ⟨e, ⟨handle, _, policy⟩, previous, out⟩
  subst vacant
  rcases t' with ⟨e', ⟨handle', _, policy'⟩, previous', out'⟩
  rcases closed with ⟨_, _, _, outs, engines⟩
  dsimp only
  rw [B.offer engines]
  rcases settings.resolve (Engine.offer e') link with _ | ⟨spec, outLink⟩
  · exact ⟨_, _, _, .vacant _ _ _ outs engines⟩
  · have hired := B.create spec engines
    dsimp only
    generalize Engine.create spec e = answer, Engine.create spec e' = answer' at hired
    cases hired with
    | refused cause engines => exact ⟨_, _, _, .vacant _ _ _ outs engines⟩
    | created serving =>
      exact ⟨_, _, _, .held _ _ _ outs false ⟨spec.name, .streaming, 0, 0, rfl, serving⟩⟩

end Station

namespace Stage

/-- Stages with the same options and spacing. -/
inductive Alike (S : ServiceBisimulation ε π ε' π') (G : SinkBisimulation σ σ') (lead : Lead) :
    Stage ε π σ → Stage ε' π' σ' → Prop where
  | intro (options : StageOptions) (retiming : Option Retiming) {s : Station ε π σ}
    {s' : Station ε' π' σ'} (stations : s.Alike S G lead s') :
    Alike S G lead ⟨options, s, retiming⟩ ⟨options, s', retiming⟩

variable {stage : Stage ε π σ} {stage' : Stage ε' π' σ'}

theorem Alike.stations (alike : stage.Alike S G lead stage') :
    stage.station.Alike S G lead stage'.station := by
  obtain ⟨options, retiming, stations⟩ := alike
  exact stations

theorem Alike.options (alike : stage.Alike S G lead stage') : stage.options = stage'.options := by
  obtain ⟨options, retiming, stations⟩ := alike
  rfl

theorem Alike.clearPrevious (alike : stage.Alike S G lead stage') :
    stage.clearPrevious.Alike S G lead stage'.clearPrevious := by
  obtain ⟨options, retiming, stations⟩ := alike
  exact ⟨options, retiming, stations.clearPrevious⟩

theorem alike_accept (frame : Frame) (alike : stage.Alike S G lead stage') :
    Agree (Alike S G lead) (stage.accept frame) (stage'.accept frame) := by
  obtain @⟨options, retiming, s, s', stations⟩ := alike
  simp only [accept]
  split
  · have taken := Station.alike_synthesize frame stations
    generalize s.synthesize frame = answer, s'.synthesize frame = answer' at taken
    rcases taken with ⟨result, s, s', stations⟩
    exact ⟨_, _, _, options, retiming, stations⟩
  · have taken := Station.alike_passThrough frame stations
    generalize s.passThrough frame = answer, s'.passThrough frame = answer' at taken
    rcases taken with ⟨result, s, s', stations⟩
    exact ⟨_, _, _, options, retiming, stations⟩

theorem alike_drain (alike : stage.Alike S G lead stage') :
    Agree (Alike S G lead) stage.drain stage'.drain := by
  obtain @⟨options, retiming, s, s', stations⟩ := alike
  simp only [drain]
  split
  · have drained := Station.alike_finishSynthesis stations
    generalize s.finishSynthesis = answer, s'.finishSynthesis = answer' at drained
    rcases drained with ⟨result, s, s', stations⟩
    exact ⟨_, _, _, options, retiming, stations⟩
  · have drained := Station.alike_drainIgnoring stations
    generalize s.drainIgnoring = answer, s'.drainIgnoring = answer' at drained
    rcases drained with ⟨result, s, s', stations⟩
    exact ⟨_, _, _, options, retiming, stations⟩

theorem Alike.close (alike : stage.Alike S G lead stage') :
    stage.close.Alike S G lead stage'.close := by
  obtain ⟨options, retiming, stations⟩ := alike
  simp only [Stage.close]
  split
  · exact ⟨options, retiming, stations.close.clearPrevious⟩
  · exact ⟨options, retiming, stations.close⟩

variable {B : EngineBisimulation ε π ε' π'}

theorem alike_openStream (settings : StreamSettings) (link : Link)
    (alike : stage.Alike B.toServiceBisimulation G lead stage') :
    Agree (Alike B.toServiceBisimulation G lead) (stage.openStream settings link)
      (stage'.openStream settings link) := by
  obtain @⟨options, retiming, s, s', stations⟩ := alike
  have opened := Station.alike_openStream settings link stations
  simp only [openStream]
  generalize s.openStream settings link = answer, s'.openStream settings link = answer' at opened
  rcases opened with ⟨result, s, s', stations⟩
  exact ⟨_, _, _, options, retiming, stations⟩

theorem alike_configureInterpolation (o : InterpolationOptions) (link : Link)
    (alike : stage.Alike B.toServiceBisimulation G lead stage') :
    Agree (Alike B.toServiceBisimulation G lead) (stage.configureInterpolation o link)
      (stage'.configureInterpolation o link) := by
  unfold configureInterpolation
  rcases Retiming.compute o.slowmo o.fps link.frameRate with _ | retiming
  · exact ⟨_, _, _, alike⟩
  · have opened := alike_openStream (o.settings retiming) link alike
    dsimp only
    generalize stage.openStream (o.settings retiming) link = answer,
      stage'.openStream (o.settings retiming) link = answer' at opened
    rcases opened with ⟨_ | outLink, stage, stage', alike⟩
    · exact ⟨_, _, _, alike⟩
    · obtain ⟨options, _, stations⟩ := alike
      exact ⟨_, _, _, options, some retiming, stations⟩

theorem alike_configureStabilization (o : StabilizationOptions) (link : Link)
    (alike : stage.Alike B.toServiceBisimulation G lead stage') :
    Agree (Alike B.toServiceBisimulation G lead) (stage.configureStabilization o link)
      (stage'.configureStabilization o link) := by
  have opened := alike_openStream o.settings link alike
  unfold configureStabilization
  generalize stage.openStream o.settings link = answer,
    stage'.openStream o.settings link = answer' at opened
  rcases opened with ⟨_ | outLink, stage, stage', alike⟩
  · exact ⟨_, _, _, alike⟩
  obtain @⟨options, retiming, s, s', stations⟩ := alike
  cases stations with
  | vacant settings policy previous outs engines =>
    cases o.full <;> exact ⟨_, _, _, options, retiming, .vacant _ _ _ outs engines⟩
  | held settings policy previous outs stopped leases =>
    have size := Lease.outputSize_eq_of_alike leases
    dsimp only
    rw [size]
    split <;> exact ⟨_, _, _, options, retiming, .held _ _ _ outs stopped leases⟩

theorem alike_configure (link : Link)
    (alike : stage.Alike B.toServiceBisimulation G lead stage') :
    Agree (Alike B.toServiceBisimulation G lead) (stage.configure link)
      (stage'.configure link) := by
  unfold configure
  rw [← alike.options]
  split
  · exact alike_openStream _ link alike
  · exact alike_openStream _ link alike
  · exact alike_configureInterpolation _ link alike.clearPrevious
  · exact alike_openStream _ link alike.clearPrevious
  · exact alike_configureStabilization _ link alike.clearPrevious

end Stage

namespace Host

/-- Hosts in the same state around stages that are alike. -/
structure Alike (S : ServiceBisimulation ε π ε' π') (G : SinkBisimulation σ σ') (lead : Lead)
    (h : Host ε π σ) (h' : Host ε' π' σ') : Prop where
  stage : h.stage.Alike S G lead h'.stage
  state : h.state = h'.state
  framesIn : h.framesIn = h'.framesIn + lead.framesIn
  failures : h.submissionFailures = h'.submissionFailures + lead.failures
  drained : h.drained = h'.drained
  failure : h.failure = h'.failure

variable {h : Host ε π σ} {h' : Host ε' π' σ'}

theorem Alike.out (alike : h.Alike S G lead h') : h.out.Alike G lead h'.out :=
  alike.stage.stations.out

theorem Alike.withOut (alike : h.Alike S G lead h') {out : Outlet σ} {out' : Outlet σ'}
    (outs : out.Alike G lead out') : (h.withOut out).Alike S G lead (h'.withOut out') := by
  obtain ⟨stages, state, framesIn, failures, drained, failure⟩ := alike
  rcases h with ⟨stage, _, _, _, _, _⟩
  rcases h' with ⟨stage', _, _, _, _, _⟩
  obtain ⟨options, retiming, stations⟩ := stages
  exact ⟨⟨options, retiming, stations.withOut outs⟩, state, framesIn, failures, drained, failure⟩

theorem Alike.withPool (alike : h.Alike S G lead h') {pool pool' : Pool}
    (ahead : pool.live = pool'.live + lead.live) :
    (h.withPool pool).Alike S G lead (h'.withPool pool') :=
  alike.withOut { alike.out with live := ahead }

theorem Alike.close (alike : h.Alike S G lead h') : h.close.Alike S G lead h'.close :=
  { alike with stage := alike.stage.close }

theorem alike_takeFrame (frame : Frame) (alike : h.Alike S G lead h') :
    Agree (Alike S G lead) (h.takeFrame frame) (h'.takeFrame frame) := by
  obtain ⟨stages, state, framesIn, failures, drained, failure⟩ := alike
  have taken := Stage.alike_accept frame stages
  have counted : h.framesIn + 1 = h'.framesIn + 1 + lead.framesIn := by omega
  unfold takeFrame
  dsimp only
  generalize h.stage.accept frame = answer, h'.stage.accept frame = answer' at taken
  rcases taken with ⟨cause | _, stage, stage', stages⟩
  · refine ⟨_, _, _, stages, state, counted, ?_, drained, failure⟩
    dsimp only
    split
    · omega
    · exact failures
  · exact ⟨_, _, _, stages, state, counted, failures, drained, failure⟩

theorem alike_finish (alike : h.Alike S G lead h') :
    Agree (Alike S G lead) h.finish h'.finish := by
  have drains := Stage.alike_drain alike.stage
  unfold finish
  generalize h.stage.drain = answer, h'.stage.drain = answer' at drains
  rcases drains with ⟨cause | report, stage, stage', stages⟩
  · exact ⟨_, _, _, stages, rfl, alike.framesIn, alike.failures, alike.drained, rfl⟩
  · have ended : Alike S G lead { h with stage, state := .closed, drained := some report }
        { h' with stage := stage', state := .closed, drained := some report } :=
      ⟨stages, rfl, alike.framesIn, alike.failures, rfl, alike.failure⟩
    dsimp only
    generalize Host.mk stage .closed h.framesIn h.submissionFailures (some report) h.failure = h,
      Host.mk stage' .closed h'.framesIn h'.submissionFailures (some report) h'.failure = h'
      at ended
    have told := Outlet.alike_endStream ended.out
    generalize h.out.endStream = answer, h'.out.endStream = answer' at told
    rcases told with ⟨result, out, out', outs⟩
    exact ⟨_, _, _, ended.withOut outs⟩

variable {B : EngineBisimulation ε π ε' π'}

theorem alike_configure (link : Link) (alike : h.Alike B.toServiceBisimulation G lead h') :
    Agree (Alike B.toServiceBisimulation G lead) (h.configure link) (h'.configure link) := by
  have configured := Stage.alike_configure link alike.stage
  unfold configure
  rw [← alike.stage.options]
  split
  · exact ⟨_, _, _, alike⟩
  generalize h.stage.configure link = answer, h'.stage.configure link = answer' at configured
  rcases configured with ⟨cause | outLink, stage, stage', stages⟩
  · exact ⟨_, _, _, { alike with stage := stages }⟩
  · have opened : Alike B.toServiceBisimulation G lead
        { h with stage, state := .streaming, drained := none, failure := none }
        { h' with stage := stage', state := .streaming, drained := none, failure := none } :=
      ⟨stages, rfl, alike.framesIn, alike.failures, rfl, rfl⟩
    exact ⟨_, _, _, opened.withOut (opened.out.setLink outLink)⟩

end Host

/-- Sources that supply the same whether or not `live` more frames are alive. -/
def Source.Blind (ρ : Type) [Source ρ] (live : Int) : Prop :=
  ∀ (source : ρ) (pool pool' : Pool), pool.live = pool'.live + live →
    Agree (fun x y => x.1 = y.1 ∧ x.2.live = y.2.live + live) (Source.next source pool)
      (Source.next source pool')

theorem Source.blind_zero (ρ : Type) [Source ρ] : Source.Blind ρ 0 := by
  rintro source ⟨live⟩ ⟨live'⟩ same
  obtain rfl : live = live' := by simpa using same
  exact ⟨_, _, _, rfl, (Int.add_zero _).symm⟩

variable {ρ κ : Type} [Source ρ]

theorem Host.alike_request (blind : Source.Blind ρ lead.live) {h : Host ε π σ}
    {h' : Host ε' π' σ'} (alike : h.Alike S G lead h') (source : ρ) :
    Agree (fun x y => x.1.Alike S G lead y.1 ∧ x.2 = y.2) (h.request source)
      (h'.request source) := by
  have supplies := blind source _ _ alike.out.live
  unfold request
  rw [alike.state]
  split
  · exact ⟨_, _, _, alike, rfl⟩
  · rw [alike.failure]
    exact ⟨_, _, _, alike, rfl⟩
  all_goals
    generalize Source.next source h.out.pool = answer,
      Source.next source h'.out.pool = answer' at supplies
    rcases supplies with ⟨_ | _ | frame, ⟨rest, pool⟩, ⟨_, pool'⟩, rfl, ahead⟩
    · exact ⟨_, _, _, alike.withPool ahead, rfl⟩
    all_goals
      have pooled := alike.withPool ahead
      unfold withPool at pooled
      dsimp only
      generalize h.withOut { h.out with pool } = h, h'.withOut { h'.out with pool := pool' } = h'
        at pooled
    · have finished := Host.alike_finish pooled
      generalize h.finish = answer, h'.finish = answer' at finished
      rcases finished with ⟨result, h, h', alike⟩
      exact ⟨_, _, _, alike, rfl⟩
    · have taken := Host.alike_takeFrame frame pooled
      generalize h.takeFrame frame = answer, h'.takeFrame frame = answer' at taken
      rcases taken with ⟨result, h, h', alike⟩
      exact ⟨_, _, _, alike, rfl⟩

namespace World

/-- Hosts that are alike, each beside the same source. -/
structure Alike (S : ServiceBisimulation ε π ε' π') (G : SinkBisimulation σ σ') (lead : Lead)
    (w : World ε π σ ρ) (w' : World ε' π' σ' ρ) : Prop where
  host : w.host.Alike S G lead w'.host
  source : w.source = w'.source

variable {B : EngineBisimulation ε π ε' π'}
  {act : κ → Surroundings ε σ ρ → Surroundings ε σ ρ}
  {act' : κ → Surroundings ε' σ' ρ → Surroundings ε' σ' ρ}

theorem alike_perform (blind : Source.Blind ρ lead.live)
    (events : ∀ event (w : World ε π σ ρ) (w' : World ε' π' σ' ρ),
      w.Alike B.toServiceBisimulation G lead w' →
      (w.withSurroundings (act event w.surroundings)).Alike B.toServiceBisimulation G lead
        (w'.withSurroundings (act' event w'.surroundings)))
    {w : World ε π σ ρ} {w' : World ε' π' σ' ρ}
    (alike : w.Alike B.toServiceBisimulation G lead w') (call : Call κ) :
    Agree (Alike B.toServiceBisimulation G lead) (w.perform act call) (w'.perform act' call) := by
  cases call with
  | configure link =>
    have configured := Host.alike_configure link alike.host
    simp only [perform]
    generalize w.host.configure link = answer, w'.host.configure link = answer' at configured
    rcases configured with ⟨result, h, h', hosts⟩
    exact ⟨_, _, _, hosts, alike.source⟩
  | request =>
    have requested := Host.alike_request blind alike.host w.source
    simp only [perform, ← alike.source]
    generalize w.host.request w.source = answer, w'.host.request w.source = answer' at requested
    rcases requested with ⟨result, ⟨h, source⟩, ⟨h', source'⟩, hosts, sources⟩
    exact ⟨_, _, _, hosts, sources⟩
  | close => exact ⟨_, _, _, alike.host.close, alike.source⟩
  | outside event => exact ⟨_, _, _, events event w w' alike⟩

theorem alike_run (blind : Source.Blind ρ lead.live)
    (events : ∀ event (w : World ε π σ ρ) (w' : World ε' π' σ' ρ),
      w.Alike B.toServiceBisimulation G lead w' →
      (w.withSurroundings (act event w.surroundings)).Alike B.toServiceBisimulation G lead
        (w'.withSurroundings (act' event w'.surroundings)))
    {w : World ε π σ ρ} {w' : World ε' π' σ' ρ}
    (alike : w.Alike B.toServiceBisimulation G lead w') (calls : List (Call κ)) :
    w.answers act calls = w'.answers act' calls ∧
      (w.run act calls).Alike B.toServiceBisimulation G lead (w'.run act' calls) := by
  induction calls generalizing w w' with
  | nil => exact ⟨rfl, alike⟩
  | cons call rest ih =>
    have performed := alike_perform blind events alike call
    simp only [answers_cons, run_cons]
    generalize w.perform act call = answer, w'.perform act' call = answer' at performed
    rcases performed with ⟨result, w, w', alike⟩
    obtain ⟨same, later⟩ := ih alike
    exact ⟨congrArg (result :: ·) same, later⟩

end World

end station

end FrameRelay
