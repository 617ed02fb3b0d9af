import FrameRelay.Proofs.Emission
import FrameRelay.Proofs.Streaming

/-! What a configuration that succeeds opens on the simulated engine: a new processor whose kernel
is the one that the settings of the stage ask for. The output link has the size of the outputs that
this kernel makes of pictures of the input link. -/

namespace FrameRelay
open Simulated (Processor)

/-- The settings of the stream that a stage opens for a link. -/
def StageOptions.settings? (link : Link) : StageOptions → Outcome StreamSettings
  | .pose o => .ok o.settings
  | .estimation o => .ok o.settings
  | .interpolation o => (Retiming.compute o.slowmo o.fps link.frameRate).map o.settings
  | .upscale o => .ok (o.settings (o.scaleFor link))
  | .stabilization o => .ok o.settings

theorem Retiming.factor_of_compute {slowmo : Float} {target rate : Ratio} {retiming : Retiming}
    (computed : compute slowmo target rate = .ok retiming) : rate.isSpecified = true ∧
      ∃ frameRate, factor? slowmo target rate = .ok (retiming.fpsFactor, frameRate) := by
  unfold compute compute? at computed
  split at computed
  · cases computed
  split at computed
  · cases computed
  next usable =>
  split at computed
  · cases computed
  cases found : factor? slowmo target rate with
  | error fault => simp [found, Except.mapError] at computed
  | ok answer =>
    simp only [found] at computed
    split at computed
    · cases computed
      exact ⟨by simpa using usable, answer.2, rfl⟩
    · cases computed

section station
variable {ε π σ : Type} [Engine ε π]

/-- A stream that was opened: the request was granted, and the rest of the station was kept. -/
structure Station.OpensTo (settings : StreamSettings) (link outLink : Link) (s s' : Station ε π σ) :
    Prop where
  size : outLink = settings.outputLink link
  words : outLink.InWords
  out : s'.out = s.out
  previous : s'.previous = s.previous
  policy : s'.session.policy = s.session.policy
  granted : ∃ model p, settings.verify (Engine.offer s.close.engine) = .ok model ∧
    Engine.create (settings.specFor model link) s.close.engine = (.ok p, s'.engine) ∧
    s'.session.handle = some (.start p (settings.specFor model link).name)

theorem Station.opensTo_openStream {settings : StreamSettings} {link outLink : Link}
    {s s' : Station ε π σ} (opened : s.openStream settings link = (.ok outLink, s')) :
    s.OpensTo settings link outLink s' := by
  have policy := s.advances_close.policy
  unfold openStream at opened
  dsimp only at opened
  cases resolved : settings.resolve (Engine.offer s.close.engine) link with
  | error cause =>
    rw [resolved] at opened
    cases opened
  | ok granted =>
    obtain ⟨spec, sized⟩ := granted
    rw [resolved] at opened
    obtain ⟨model, verified, rfl, rfl, words⟩ := StreamSettings.resolve_eq_ok_iff.mp resolved
    dsimp only at opened
    cases created : Engine.create (settings.specFor model link) s.close.engine with
    | mk result engine =>
      rw [created] at opened
      cases result with
      | error cause => cases opened
      | ok p =>
        cases opened
        exact ⟨rfl, words, s.out_close, s.previous_close, policy, model, p, verified, created, rfl⟩

/-- The size that a stage gives its output link: that of the processor's outputs where it is known
and the stage asks for it. -/
def Stage.outputSize (options : StageOptions) (base : Link) (s : Station ε π σ) : Nat × Nat :=
  match options, s.session.handle with
  | .stabilization o, some handle =>
    if o.full then (base.width, base.height)
    else (Lease.outputSize ⟨s.engine, handle⟩).getD (base.width, base.height)
  | _, _ => (base.width, base.height)

/-- The station that a stage opens its stream on: a stage that synthesizes lets its last frame go
first. -/
def Stage.readied (stage : Stage ε π σ) : Station ε π σ :=
  if stage.options.synthesizes then stage.station.clearPrevious else stage.station

/-- A configuration that succeeds opens the stream of the stage's settings. -/
structure Stage.OpensTo (link outLink : Link) (stage stage' : Stage ε π σ) : Prop where
  options : stage'.options = stage.options
  opened : ∃ settings base, stage.options.settings? link = .ok settings ∧
    stage.readied.OpensTo settings link base stage'.station ∧ outLink.format = base.format ∧
    (outLink.width, outLink.height) = Stage.outputSize stage.options base stage'.station

namespace Stage

theorem opensTo_interpolation {o : InterpolationOptions} {link outLink : Link}
    {station : Station ε π σ} {retiming : Option Retiming} {stage' : Stage ε π σ}
    (configured : configure link ⟨.interpolation o, station, retiming⟩ = (.ok outLink, stage')) :
    OpensTo link outLink ⟨.interpolation o, station, retiming⟩ stage' := by
  simp only [configure, configureInterpolation, clearPrevious, openStream] at configured
  cases computed : Retiming.compute o.slowmo o.fps link.frameRate with
  | error cause =>
    rw [computed] at configured
    cases configured
  | ok spacing =>
    rw [computed] at configured
    dsimp only at configured
    cases opened : station.clearPrevious.openStream (o.settings spacing) link with
    | mk answer station' =>
      rw [opened] at configured
      cases answer with
      | error cause => cases configured
      | ok base =>
        cases configured
        refine ⟨rfl, o.settings spacing, base, ?_, Station.opensTo_openStream opened, rfl, rfl⟩
        simp only [StageOptions.settings?, computed, Except.map]

theorem opensTo_stabilization {o : StabilizationOptions} {link outLink : Link}
    {station : Station ε π σ} {retiming : Option Retiming} {stage' : Stage ε π σ}
    (configured : configure link ⟨.stabilization o, station, retiming⟩ = (.ok outLink, stage')) :
    OpensTo link outLink ⟨.stabilization o, station, retiming⟩ stage' := by
  simp only [configure, configureStabilization, clearPrevious, openStream] at configured
  cases opened : station.clearPrevious.openStream o.settings link with
  | mk answer station' =>
    rw [opened] at configured
    cases answer with
    | error cause => cases configured
    | ok base =>
      have opens := Station.opensTo_openStream opened
      obtain ⟨model, p, _, _, there⟩ := opens.granted
      simp only [there] at configured
      cases full : o.full with
      | true =>
        simp only [full] at configured
        cases configured
        exact ⟨rfl, o.settings, outLink, rfl, opens, rfl, by simp [outputSize, there, full]⟩
      | false =>
        simp only [full] at configured
        split at configured
        next width height _ known =>
          cases configured
          exact ⟨rfl, o.settings, base, rfl, opens, rfl, by simp [outputSize, there, full, known]⟩
        next unknown =>
          cases configured
          refine ⟨rfl, o.settings, outLink, rfl, opens, rfl, ?_⟩
          cases known : Lease.outputSize ⟨station'.engine,
              Handle.start p (o.settings.specFor model link).name⟩ with
          | none => simp [outputSize, there, full, known]
          | some size => exact absurd known (unknown size.1 size.2 rfl)

theorem opensTo_configure {link outLink : Link} {stage stage' : Stage ε π σ}
    (configured : stage.configure link = (.ok outLink, stage')) :
    stage.OpensTo link outLink stage' := by
  obtain ⟨options, station, retiming⟩ := stage
  -- The other three stages open a stream of fixed settings and leave its link alone.
  have plain {settings : StreamSettings} {s : Station ε π σ}
      (same : (⟨options, station, retiming⟩ : Stage ε π σ).readied = s)
      (asked : options.settings? link = .ok settings)
      (size : ∀ s' : Station ε π σ, outputSize options outLink s' = (outLink.width, outLink.height))
      (answer : openStream settings link ⟨options, s, retiming⟩ = (.ok outLink, stage')) :
      OpensTo link outLink ⟨options, station, retiming⟩ stage' := by
    simp only [openStream, Prod.mk.injEq] at answer
    obtain ⟨opened, rfl⟩ := answer
    refine ⟨rfl, settings, outLink, asked, ?_, rfl, (size _).symm⟩
    rw [same]
    exact Station.opensTo_openStream (Prod.ext opened rfl)
  cases options with
  | pose o => exact plain rfl rfl (fun _ => rfl) configured
  | estimation o => exact plain rfl rfl (fun _ => rfl) configured
  | interpolation o => exact opensTo_interpolation configured
  | upscale o => exact plain rfl rfl (fun _ => rfl) configured
  | stabilization o => exact opensTo_stabilization configured

end Stage

end station

namespace Simulated

theorem scales_catalog {model : Model} (listed : model ∈ catalog) {scale : Nat}
    (offered : scale ∈ model.scales) : 0 < scale ∧ (model.kind ≠ .upscaling → scale = 1) := by
  simp only [catalog, List.mem_cons, List.not_mem_nil, or_false] at listed
  rcases listed with rfl | rfl | rfl | rfl | rfl | rfl | rfl | rfl | rfl | rfl <;>
    simp_all <;> omega

theorem scale_of_verify {settings : StreamSettings} {engine : Simulated} {model : Model}
    (verified : settings.verify engine.offer = .ok model) :
    0 < settings.scale ∧ (settings.kind ≠ .upscaling → settings.scale = 1) := by
  obtain ⟨chosen, scaled⟩ := StreamSettings.of_verify verified
  have offered : settings.scale ∈ model.scales := by
    by_contra missing
    simp [Model.checkScale, missing] at scaled
  obtain ⟨member, kind, -⟩ := Offer.of_checkModel chosen
  rw [← kind]
  exact scales_catalog member offered

end Simulated

theorem StageOptions.kind_of_settings? {options : StageOptions} {link : Link}
    {settings : StreamSettings} (asked : options.settings? link = .ok settings) :
    (options.synthesizes = true → settings.kind = .upscaling ∨
      settings.kind = .frameInterpolation ∨ settings.kind = .stabilization) ∧
    (settings.kind = .stabilization →
      ∃ o, options = .stabilization o ∧ settings = o.settings) := by
  cases options with
  | pose o =>
    cases asked
    exact ⟨fun flag => (by cases flag), fun kind => by cases kind⟩
  | estimation o =>
    cases asked
    exact ⟨fun flag => (by cases flag), fun kind => by cases kind⟩
  | interpolation o =>
    simp only [settings?] at asked
    cases computed : Retiming.compute o.slowmo o.fps link.frameRate with
    | error cause => simp [computed, Except.map] at asked
    | ok spacing =>
      simp only [computed, Except.map, Except.ok.injEq] at asked
      subst asked
      exact ⟨fun _ => .inr (.inl rfl), fun kind => by cases kind⟩
  | upscale o =>
    cases asked
    exact ⟨fun _ => .inl rfl, fun kind => by cases kind⟩
  | stabilization o =>
    cases asked
    exact ⟨fun _ => .inr (.inr rfl), fun _ => ⟨o, rfl, rfl⟩⟩

section simulated
variable {σ : Type} {book : List Frame → σ → Prop} {link outLink : Link}

/-- A stream that has just begun on the simulated engine, with a kernel for its settings. -/
structure Host.Begins (link outLink : Link) (book : List Frame → σ → Prop)
    (settings : StreamSettings) (spec : ProcessorSpec) (kernel : Kernel)
    (h h' : Host Simulated Processor σ) : Prop where
  asked : h.stage.options.settings? link = .ok settings
  granted : ∃ model, spec = settings.specFor model link
  built : Kernel.build spec = .ok kernel
  options : h'.stage.options = h.stage.options
  streams : h'.Streams ⟨link.width, link.height, Kernel.Stabilization.cropOf? spec,
    h.stage.station.engine.rejectEvery, outLink, book, h.out.pushed⟩ h.stage.options.synthesizes
    kernel 0 []
  makes : h.stage.options.synthesizes = true →
    kernel.Makes link.width link.height outLink.width outLink.height
  rows : 0 < link.height → 0 < outLink.height
  framesIn : h'.framesIn = h.framesIn
  submissionFailures : h'.submissionFailures = h.submissionFailures

theorem Stage.outputSize_eq_sizeFor {options : StageOptions} {settings : StreamSettings}
    (asked : options.settings? link = .ok settings) (model : Model) {p : Processor} {name : String}
    (size : p.outputSize = Kernel.Stabilization.cropOf? (settings.specFor model link))
    {s : Station Simulated Processor σ} (there : s.session.handle = some (.start p name)) :
    outputSize options (settings.outputLink link) s =
      Kernel.sizeFor (settings.specFor model link) := by
  have plain (other : settings.kind ≠ .stabilization) :
      Kernel.sizeFor (settings.specFor model link) =
        (link.width * settings.scale, link.height * settings.scale) := by
    simp [Kernel.sizeFor, Kernel.Stabilization.cropOf?, StreamSettings.specFor, other]
  cases options with
  | pose o =>
    cases asked
    exact (plain fun kind => by cases kind).symm
  | estimation o =>
    cases asked
    exact (plain fun kind => by cases kind).symm
  | interpolation o =>
    have other := (StageOptions.kind_of_settings? asked).2
    exact (plain fun same => by simpa using other same).symm
  | upscale o =>
    cases asked
    exact (plain fun kind => by cases kind).symm
  | stabilization o =>
    cases asked
    have known : Lease.outputSize (⟨s.engine, .start p name⟩ : Lease Simulated Processor) =
        Kernel.Stabilization.cropOf? (o.settings.specFor model link) := size
    simp only [outputSize, there, known, Kernel.sizeFor]
    by_cases full : o.full = true
    · have uncut : Kernel.Stabilization.cropOf? (o.settings.specFor model link) = none := by
        simp [Kernel.Stabilization.cropOf?, StreamSettings.specFor,
          StabilizationOptions.settings, full]
      simp only [full, if_true, uncut]
      rfl
    · rw [if_neg full]
      rfl

theorem Host.begins_of_configure {h h' : Host Simulated Processor σ}
    (configured : h.configure link = (.ok outLink, h'))
    (patient : 1 ≤ h.stage.station.session.policy.maxStalledPolls)
    (blank : book [] h.out.sink) :
    ∃ settings spec kernel, h.Begins link outLink book settings spec kernel h' := by
  have links := h.links_configure link
  rw [configured] at links
  cases links with
  | @linked outLink stage answer =>
    obtain ⟨options, settings, base, asked, opens, -, size⟩ := Stage.opensTo_configure answer
    obtain ⟨model, p, verified, created, there⟩ := opens.granted
    obtain ⟨kernel, built, rfl⟩ := Processor.start_of_create (congrArg Prod.fst created)
    have config := Simulated.config_of_advances h.stage.readied.advances_close
    have kept : h.stage.readied.engine = h.stage.station.engine ∧
        h.stage.readied.session.policy = h.stage.station.session.policy ∧
        h.stage.readied.out.sink = h.out.sink ∧ h.stage.readied.out.pushed = h.out.pushed := by
      unfold Stage.readied
      split <;> exact ⟨rfl, rfl, rfl, rfl⟩
    obtain ⟨engine, policy, sink, pushed⟩ := kept
    rw [engine] at config
    have rejectEvery : h.stage.readied.close.engine.rejectEvery =
        h.stage.station.engine.rejectEvery := congrArg Prod.snd config
    obtain ⟨scaled, unscaled⟩ := Simulated.scale_of_verify verified
    have sized := Stage.outputSize_eq_sizeFor asked model rfl there
    rw [← opens.size, ← size] at sized
    rw [rejectEvery] at there
    refine ⟨settings, settings.specFor model link, kernel, asked, ⟨model, rfl⟩, built, options,
      ⟨rfl, congrArg StageOptions.synthesizes options, ⟨_, there, rfl, rfl⟩, ?_,
        fun _ => Kernel.still_build built, rfl, rfl, ?_, ?_⟩, fun synthesizes => ?_,
      fun rows => ?_, rfl, rfl⟩
    · have same : stage.station.session.policy = h.stage.station.session.policy :=
        opens.policy.trans policy
      exact same ▸ patient
    · have same : stage.station.out.sink = h.out.sink := opens.out ▸ sink
      exact same ▸ blank
    · exact (congrArg Outlet.pushed opens.out).trans pushed
    · have words : (settings.outputLink link).InWords := opens.size ▸ opens.words
      have makes := Kernel.makes_build built
        ((StageOptions.kind_of_settings? asked).1 synthesizes) scaled unscaled words
      rwa [← sized] at makes
    · have positive : 0 < (Kernel.sizeFor (settings.specFor model link)).2 :=
        Kernel.sizeFor_pos rows scaled
      rwa [← sized] at positive

end simulated

end FrameRelay
