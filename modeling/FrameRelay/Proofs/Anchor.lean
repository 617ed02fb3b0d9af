import FrameRelay.Engine.Scripted
import FrameRelay.Proofs.Fixtures
import FrameRelay.Proofs.Slot
import Mathlib.Data.List.Induction

/-! The anchor of a stream: outputs that a drain brings out are sent with the frame in the slot, and
are thrown away without one. A processor that has taken frames has its anchor in the slot, save
where an interpolation was given a link without a spacing: that empties the slot and leaves the
processor open. -/

namespace FrameRelay

/-- The stage finds no spacing for the frames of a link, and refuses it before it retires its open
stream. -/
def StageOptions.Unspaced (link : Link) : StageOptions → Prop
  | .interpolation o => (Retiming.compute o.slowmo o.fps link.frameRate).isOk = false
  | _ => False

section
variable {ε π σ ρ κ : Type}

namespace Station

/-- How many frames the open processor has taken; none without a processor. -/
def taken (s : Station ε π σ) : Nat := (s.session.handle.map Handle.submitted).getD 0

/-- The open processor has taken frames, and there is nothing to anchor its outputs on. -/
def Stranded (s : Station ε π σ) : Prop := 0 < s.taken ∧ s.previous = none

theorem taken_of_vacant {s : Station ε π σ} (vacant : s.session.handle = none) : s.taken = 0 := by
  simp only [taken, vacant, Option.map, Option.getD]

theorem Stranded.taken_ne {s : Station ε π σ} (stranded : s.Stranded) : s.taken ≠ 0 :=
  Nat.ne_of_gt stranded.1

variable [Engine ε π]

theorem taken_openStream (settings : StreamSettings) (link : Link) (s : Station ε π σ) :
    (s.openStream settings link).2.taken = 0 := by
  have vacant := handle_close s
  simp only [openStream]
  rcases settings.resolve (Engine.offer s.close.engine) link with _ | ⟨spec, outLink⟩
  · exact taken_of_vacant vacant
  · dsimp only
    rcases Engine.create spec s.close.engine with ⟨_ | _, engine⟩
    · exact taken_of_vacant vacant
    · rfl

theorem taken_submit_of_error {frame : Frame} {s s' : Station ε π σ} {cause : StageError}
    (rejected : s.submit frame = (.error cause, s')) : s'.taken = s.taken := by
  rcases s with ⟨engine, ⟨_ | handle, settings, policy⟩, previous, out⟩
  · cases rejected
    rfl
  · have process : (Lease.process frame ⟨engine, handle⟩).1.isOk ∨
        (Lease.process frame ⟨engine, handle⟩).2.handle.submitted = handle.submitted := by
      unfold Lease.process
      split
      · exact .inr rfl
      · rcases Engine.process frame handle.processor engine with ⟨_ | _, p, e⟩
        · exact .inr rfl
        · exact .inl rfl
    simp only [submit, Lease.submit] at rejected
    generalize Lease.process frame ⟨engine, handle⟩ = answer at process rejected
    rcases answer with ⟨_ | _, l⟩
    · cases rejected
      exact process.resolve_left Bool.false_ne_true
    · cases rejected

variable [Sink σ]

theorem anchor_synthesize (frame : Frame) (s : Station ε π σ) :
    (s.synthesize frame).2.previous.isSome ∨
      (s.synthesize frame).2.taken = s.taken ∧ (s.synthesize frame).2.previous = s.previous := by
  have slot := previous_submit frame s
  cases submitted : s.submit frame with
  | mk result s' =>
  rw [submitted] at slot
  simp only [synthesize, submitted]
  cases result with
  | error cause => exact .inr ⟨taken_submit_of_error submitted, slot⟩
  | ok value =>
    left
    rw [(emission_addOutput frame (s'.keepPrevious frame)).2]
    rfl

end Station

namespace Stage
variable [Engine ε π]

theorem anchor_configure (link : Link) {stage : Stage ε π σ}
    (synthesizes : stage.options.synthesizes = true) :
    (stage.configure link).2.station.taken = 0 ∨
      stage.options.Unspaced link ∧
        (stage.configure link).2.station = stage.station.clearPrevious := by
  rcases stage with ⟨_ | _ | o | o | o, station, retiming⟩
  · cases synthesizes
  · cases synthesizes
  · simp only [configure, configureInterpolation]
    cases spaced : Retiming.compute o.slowmo o.fps link.frameRate with
    | error cause =>
      right
      simp only [StageOptions.Unspaced, spaced]
      exact ⟨rfl, rfl⟩
    | ok retiming' =>
      left
      have opened := Station.taken_openStream (o.settings retiming') link station.clearPrevious
      simp only [clearPrevious, openStream]
      generalize station.clearPrevious.openStream (o.settings retiming') link = answer at opened ⊢
      rcases answer with ⟨_ | _, s⟩ <;> exact opened
  · exact .inl (Station.taken_openStream _ link station.clearPrevious)
  · left
    have opened := Station.taken_openStream o.settings link station.clearPrevious
    simp only [configure, configureStabilization, clearPrevious, openStream]
    generalize station.clearPrevious.openStream o.settings link = answer at opened ⊢
    rcases answer with ⟨_ | _, s⟩
    · exact opened
    · dsimp only
      split <;> exact opened

end Stage

namespace Host
variable [Engine ε π]

theorem stranded_configure {link : Link} {h : Host ε π σ}
    (synthesizes : h.stage.options.synthesizes = true)
    (stranded : (h.configure link).2.station.Stranded) :
    (h.configure link).2.station.taken = h.station.taken ∧ (h.station.previous = none ∨
      link.format = h.stage.options.format ∧ h.stage.options.Unspaced link) := by
  by_cases matched : link.format = h.stage.options.format
  · have anchor := Stage.anchor_configure link synthesizes
    have same : (h.configure link).2.station.taken = (h.stage.configure link).2.station.taken := by
      simp only [configure, matched, ne_eq, not_true_eq_false, if_false]
      rcases h.stage.configure link with ⟨_ | _, stage⟩ <;> rfl
    rw [same]
    rcases anchor with none_taken | ⟨unspaced, cleared⟩
    · exact absurd (same.trans none_taken) stranded.taken_ne
    · rw [cleared]
      exact ⟨rfl, .inr ⟨matched, unspaced⟩⟩
  · have refused : (h.configure link).2 = h := by
      simp only [configure, ne_eq, matched, not_false_eq_true, if_true]
    rw [refused] at stranded ⊢
    exact ⟨rfl, .inl stranded.2⟩

variable [Sink σ]

variable [Source ρ]

theorem stranded_request {h : Host ε π σ} (synthesizes : h.stage.options.synthesizes = true)
    {source : ρ} (stranded : (h.request source).2.1.station.Stranded) :
    (h.request source).2.1.station.taken = h.station.taken ∧ h.station.previous = none := by
  have pulls := h.pulls_request source
  generalize h.request source = answer at pulls stranded ⊢
  cases pulls with
  | ended state => exact ⟨rfl, stranded.2⟩
  | repeated state => exact ⟨rfl, stranded.2⟩
  | faulted pulling supplied => exact ⟨rfl, stranded.2⟩
  | @took frame source' pool pulling supplied =>
    have anchor := (h.withPool pool).station.anchor_synthesize frame
    have accepted : ((h.withPool pool).takeFrame frame).2.station =
        ((h.withPool pool).station.synthesize frame).2 := by
      obtain ⟨failures, taken⟩ := takeFrame_eq frame (h.withPool pool)
      have synthesizes' : (h.withPool pool).stage.options.synthesizes = true := synthesizes
      simp only [taken, Stage.accept, synthesizes', if_true]
    simp only [accepted] at stranded ⊢
    rcases anchor with filled | ⟨same, slot⟩
    · rw [stranded.2] at filled
      cases filled
    · exact ⟨same, slot.symm.trans stranded.2⟩
  | finished pulling supplied =>
    exact absurd (Station.taken_of_vacant (vacant_finish _)) stranded.taken_ne

end Host

namespace World
variable [Engine ε π] [Sink σ] [Source ρ] (act : κ → Surroundings ε σ ρ → Surroundings ε σ ρ)

/-- A call that leaves a processor stranded found it so, or is the refusal that empties the slot.
The processor is the same and takes nothing meanwhile. -/
theorem stranded_perform {w : World ε π σ ρ}
    (synthesizes : w.host.stage.options.synthesizes = true) {call : Call κ}
    (stranded : (w.perform act call).2.host.station.Stranded) :
    (w.perform act call).2.host.station.taken = w.host.station.taken ∧
      (w.host.station.previous = none ∨ ∃ link, call = .configure link ∧
        link.format = w.host.stage.options.format ∧ w.host.stage.options.Unspaced link) := by
  cases call with
  | configure link =>
    obtain ⟨same, found | refused⟩ := Host.stranded_configure synthesizes stranded
    · exact ⟨same, .inl found⟩
    · exact ⟨same, .inr ⟨link, rfl, refused⟩⟩
  | request =>
    obtain ⟨same, found⟩ := Host.stranded_request synthesizes stranded
    exact ⟨same, .inl found⟩
  | close => exact absurd (Station.taken_of_vacant w.host.advances_close.2) stranded.taken_ne
  | outside event => exact ⟨rfl, .inl stranded.2⟩

/-- The refusal that strands a processor, in the middle of a history: the stage finds no spacing for
the link, and has had an empty slot ever since while the processor took nothing. -/
structure StrandsAt (start : World ε π σ ρ) (link : Link) (before after : List (Call κ)) :
    Prop where
  format : link.format = start.host.stage.options.format
  unspaced : start.host.stage.options.Unspaced link
  taken : 0 < (start.run act before).host.station.taken
  since (count : Nat) :
    let s := (start.run act (before ++ .configure link :: after.take count)).host.station
    s.taken = (start.run act before).host.station.taken ∧ s.previous = none

theorem StrandsAt.stranded {start : World ε π σ ρ} {link : Link} {before after : List (Call κ)}
    (strands : start.StrandsAt act link before after) :
    (start.run act (before ++ .configure link :: after)).host.station.Stranded := by
  obtain ⟨same, empty⟩ := strands.since after.length
  rw [List.take_length] at same empty
  exact ⟨same ▸ strands.taken, empty⟩

theorem StrandsAt.append_singleton {start : World ε π σ ρ} {link : Link}
    {before after : List (Call κ)} (strands : start.StrandsAt act link before after)
    {call : Call κ}
    (stranded :
      (start.run act (before ++ .configure link :: (after ++ [call]))).host.station.Stranded)
    (same : (start.run act (before ++ .configure link :: (after ++ [call]))).host.station.taken =
      (start.run act (before ++ .configure link :: after)).host.station.taken) :
    start.StrandsAt act link before (after ++ [call]) := by
  refine ⟨strands.format, strands.unspaced, strands.taken, fun count => ?_⟩
  by_cases inside : count ≤ after.length
  · rw [List.take_append_of_le_length inside]
    exact strands.since count
  · rw [List.take_of_length_le (by simp; omega)]
    have last := (strands.since after.length).1
    rw [List.take_length] at last
    exact ⟨same.trans last, stranded.2⟩

/-- A processor that is stranded after a history was stranded by one refusal. The induction takes
the calls off the end. -/
theorem exists_strandsAt {start : World ε π σ ρ}
    (synthesizes : start.host.stage.options.synthesizes = true)
    (anchored : ¬ start.host.station.Stranded) {calls : List (Call κ)}
    (stranded : (start.run act calls).host.station.Stranded) :
    ∃ link before after, calls = before ++ .configure link :: after ∧
      start.StrandsAt act link before after := by
  induction calls using List.reverseRecOn with
  | nil => exact absurd stranded anchored
  | append_singleton calls call ih =>
    have options := options_run act start calls
    have last : start.run act (calls ++ [call]) = ((start.run act calls).perform act call).2 :=
      run_append act start calls [call]
    have once := stranded_perform act (options ▸ synthesizes) (last ▸ stranded)
    rw [← last, options] at once
    obtain ⟨same, found | ⟨link, rfl, format, unspaced⟩⟩ := once
    · obtain ⟨link, before, after, split, strands⟩ := ih ⟨same ▸ stranded.1, found⟩
      subst split
      rw [List.append_assoc] at stranded same
      exact ⟨link, before, after ++ [call], List.append_assoc _ _ _,
        strands.append_singleton act stranded same⟩
    · refine ⟨link, calls, [], rfl, format, unspaced, same ▸ stranded.1, fun count => ?_⟩
      rw [List.take_nil]
      exact ⟨same, stranded.2⟩

/-- After any history of a stage that synthesizes, whatever engine, sink and source do in each call
and outside of them: an open processor that has taken frames is without an anchor exactly if an
interpolation was reconfigured on a link without a spacing while that processor was open and has
taken no frame since. In every other case the drain passes its outputs on. -/
theorem stranded_iff_strandsAt {options : StageOptions} (synthesizes : options.synthesizes = true)
    (engine : ε) (policy : DrainPolicy) (sink : σ) (pool : Pool) (source : ρ)
    (calls : List (Call κ)) :
    let start : World ε π σ ρ := fresh options engine policy sink pool source
    let s := (start.run act calls).host.station
    (s.Stranded ↔ ∃ link before after, calls = before ++ .configure link :: after ∧
      start.StrandsAt act link before after) ∧
    (0 < s.taken → (¬ ∃ link before after, calls = before ++ .configure link :: after ∧
        start.StrandsAt act link before after) →
      ∃ reference, s.previous = some reference ∧
        s.postflight = s.drainAndDestroy fun policy => drain policy (Lease.pass reference)) := by
  intro start s
  have idle : ¬ start.host.station.Stranded := fun stranded => stranded.taken_ne rfl
  have iff_ : s.Stranded ↔ ∃ link before after, calls = before ++ .configure link :: after ∧
      start.StrandsAt act link before after := by
    refine ⟨exists_strandsAt act synthesizes idle, ?_⟩
    rintro ⟨link, before, after, split, strands⟩
    have stranded := strands.stranded
    rw [← split] at stranded
    exact stranded
  refine ⟨iff_, fun some_taken spaced => ?_⟩
  cases slot : s.previous with
  | none => exact absurd (iff_.mp ⟨some_taken, slot⟩) spaced
  | some reference =>
    refine ⟨reference, rfl, ?_⟩
    simp only [Station.postflight, slot]
    rfl

/-- The history of an interpolation whose processor is stranded splits at the refused link. -/
theorem strandsAt_of_unspaced_link :
    let options : StageOptions := .interpolation {}
    let engine : Script := .start { lag := 1 }
    let source : Queue := ⟨[.unpooled 1 1 .rgb48 #[7, 0, 0]], none⟩
    let link : Link := ⟨1, 1, .rgb48, ⟨1, 25⟩, ⟨25, 1⟩, .one⟩
    let start : World Script Unit Recorder Queue :=
      fresh options engine .postflight .empty .empty source
    let act : Empty → Surroundings Script Recorder Queue → Surroundings Script Recorder Queue :=
      fun event => nomatch event
    let calls := [.configure link, .request, .configure { link with frameRate := ⟨0, 1⟩ }]
    options.synthesizes = true ∧ (start.run act calls).host.station.Stranded ∧
      ∃ link before after, calls = before ++ .configure link :: after ∧
        start.StrandsAt act link before after := by
  intro options engine source link start act calls
  have synthesizes : options.synthesizes = true := rfl
  have stranded : (start.run act calls).host.station.Stranded := ⟨by decide, by decide⟩
  have splits :=
    stranded_iff_strandsAt act synthesizes engine .postflight .empty .empty source calls
  subst start
  exact ⟨synthesizes, stranded, splits.1.mp stranded⟩

/-- An interpolation takes one frame, which the engine holds back, and is then given a link without
a frame rate. The link is refused and the processor stays open, but its anchor is gone. -/
theorem unspaced_link_strands :
    let link : Link := ⟨1, 1, .rgb48, ⟨1, 25⟩, ⟨25, 1⟩, .one⟩
    let start : World Script Unit Recorder Queue := fresh (.interpolation {})
      (.start { lag := 1 }) .postflight .empty .empty ⟨[.unpooled 1 1 .rgb48 #[7, 0, 0]], none⟩
    let calls : List (Call Empty) :=
      [.configure link, .request, .configure { link with frameRate := ⟨0, 1⟩ }]
    let w := start.run (fun event => nomatch event) calls
    0 < w.host.station.taken ∧ w.host.station.previous = none := by
  intro link start calls w
  exact ⟨by decide, by decide⟩

end World

end

end FrameRelay
