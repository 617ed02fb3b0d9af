import FrameRelay.Stage.Run

/-! What each call of a host can do, case by case, with all that the cases say. -/

namespace FrameRelay
variable {ε π σ ρ : Type} [Engine ε π]

theorem Station.handle_close (s : Station ε π σ) : s.close.session.handle = none := by
  rcases s with ⟨engine, ⟨_ | handle, settings, policy⟩, previous, out⟩ <;> rfl

/-- What a configuration does to a station: at most it lets the last frame go and opens a stream,
in this order. The flag says whether it succeeds, which it does only by opening one. -/
inductive Station.Configures (link : Link) : Bool → Station ε π σ → Station ε π σ → Prop where
  | left (s : Station ε π σ) : Configures link false s s
  | opened (settings : StreamSettings) (s : Station ε π σ) :
    Configures link (s.openStream settings link).1.isOk s (s.openStream settings link).2
  | cleared {succeeds : Bool} {s s' : Station ε π σ}
    (later : Configures link succeeds s.clearPrevious s') : Configures link succeeds s s'

/-- The size of the frames fits the words for it when it is scaled. -/
def ProcessorSpec.InWords (spec : ProcessorSpec) : Prop :=
  spec.width * spec.scale < Number.shortLimit ∧ spec.height * spec.scale < Number.shortLimit

/-- The session holds a new handle, on a processor that was created for frames of the link. -/
def Station.Opened (link : Link) (s : Station ε π σ) : Prop :=
  ∃ (spec : ProcessorSpec) (e : ε) (p : π), (spec.width = link.width ∧ spec.height = link.height) ∧
    spec.InWords ∧ Engine.create spec e = (.ok p, s.engine) ∧
    s.session.handle = some (.start p spec.name)

theorem Station.opened_openStream {settings : StreamSettings} {link : Link} {s : Station ε π σ}
    (succeeds : (s.openStream settings link).1.isOk = true) :
    (s.openStream settings link).2.Opened link := by
  unfold openStream at succeeds ⊢
  dsimp only at succeeds ⊢
  cases resolved : settings.resolve (Engine.offer s.close.engine) link with
  | error cause =>
    rw [resolved] at succeeds
    cases succeeds
  | ok granted =>
    obtain ⟨spec, outLink⟩ := granted
    rw [resolved] at succeeds
    obtain ⟨model, -, rfl, rfl, words⟩ := StreamSettings.resolve_eq_ok_iff.mp resolved
    dsimp only at succeeds ⊢
    cases created : Engine.create (settings.specFor model link) s.close.engine with
    | mk result engine =>
      rcases result with cause | p
      · rw [created] at succeeds
        cases succeeds
      · exact ⟨settings.specFor model link, _, p, ⟨rfl, rfl⟩, words, created, rfl⟩

theorem Station.opened_of_configures {link : Link} {succeeds : Bool} {s s' : Station ε π σ}
    (configures : s.Configures link succeeds s') (success : succeeds = true) : s'.Opened link := by
  induction configures with
  | left s => cases success
  | opened settings s => exact opened_openStream success
  | cleared _ ih => exact ih success

namespace Stage

/-- A configuration of the stage with its answer and what is left of the stage. -/
def Configures (link : Link) (stage : Stage ε π σ) (answer : Outcome Link × Stage ε π σ) : Prop :=
  stage.station.Configures link answer.1.isOk answer.2.station ∧ answer.2.options = stage.options

theorem configures_openStream (settings : StreamSettings) (link : Link) (stage : Stage ε π σ) :
    stage.Configures link (stage.openStream settings link) := ⟨.opened settings _, rfl⟩

theorem configures_clearPrevious {link : Link} {stage : Stage ε π σ}
    {answer : Outcome Link × Stage ε π σ} (later : stage.clearPrevious.Configures link answer) :
    stage.Configures link answer := ⟨.cleared later.1, later.2⟩

theorem configures_interpolation (o : InterpolationOptions) (link : Link) (stage : Stage ε π σ) :
    stage.Configures link (stage.configureInterpolation o link) := by
  unfold configureInterpolation
  cases Retiming.compute o.slowmo o.fps link.frameRate with
  | error cause => exact ⟨.left _, rfl⟩
  | ok retiming =>
    have opened := configures_openStream (o.settings retiming) link stage
    dsimp only
    generalize stage.openStream (o.settings retiming) link = answer at opened ⊢
    rcases answer with ⟨_ | outLink, stage'⟩ <;> exact opened

theorem configures_stabilization (o : StabilizationOptions) (link : Link) (stage : Stage ε π σ) :
    stage.Configures link (stage.configureStabilization o link) := by
  have opened := configures_openStream o.settings link stage
  unfold configureStabilization
  generalize stage.openStream o.settings link = answer at opened ⊢
  rcases answer with ⟨_ | outLink, stage'⟩
  · exact opened
  · dsimp only
    split <;> exact opened

theorem configures_configure (link : Link) (stage : Stage ε π σ) :
    stage.Configures link (stage.configure link) := by
  unfold configure
  split
  · exact configures_openStream _ link stage
  · exact configures_openStream _ link stage
  · exact configures_clearPrevious (configures_interpolation _ link _)
  · exact configures_clearPrevious (configures_openStream _ link _)
  · exact configures_clearPrevious (configures_stabilization _ link _)

end Stage

namespace Host

/-- The host of a stage whose new stream goes out on a link. -/
def relinked (stage : Stage ε π σ) (outLink : Link) (h : Host ε π σ) : Host ε π σ :=
  let h := { h with stage, state := .streaming, drained := none, failure := none }
  h.withOut (h.out.setLink outLink)

/-- How a host answers a configuration and what becomes of it. -/
inductive Links (link : Link) (h : Host ε π σ) : Outcome Link × Host ε π σ → Prop where
  | mismatched (cause : StageError) : Links link h (.error cause, h)
  | refused {cause : StageError} {stage : Stage ε π σ}
    (configured : h.stage.configure link = (.error cause, stage)) :
    Links link h (.error cause, { h with stage })
  | linked {outLink : Link} {stage : Stage ε π σ}
    (configured : h.stage.configure link = (.ok outLink, stage)) :
    Links link h (.ok outLink, h.relinked stage outLink)

theorem links_configure (link : Link) (h : Host ε π σ) :
    h.Links link (h.configure link) := by
  unfold configure
  split
  · exact .mismatched _
  · cases configured : h.stage.configure link with
    | mk result stage =>
      cases result with
      | error cause => exact .refused configured
      | ok outLink => exact .linked configured

theorem opened_configure {link outLink : Link} {h h' : Host ε π σ}
    (configured : h.configure link = (.ok outLink, h')) :
    h'.stage.station.Opened link ∧ h'.state = .streaming := by
  have configures := (h.stage.configures_configure link).1
  have links := h.links_configure link
  rw [configured] at links
  cases links with
  | @linked outLink stage answer =>
    rw [answer] at configures
    obtain ⟨spec, e, p, size, words, created, there⟩ :=
      Station.opened_of_configures configures rfl
    exact ⟨⟨spec, e, p, size, words, created, there⟩, rfl⟩

/-- The host after its source worked on the pool. -/
def withPool (pool : Pool) (h : Host ε π σ) : Host ε π σ := h.withOut { h.out with pool }

variable [Sink σ]

theorem takeFrame_eq (frame : Frame) (h : Host ε π σ) :
    ∃ failures, (h.takeFrame frame).2 =
      { h with stage := (h.stage.accept frame).2, framesIn := h.framesIn + 1,
               submissionFailures := failures } := by
  unfold takeFrame
  dsimp only
  rcases h.stage.accept frame with ⟨_ | _, stage⟩ <;> exact ⟨_, rfl⟩

/-- How a host answers when the source has nothing left and what becomes of it. -/
inductive Finishes (h : Host ε π σ) : Outcome Flow × Host ε π σ → Prop where
  | failed {cause : StageError} {stage : Stage ε π σ}
    (drained : h.stage.drain = (.error cause, stage)) :
    Finishes h (.error cause.intoDrain,
      { h with stage, state := .failed, failure := some cause.intoDrain.message })
  | closed {report : DrainReport} {stage : Stage ε π σ}
    (drained : h.stage.drain = (.ok report, stage)) :
    Finishes h (stage.station.out.endStream.1.map fun _ => .ended,
      { h with stage, state := .closed, drained := some report }.withOut
        stage.station.out.endStream.2)

theorem finishes_finish (h : Host ε π σ) : h.Finishes h.finish := by
  unfold finish
  cases drained : h.stage.drain with
  | mk result stage =>
    cases result with
    | error cause => exact .failed drained
    | ok report => exact .closed drained

variable [Source ρ]

/-- How a host answers a pull and what becomes of it and of the source. -/
inductive Pulls (h : Host ε π σ) (source : ρ) : Outcome Flow × Host ε π σ × ρ → Prop where
  | ended (state : h.state = .closed) : Pulls h source (.ok .ended, h, source)
  | repeated (state : h.state = .failed) :
    Pulls h source (.error (.streamFailed (h.failure.getD "")), h, source)
  | faulted {cause : StageError} {source' : ρ} {pool : Pool}
    (pulling : h.state ≠ .closed ∧ h.state ≠ .failed)
    (supplied : Source.next source h.out.pool = (.error cause, source', pool)) :
    Pulls h source (.error cause, h.withPool pool, source')
  | took {frame : Frame} {source' : ρ} {pool : Pool}
    (pulling : h.state ≠ .closed ∧ h.state ≠ .failed)
    (supplied : Source.next source h.out.pool = (.ok (some frame), source', pool)) :
    Pulls h source
      (((h.withPool pool).takeFrame frame).1, ((h.withPool pool).takeFrame frame).2, source')
  | finished {source' : ρ} {pool : Pool} (pulling : h.state ≠ .closed ∧ h.state ≠ .failed)
    (supplied : Source.next source h.out.pool = (.ok none, source', pool)) :
    Pulls h source ((h.withPool pool).finish.1, (h.withPool pool).finish.2, source')

theorem pulls_request (h : Host ε π σ) (source : ρ) :
    h.Pulls source (h.request source) := by
  unfold request
  cases state : h.state with
  | closed => exact .ended state
  | failed => exact .repeated state
  | streaming | draining =>
    have pulling : h.state ≠ .closed ∧ h.state ≠ .failed := by simp [state]
    cases supplied : Source.next source h.out.pool with
    | mk answer rest =>
      rcases answer with cause | _ | frame
      · exact .faulted pulling supplied
      · exact .finished pulling supplied
      · exact .took pulling supplied

theorem request_of_cons {h : Host ε π σ} (state : h.state = .streaming) (frame : Frame)
    (rest : List Frame) : h.request (Queue.mk (frame :: rest) none) =
      ((h.takeFrame frame).1, (h.takeFrame frame).2, ⟨rest, none⟩) := by
  rw [request, state]
  rfl

theorem request_of_nil {h : Host ε π σ} (state : h.state = .streaming) :
    h.request (Queue.mk [] none) = (h.finish.1, h.finish.2, ⟨[], none⟩) := by
  rw [request, state]
  rfl

end Host

end FrameRelay
