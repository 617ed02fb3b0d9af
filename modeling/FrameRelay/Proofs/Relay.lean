import FrameRelay.Proofs.Delivery
import FrameRelay.Proofs.Steps

/-! The complete delivery of a stage that synthesizes on the scripted engine. The engine holds the
outputs of the last frames it took, `lag` of them at most. So the frames split into those that are
gone, whose outputs went out, and those that wait. -/

namespace FrameRelay

/-- The frames that go out for one frame of the source when `reference` is the frame that was taken
last: so many as there are outputs for each input, or none at all. -/
def relayed (knobs : Knobs) (link : Link) (frame reference : Frame) : List Frame :=
  if frame.pts ∈ knobs.suppressPts ∨ frame.pts < 0 then []
  else (List.range knobs.outputsPerInput).map fun (i : Nat) =>
    link.filled reference.aspect
      (frame.pts * knobs.outputsPerInput + i, frame.samples.getD 0 0)

/-- The frames of a source that the engine does not reject. -/
def accepted (knobs : Knobs) (frames : List Frame) : List Frame :=
  frames.filter fun frame => frame.pts ∉ knobs.failPts

/-- All that goes out for some accepted frames: the outputs of one are sent `lag` frames later, or
in the end with the last one as their reference. -/
def delivery (knobs : Knobs) (link : Link) (frames : List Frame) : List Frame :=
  frames.zipIdx.flatMap fun (frame, index) =>
    relayed knobs link frame (frames.getD (min (index + knobs.lag) (frames.length - 1)) frame)

theorem send_outputsOf (knobs : Knobs) (link : Link) (frame reference : Frame) :
    link.send reference.aspect (Script.outputsOf knobs frame) =
      relayed knobs link frame reference := by
  unfold relayed
  by_cases suppressed : frame.pts ∈ knobs.suppressPts
  · simp [Link.send, Script.outputsOf, suppressed]
  simp only [Link.send, Script.outputsOf, suppressed, false_or, if_false, List.filter_map,
    List.map_map]
  by_cases early : frame.pts < 0
  · rw [if_pos early, List.map_eq_nil_iff, List.filter_eq_nil_iff]
    intro i inside
    have before : frame.pts * knobs.outputsPerInput ≤ -1 * knobs.outputsPerInput :=
      Int.mul_le_mul_of_nonneg_right (by omega) (Int.natCast_nonneg _)
    have last := List.mem_range.mp inside
    simp only [Function.comp_apply, decide_eq_true_eq]
    omega
  · have start : 0 ≤ frame.pts * knobs.outputsPerInput :=
      Int.mul_nonneg (by omega) (Int.natCast_nonneg _)
    rw [if_neg early, List.filter_eq_self.mpr]
    · rfl
    · intro i _
      simp only [Function.comp_apply, decide_eq_true_eq]
      omega

theorem length_outputsOf (knobs : Knobs) (frame : Frame) :
    (Script.outputsOf knobs frame).length = knobs.outputsPerInput := by
  simp [Script.outputsOf]

theorem length_flatMap_outputsOf (knobs : Knobs) (frames : List Frame) :
    (frames.flatMap (Script.outputsOf knobs)).length = frames.length * knobs.outputsPerInput := by
  induction frames with
  | nil => simp
  | cons frame rest ih =>
    rw [List.flatMap_cons, List.length_append, ih, length_outputsOf, List.length_cons,
      Nat.succ_mul, Nat.add_comm]

theorem send_flatMap_outputsOf (knobs : Knobs) (link : Link) (frames : List Frame)
    (reference : Frame) :
    link.send reference.aspect (frames.flatMap (Script.outputsOf knobs)) =
      frames.flatMap fun frame => relayed knobs link frame reference := by
  induction frames with
  | nil => rfl
  | cons frame rest ih =>
    rw [List.flatMap_cons, Link.send_append, ih, send_outputsOf, List.flatMap_cons]

/-- What went out for the frames that are gone, each with the frame `lag` later. -/
def sent (knobs : Knobs) (link : Link) (gone references : List Frame) : List Frame :=
  (gone.zip references).flatMap fun (frame, reference) => relayed knobs link frame reference

theorem sent_append_eq_delivery (knobs : Knobs) (link : Link) {gone waiting : List Frame}
    (window : waiting.length = min knobs.lag (gone.length + waiting.length)) {last : Frame}
    (final : (gone ++ waiting).getLast? = some last) :
    sent knobs link gone ((gone ++ waiting).drop knobs.lag) ++
        (waiting.flatMap fun frame => relayed knobs link frame last) =
      delivery knobs link (gone ++ waiting) := by
  have pairs : gone.zip ((gone ++ waiting).drop knobs.lag) ++ waiting.map (·, last) =
      (gone ++ waiting).zipIdx.map fun (frame, index) => (frame, (gone ++ waiting).getD
        (min (index + knobs.lag) ((gone ++ waiting).length - 1)) frame) := by
    apply List.ext_getElem
    · simp
      omega
    · intro i left right
      simp only [List.length_map, List.length_zipIdx, List.length_append] at right
      simp only [List.getElem_map, List.getElem_zipIdx, Nat.zero_add]
      by_cases earlier : i < gone.length
      · have full : waiting.length = knobs.lag := by omega
        have within : min (i + knobs.lag) ((gone ++ waiting).length - 1) = knobs.lag + i := by
          rw [List.length_append]
          omega
        have inside : knobs.lag + i < (gone ++ waiting).length := by
          rw [List.length_append]
          omega
        rw [List.getElem_append_left (by simp; omega), List.getElem_zip, List.getElem_drop,
          List.getElem_append_left earlier, within, List.getD_eq_getElem?_getD,
          List.getElem?_eq_getElem inside, Option.getD]
      · have within : min (i + knobs.lag) ((gone ++ waiting).length - 1) =
            (gone ++ waiting).length - 1 := by
          rw [List.length_append]
          omega
        have zipped : (gone.zip ((gone ++ waiting).drop knobs.lag)).length = gone.length := by
          simp
          omega
        rw [List.getLast?_eq_getElem?] at final
        rw [List.getElem_append_right (by omega), List.getElem_map, within,
          List.getElem_append_right (by omega), List.getD_eq_getElem?_getD, final]
        simp only [zipped, Option.getD]
  have mapped := congrArg
    (List.flatMap fun (frame, reference) => relayed knobs link frame reference) pairs
  rw [List.flatMap_append, List.flatMap_map, List.flatMap_map] at mapped
  exact mapped

/-- The engine with the outputs of the waiting frames, none of them ready yet. -/
structure Script.Holds (knobs : Knobs) (waiting : List Frame) (s : Script) : Prop where
  same : s.knobs = knobs
  ready : s.ready = []
  held : s.held = waiting.flatMap (Script.outputsOf knobs)

namespace Script
variable {knobs : Knobs} {waiting : List Frame} {s : Script} {frame : Frame}

theorem Holds.rejects (holds : s.Holds knobs waiting) (rejected : frame.pts ∈ knobs.failPts) :
    ∃ reason, s.process frame = (.error (.rejected reason), s) := by
  unfold process
  rw [holds.same, if_pos rejected]
  exact ⟨_, rfl⟩

theorem Holds.overflows (holds : s.Holds knobs waiting) (taken : frame.pts ∉ knobs.failPts)
    (large : ¬ Fits knobs frame) : s.process frame = (.error (.fault .overflow), s) := by
  rw [process, holds.same, if_neg taken, if_neg large]

theorem Holds.keeps (holds : s.Holds knobs waiting) (taken : frame.pts ∉ knobs.failPts)
    (fits : Fits knobs frame) (room : waiting.length < knobs.lag) :
    ∃ s', s.process frame = (.ok (), s') ∧ s'.Holds knobs (waiting ++ [frame]) := by
  have queued : s.held ++ outputsOf knobs frame =
      (waiting ++ [frame]).flatMap (outputsOf knobs) := by
    simp [holds.held]
  have nothing : ((waiting ++ [frame]).flatMap (outputsOf knobs)).length -
      knobs.lag * knobs.outputsPerInput = 0 := by
    rw [length_flatMap_outputsOf, List.length_append, List.length_singleton]
    exact Nat.sub_eq_zero_of_le (Nat.mul_le_mul_right _ room)
  unfold process
  rw [holds.same, if_neg taken, if_pos fits]
  simp only [queued, nothing, holds.ready, List.take_zero, List.drop_zero, List.append_nil]
  exact ⟨_, rfl, rfl, rfl, rfl⟩

theorem Holds.yields (holds : s.Holds knobs waiting) (taken : frame.pts ∉ knobs.failPts)
    (fits : Fits knobs frame) (full : waiting.length = knobs.lag) {first : Frame}
    {rest : List Frame} (queue : waiting ++ [frame] = first :: rest) :
    ∃ s', s.process frame = (.ok (), s') ∧ s'.ready = outputsOf knobs first ∧
      Holds knobs rest { s' with ready := [] } := by
  have queued : s.held ++ outputsOf knobs frame =
      outputsOf knobs first ++ rest.flatMap (outputsOf knobs) := by
    rw [← List.flatMap_cons, ← queue]
    simp [holds.held]
  have long : rest.length = knobs.lag := by
    have lengths := congrArg List.length queue
    simp only [List.length_append, List.length_cons, List.length_nil] at lengths
    omega
  have surplus : (outputsOf knobs first ++ rest.flatMap (outputsOf knobs)).length -
      knobs.lag * knobs.outputsPerInput = (outputsOf knobs first).length := by
    rw [List.length_append, length_flatMap_outputsOf, long]
    exact Nat.add_sub_cancel _ _
  unfold process
  rw [holds.same, if_neg taken, if_pos fits]
  simp only [queued, surplus, holds.ready, List.take_left, List.drop_left, List.nil_append]
  exact ⟨_, rfl, rfl, rfl, rfl, rfl⟩

/-- Whichever way a frame is taken, the frames that are gone and those that wait are in order, and
what becomes ready is what the frame now gone is relayed as. -/
theorem Holds.takes (holds : s.Holds knobs waiting) (taken : frame.pts ∉ knobs.failPts)
    (fits : Fits knobs frame) {gone : List Frame}
    (window : waiting.length = min knobs.lag (gone.length + waiting.length)) :
    ∃ s' gone' waiting', s.process frame = (.ok (), s') ∧
      Holds knobs waiting' { s' with ready := [] } ∧
      gone' ++ waiting' = gone ++ waiting ++ [frame] ∧
      waiting'.length = min knobs.lag (gone'.length + waiting'.length) ∧
      ∀ link : Link, sent knobs link gone' ((gone' ++ waiting').drop knobs.lag) =
        sent knobs link gone ((gone ++ waiting).drop knobs.lag) ++
          link.send frame.aspect s'.ready := by
  by_cases room : waiting.length < knobs.lag
  · have none_gone : gone = [] := List.eq_nil_of_length_eq_zero (by omega)
    obtain ⟨s', answer, holds'⟩ := holds.keeps taken fits room
    refine ⟨s', [], waiting ++ [frame], answer, ⟨holds'.same, rfl, holds'.held⟩, ?_, ?_, ?_⟩
    · rw [none_gone]
      rfl
    · rw [List.length_append, List.length_singleton, List.length_nil]
      omega
    · intro link
      rw [none_gone, holds'.ready]
      rfl
  · have full : waiting.length = knobs.lag := by omega
    obtain ⟨first, rest, queue⟩ := List.exists_cons_of_ne_nil
      (List.append_ne_nil_of_right_ne_nil waiting (List.cons_ne_nil frame []))
    obtain ⟨s', answer, ready, holds'⟩ := holds.yields taken fits full queue
    have order : gone ++ [first] ++ rest = gone ++ waiting ++ [frame] := by
      rw [List.append_assoc, List.append_assoc, queue]
      rfl
    have long : rest.length = waiting.length := by
      have lengths := congrArg List.length queue
      simp only [List.length_append, List.length_cons, List.length_nil] at lengths
      omega
    refine ⟨s', gone ++ [first], rest, answer, holds', order, ?_, ?_⟩
    · rw [List.length_append, List.length_singleton]
      omega
    · intro link
      have within : knobs.lag ≤ (gone ++ waiting).length := by
        rw [List.length_append]
        omega
      have paired : gone.length = ((gone ++ waiting).drop knobs.lag).length := by
        rw [List.length_drop, List.length_append]
        omega
      rw [order, ready, send_outputsOf, sent, List.drop_append_of_le_length within,
        List.zip_append paired, List.flatMap_append]
      simp [sent]

end Script

section relay
variable {σ : Type} {knobs : Knobs} {link : Link} {good : σ → Prop} {gone waiting : List Frame}

/-- A station in the middle of a stream on the scripted engine: the outputs of the frames that are
gone went out, those of the frames that wait are held. -/
structure Station.Relays (knobs : Knobs) (link : Link) (good : σ → Prop)
    (gone waiting : List Frame) (s : Station Script Unit (Noted σ SinkCall)) : Prop where
  streaming : ∃ handle, s.session.handle = some handle ∧ handle.state = .streaming
  patient : 1 ≤ s.session.policy.maxStalledPolls
  engine : s.engine.Holds knobs waiting
  window : waiting.length = min knobs.lag (gone.length + waiting.length)
  previous : s.previous = (gone ++ waiting).getLast?
  delivered : s.out.Delivered link good (sent knobs link gone ((gone ++ waiting).drop knobs.lag))

namespace Station
variable {s : Station Script Unit (Noted σ SinkCall)} {frame : Frame}

theorem submit_of_streaming
    (streaming : ∃ handle, s.session.handle = some handle ∧ handle.state = .streaming)
    {e : Script} (taken : s.engine.process frame = (.ok (), e)) :
    ∃ handle : Handle Unit, s.submit frame = (.ok (), s.withLease ⟨e, handle⟩) ∧
      handle.state = .streaming := by
  obtain ⟨handle, there, state⟩ := streaming
  have open_ : ¬ handle.state ≠ .streaming := fun late => late state
  simp only [submit, there, Lease.submit, Lease.process, if_neg open_, Engine.process, taken]
  exact ⟨_, rfl, state⟩

theorem submit_of_error
    (streaming : ∃ handle, s.session.handle = some handle ∧ handle.state = .streaming)
    {cause : EngineError} {e : Script} (refused : s.engine.process frame = (.error cause, e)) :
    ∃ handle : Handle Unit, s.submit frame = (.error (.submission frame.pts cause),
        { s.withLease ⟨e, handle⟩ with out := s.out.release frame }) ∧
      handle.state = .streaming := by
  obtain ⟨handle, there, state⟩ := streaming
  have open_ : ¬ handle.state ≠ .streaming := fun late => late state
  simp only [submit, there, Lease.submit, Lease.process, if_neg open_, Engine.process, refused]
  exact ⟨_, rfl, state⟩

variable [Sink σ]

theorem Relays.rejects (relays : s.Relays knobs link good gone waiting)
    (rejected : frame.pts ∈ knobs.failPts) :
    ∃ reason s', s.synthesize frame = (.error (.submission frame.pts (.rejected reason)), s') ∧
      s'.Relays knobs link good gone waiting := by
  obtain ⟨reason, answer⟩ := relays.engine.rejects rejected
  obtain ⟨handle, submitted, state⟩ := submit_of_error relays.streaming answer
  simp only [synthesize, submitted]
  exact ⟨reason, _, rfl, ⟨_, rfl, state⟩, relays.patient, relays.engine, relays.window,
    relays.previous, relays.delivered.release frame⟩

theorem Relays.overflows (relays : s.Relays knobs link good gone waiting)
    (taken : frame.pts ∉ knobs.failPts) (large : ¬ Script.Fits knobs frame) :
    ∃ s', s.synthesize frame = (.error (.submission frame.pts (.fault .overflow)), s') := by
  obtain ⟨handle, submitted, -⟩ :=
    submit_of_error relays.streaming (relays.engine.overflows taken large)
  simp only [synthesize, submitted]
  exact ⟨_, rfl⟩

theorem Relays.takes (willing : Sink.Willing good) (works : knobs.failOutput = false)
    (relays : s.Relays knobs link good gone waiting) (taken : frame.pts ∉ knobs.failPts)
    (fits : Script.Fits knobs frame) :
    ∃ total s' gone' waiting', s.synthesize frame = (.ok total, s') ∧
      gone' ++ waiting' = gone ++ waiting ++ [frame] ∧
      s'.Relays knobs link good gone' waiting' := by
  obtain ⟨e, gone', waiting', answer, holds, order, window, grown⟩ :=
    relays.engine.takes taken fits relays.window
  obtain ⟨handle, submitted, state⟩ := submit_of_streaming relays.streaming answer
  have last : some frame = (gone' ++ waiting').getLast? := by
    rw [order, List.getLast?_append]
    rfl
  obtain ⟨total, l', out', added, engine, state', delivered⟩ :=
    Lease.addOutput_delivers willing frame (l := ⟨e, handle⟩) (holds.same ▸ works)
      (relays.delivered.releaseSlot s.previous)
  rw [← grown] at delivered
  simp only [synthesize, submitted, addOutput, keepPrevious, withLease, added]
  refine ⟨total, _, gone', waiting', rfl, order, ⟨_, rfl, state'.trans state⟩, relays.patient, ?_,
    window, last, delivered⟩
  rw [engine]
  exact holds

/-- The drain at the end sends the outputs of the frames that wait, if its polls can count them. -/
theorem Relays.finishes (willing : Sink.Willing good) (works : knobs.failOutput = false)
    (moves : knobs.stall = false) (relays : s.Relays knobs link good gone waiting) :
    (waiting.length * knobs.outputsPerInput < Number.shortLimit →
      ∃ report s', s.finishSynthesis = (.ok report, s') ∧
        s'.out.Delivered link good (delivery knobs link (gone ++ waiting))) ∧
    (Number.shortLimit ≤ waiting.length * knobs.outputsPerInput →
      ∃ s', s.finishSynthesis = (.error (.fault .overflow), s')) := by
  obtain ⟨handle, there, state⟩ := relays.streaming
  have knobs' := relays.engine.same
  have previous := relays.previous
  cases final : (gone ++ waiting).getLast? with
  | none =>
    obtain ⟨rfl, rfl⟩ := List.append_eq_nil_iff.mp (List.getLast?_eq_none_iff.mp final)
    obtain ⟨report, l', drained⟩ := drainIgnoring_delivers s.session.policy
      (l := ⟨s.engine, handle⟩) s.out state (knobs' ▸ works) (knobs' ▸ moves)
      relays.engine.ready relays.engine.held
    rw [final] at previous
    refine ⟨fun _ => ?_, fun many => ?_⟩
    · simp only [finishSynthesis, postflight, drainAndDestroy, there, previous, Lease.postflight,
        drained]
      exact ⟨report, _, rfl, relays.delivered.releaseSlot none⟩
    · rw [List.length_nil, Nat.zero_mul] at many
      exact absurd many (by decide)
  | some last =>
    have pass := postflight_delivers willing relays.patient last (l := ⟨s.engine, handle⟩) state
      (knobs' ▸ works) (knobs' ▸ moves) relays.engine.ready relays.delivered
    simp only [relays.engine.held, length_flatMap_outputsOf, send_flatMap_outputsOf,
      sent_append_eq_delivery knobs link relays.window final] at pass
    rw [final] at previous
    refine ⟨fun few => ?_, fun many => ?_⟩
    · obtain ⟨report, l', out', drained, delivered⟩ := pass.1 few
      simp only [finishSynthesis, postflight, drainAndDestroy, there, previous, drained]
      exact ⟨report, _, rfl, delivered.releaseSlot (some last)⟩
    · obtain ⟨l', out', drained⟩ := pass.2 many
      simp only [finishSynthesis, postflight, drainAndDestroy, there, previous, drained]
      exact ⟨_, rfl⟩

end Station

/-- A station of the scripted engine before the first frame of a stream. -/
structure Station.Unused (knobs : Knobs) (sink : Noted σ SinkCall)
    (s : Station Script Unit (Noted σ SinkCall)) : Prop where
  patient : 1 ≤ s.session.policy.maxStalledPolls
  engine : s.engine.Holds knobs []
  previous : s.previous = none
  sink : s.out.sink = sink

theorem Station.unused_of_configures {sink : Noted σ SinkCall} {inLink : Link} {succeeds : Bool}
    {s s' : Station Script Unit (Noted σ SinkCall)} (configures : s.Configures inLink succeeds s')
    (vacant : s.session.handle = none) (unused : s.Unused knobs sink) :
    s'.Unused knobs sink ∧ (succeeds = true →
      ∃ handle, s'.session.handle = some handle ∧ handle.state = .streaming) := by
  induction configures with
  | left s => exact ⟨unused, fun opens => by cases opens⟩
  | opened settings s =>
    have closed : s.close = s := by simp only [close, vacant]
    have idle : Unused knobs sink { s with session := { s.session with settings := none } } :=
      ⟨unused.patient, unused.engine, unused.previous, unused.sink⟩
    simp only [openStream, closed]
    rcases settings.resolve (Engine.offer s.engine) inLink with cause | ⟨spec, outLink⟩
    · exact ⟨idle, fun opens => by cases opens⟩
    · simp only [Engine.create, Script.create]
      cases s.engine.knobs.failCreate with
      | some cause => exact ⟨idle, fun opens => by cases opens⟩
      | none =>
        have holds : Script.Holds knobs []
            { s.engine with created := s.engine.created + 1, lastSpec := some spec } :=
          ⟨unused.engine.same, unused.engine.ready, unused.engine.held⟩
        exact ⟨⟨unused.patient, holds, unused.previous, unused.sink⟩, fun _ => ⟨_, rfl, rfl⟩⟩
  | cleared _ ih => exact ih vacant ⟨unused.patient, unused.engine, rfl, unused.sink⟩

/-- A host in the middle of such a stream. -/
structure Host.Relays (knobs : Knobs) (link : Link) (good : σ → Prop) (gone waiting : List Frame)
    (h : Host Script Unit (Noted σ SinkCall)) : Prop where
  state : h.state = .streaming
  synthesizes : h.stage.options.synthesizes = true
  station : h.stage.station.Relays knobs link good gone waiting

namespace Host
variable {h : Host Script Unit (Noted σ SinkCall)} {frame : Frame}

theorem relays_of_configure {options : StageOptions} (synthesizes : options.synthesizes = true)
    {policy : DrainPolicy} (patient : 1 ≤ policy.maxStalledPolls) {sink : σ} (here : good sink)
    {pool : Pool} {inLink : Link}
    (configured : (Host.start (Stage.idle options (Script.start knobs) policy ⟨sink, []⟩
      pool)).configure inLink = (.ok link, h)) : h.Relays knobs link good [] [] := by
  let stage : Stage Script Unit (Noted σ SinkCall) :=
    .idle options (.start knobs) policy ⟨sink, []⟩ pool
  have links := (Host.start stage).links_configure inLink
  rw [configured] at links
  cases links with
  | @linked _ stage' answer =>
    have configures := stage.configures_configure inLink
    rw [show stage.configure inLink = (.ok link, stage') from answer] at configures
    obtain ⟨station, same⟩ := configures
    have unused : stage.station.Unused knobs ⟨sink, []⟩ := ⟨patient, ⟨rfl, rfl, rfl⟩, rfl, rfl⟩
    obtain ⟨unused', opens⟩ := Station.unused_of_configures station rfl unused
    have delivered : Outlet.Delivered link good [] (stage'.station.out.setLink link) := by
      refine ⟨rfl, rfl, ?_, ?_⟩
      · rw [Outlet.setLink, unused'.sink]
        exact here
      · rw [Outlet.setLink, unused'.sink]
        rfl
    refine ⟨rfl, (congrArg StageOptions.synthesizes same).trans synthesizes, opens rfl,
      unused'.patient, unused'.engine, ?_, unused'.previous, delivered⟩
    rw [List.length_nil]
    omega

variable [Sink σ]

theorem Relays.rejects (relays : h.Relays knobs link good gone waiting)
    (rejected : frame.pts ∈ knobs.failPts) (rest : List Frame) :
    ∃ reason h', h.request (Queue.mk (frame :: rest) none) =
        (.error (.submission frame.pts (.rejected reason)), h', ⟨rest, none⟩) ∧
      h'.Relays knobs link good gone waiting := by
  obtain ⟨reason, s', answer, relays'⟩ := relays.station.rejects rejected
  rw [request_of_cons relays.state]
  simp only [takeFrame, Stage.accept, relays.synthesizes, if_true, answer, Except.map]
  exact ⟨reason, _, rfl, relays.state, relays.synthesizes, relays'⟩

theorem Relays.overflows (relays : h.Relays knobs link good gone waiting)
    (taken : frame.pts ∉ knobs.failPts) (large : ¬ Script.Fits knobs frame) (rest : List Frame) :
    ∃ h', h.request (Queue.mk (frame :: rest) none) =
      (.error (.submission frame.pts (.fault .overflow)), h', ⟨rest, none⟩) := by
  obtain ⟨s', answer⟩ := relays.station.overflows taken large
  rw [request_of_cons relays.state]
  simp only [takeFrame, Stage.accept, relays.synthesizes, if_true, answer, Except.map]
  exact ⟨_, rfl⟩

theorem Relays.takes (willing : Sink.Willing good) (works : knobs.failOutput = false)
    (relays : h.Relays knobs link good gone waiting) (taken : frame.pts ∉ knobs.failPts)
    (fits : Script.Fits knobs frame) (rest : List Frame) :
    ∃ h' gone' waiting', h.request (Queue.mk (frame :: rest) none) = (.ok .more, h', ⟨rest, none⟩) ∧
      gone' ++ waiting' = gone ++ waiting ++ [frame] ∧
      h'.Relays knobs link good gone' waiting' := by
  obtain ⟨total, s', gone', waiting', answer, order, relays'⟩ :=
    relays.station.takes willing works taken fits
  rw [request_of_cons relays.state]
  simp only [takeFrame, Stage.accept, relays.synthesizes, if_true, answer, Except.map]
  exact ⟨_, gone', waiting', rfl, order, relays.state, relays.synthesizes, relays'⟩

/-- What is left of a host whose sink got some frames and then the end. -/
structure Ended (frames : List Frame) (h : Host Script Unit (Noted σ SinkCall)) : Prop where
  state : h.state = .closed
  endSent : h.out.endSent = true
  notes : h.out.sink.notes = frames.map .offered ++ [.ended]

theorem Relays.finishes (willing : Sink.Willing good) (works : knobs.failOutput = false)
    (moves : knobs.stall = false) (relays : h.Relays knobs link good gone waiting) :
    (waiting.length * knobs.outputsPerInput < Number.shortLimit →
      ∃ h', h.request (Queue.mk [] none) = (.ok .ended, h', ⟨[], none⟩) ∧
        h'.Ended (delivery knobs link (gone ++ waiting))) ∧
    (Number.shortLimit ≤ waiting.length * knobs.outputsPerInput →
      ∃ h', h.request (Queue.mk [] none) = (.error (.fault .overflow), h', ⟨[], none⟩)) := by
  obtain ⟨ends, overflows⟩ := relays.station.finishes willing works moves
  rw [request_of_nil relays.state]
  refine ⟨fun few => ?_, fun many => ?_⟩
  · obtain ⟨report, s', answer, delivered⟩ := ends few
    obtain ⟨out, ended, endSent, notes⟩ := delivered.endStream willing
    simp only [finish, Stage.drain, relays.synthesizes, if_true, answer, Host.out, ended,
      Except.map]
    exact ⟨_, rfl, rfl, endSent, notes⟩
  · obtain ⟨s', answer⟩ := overflows many
    simp only [finish, Stage.drain, relays.synthesizes, if_true, answer]
    exact ⟨_, rfl⟩

/-- What the engine computes for the frames that it takes fits the words, and so does the number of
polls that bring out what it holds in the end, `earlier` frames having been taken before. -/
structure InWords (knobs : Knobs) (earlier : Nat) (frames : List Frame) : Prop where
  fits : ∀ frame ∈ accepted knobs frames, Script.Fits knobs frame
  polls : min knobs.lag (earlier + (accepted knobs frames).length) * knobs.outputsPerInput <
    Number.shortLimit

theorem inWords_cons_of_rejected {earlier : Nat} (rejected : frame.pts ∈ knobs.failPts)
    (rest : List Frame) :
    InWords knobs earlier (frame :: rest) ↔ InWords knobs earlier rest := by
  have skipped : accepted knobs (frame :: rest) = accepted knobs rest := by
    simp [accepted, rejected]
  constructor <;> rintro ⟨fits, polls⟩
  · exact ⟨skipped ▸ fits, skipped ▸ polls⟩
  · exact ⟨skipped ▸ fits, skipped ▸ polls⟩

theorem inWords_cons_of_taken {earlier : Nat} (taken : frame.pts ∉ knobs.failPts)
    (rest : List Frame) : InWords knobs earlier (frame :: rest) ↔
      Script.Fits knobs frame ∧ InWords knobs (earlier + 1) rest := by
  have kept : accepted knobs (frame :: rest) = frame :: accepted knobs rest := by
    simp [accepted, taken]
  have count : earlier + (frame :: accepted knobs rest).length =
      earlier + 1 + (accepted knobs rest).length := by
    rw [List.length_cons]
    omega
  constructor
  · rintro ⟨fits, polls⟩
    rw [kept] at fits polls
    obtain ⟨here, later⟩ := List.forall_mem_cons.mp fits
    exact ⟨here, later, count ▸ polls⟩
  · rintro ⟨here, later, polls⟩
    refine ⟨?_, ?_⟩
    · rw [kept]
      exact List.forall_mem_cons.mpr ⟨here, later⟩
    · rw [kept, count]
      exact polls

/-- Pulling until the end, by induction on the frames to come. It comes to a fault if something
outgrows its word, and otherwise to the end with everything delivered. -/
theorem Relays.pullAll (willing : Sink.Willing good) (works : knobs.failOutput = false)
    (moves : knobs.stall = false) (frames : List Frame) (requests : Nat)
    (relays : h.Relays knobs link good gone waiting) :
    (InWords knobs (gone ++ waiting).length frames →
      ∃ h', h.pullAll .carryOn (frames.length + 1) requests (Queue.mk frames none) =
          (.ok (requests + frames.length + 1), h', ⟨[], none⟩) ∧
        h'.Ended (delivery knobs link (gone ++ waiting ++ accepted knobs frames))) ∧
    (¬ InWords knobs (gone ++ waiting).length frames →
      ∃ cause h' left, h.pullAll .carryOn (frames.length + 1) requests (Queue.mk frames none) =
        (.error cause, h', left) ∧ cause.isFault = true) := by
  induction frames generalizing h gone waiting requests with
  | nil =>
    obtain ⟨ends, overflows⟩ := relays.finishes willing works moves
    have words_iff : InWords knobs (gone ++ waiting).length [] ↔
        waiting.length * knobs.outputsPerInput < Number.shortLimit := by
      rw [relays.station.window, ← List.length_append]
      exact ⟨InWords.polls, fun few => ⟨fun _ inside => absurd inside List.not_mem_nil, few⟩⟩
    rw [words_iff]
    refine ⟨fun few => ?_, fun many => ?_⟩
    · obtain ⟨h', answer, ended⟩ := ends few
      simp only [List.length_nil, Host.pullAll, answer]
      exact ⟨h', rfl, by simpa [accepted] using ended⟩
    · obtain ⟨h', answer⟩ := overflows (Nat.not_lt.mp many)
      simp only [List.length_nil, Host.pullAll, answer]
      exact ⟨_, h', _, rfl, rfl⟩
  | cons frame rest ih =>
    have count : requests + (frame :: rest).length + 1 = requests + 1 + rest.length + 1 := by
      rw [List.length_cons]
      omega
    rw [count, List.length_cons, Host.pullAll]
    by_cases rejected : frame.pts ∈ knobs.failPts
    · obtain ⟨reason, h₁, answer, relays'⟩ := relays.rejects rejected rest
      have skipped : accepted knobs (frame :: rest) = accepted knobs rest := by
        simp [accepted, rejected]
      rw [answer, skipped, inWords_cons_of_rejected rejected]
      exact ih (requests + 1) relays'
    rw [inWords_cons_of_taken rejected]
    by_cases fits : Script.Fits knobs frame
    · obtain ⟨h₁, gone', waiting', answer, order, relays'⟩ :=
        relays.takes willing works rejected fits rest
      have moved : gone ++ waiting ++ accepted knobs (frame :: rest) =
          gone' ++ waiting' ++ accepted knobs rest := by
        rw [order]
        simp [accepted, rejected]
      have longer : (gone' ++ waiting').length = (gone ++ waiting).length + 1 := by
        rw [order, List.length_append]
        rfl
      rw [answer, moved, ← longer, and_iff_right fits]
      exact ih (requests + 1) relays'
    · obtain ⟨h₁, answer⟩ := relays.overflows rejected fits rest
      rw [answer]
      exact ⟨fun words => absurd words.1 fits, fun _ => ⟨_, h₁, _, rfl, rfl⟩⟩

end Host

end relay

end FrameRelay
