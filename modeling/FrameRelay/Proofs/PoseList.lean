import FrameRelay.Proofs.Forwarding
import FrameRelay.Proofs.ParentPaths
import FrameRelay.Proofs.Workers
import Mathlib.Data.List.Forall2

/-! The pose lists of camera pose estimation. A worker adds one pose for each picture that it is
given, and the list goes out when its stream is ended. So over any history the lists that were
written follow the frames that the processors accepted, stream by stream. -/

namespace FrameRelay

/-- The frames that the present processor accepted, and those that each processor before it had
accepted when it was ended. -/
structure Takings where
  present : List Frame
  past : List (List Frame)

namespace Takings

def none : Takings := ⟨[], []⟩

def after (takings : Takings) : ProcessorCall → Takings
  | .created => { takings with present := [] }
  | .processed frame true => { takings with present := takings.present ++ [frame] }
  | .ended => { takings with past := takings.past ++ [takings.present] }
  | .processed _ false | .asked | .released => takings

def afterAll (takings : Takings) (calls : List ProcessorCall) : Takings :=
  calls.foldl after takings

theorem afterAll_append (takings : Takings) (first second : List ProcessorCall) :
    takings.afterAll (first ++ second) = (takings.afterAll first).afterAll second :=
  List.foldl_append

@[simp] theorem afterAll_add {α : Type} (takings : Takings) (s : Noted α ProcessorCall) (inner : α)
    (note : ProcessorCall) :
    takings.afterAll (s.add inner note).notes = (takings.afterAll s.notes).after note :=
  takings.afterAll_append s.notes [note]

end Takings

/-- The pose is that of the picture that the frame gives. -/
def Frame.Shows (frame : Frame) (pose : Kernel.Pose) : Prop :=
  ∃ picture, Simulated.pictureOf frame = .ok picture ∧ Kernel.Pose.ofPicture? picture = some pose

theorem Frame.Shows.pts_eq {frame : Frame} {pose : Kernel.Pose} (shown : frame.Shows pose) :
    pose.pts = frame.pts := by
  obtain ⟨picture, made, found⟩ := shown
  obtain ⟨fills, pts⟩ := Simulated.fills_pictureOf made
  obtain ⟨pose', found', same⟩ := Kernel.Pose.ofPicture?_of_filled fills.filled
  obtain rfl : pose' = pose := Option.some.inj (found'.symm.trans found)
  exact same.trans pts

namespace Kernel

/-- The file is the one that the options ask for, and it has one pose for each frame, in order. -/
structure PoseFile.Lists (o : PoseOptions) (frames : List Frame) (file : PoseFile) : Prop where
  path_eq : file.path = o.filename
  model_eq : file.model = o.model
  rolling_eq : file.rollingShutter = (o.model != "cpe-1")
  poses : List.Forall₂ Frame.Shows frames file.poses.toList

theorem PoseFile.Lists.push? {o : PoseOptions} {frames : List Frame} {file : PoseFile}
    (lists : file.Lists o frames) {picture : Picture} {frame : Frame}
    (made : Simulated.pictureOf frame = .ok picture) :
    ∃ file', file.push? picture = some file' ∧ file'.Lists o (frames ++ [frame]) := by
  obtain ⟨fills, -⟩ := Simulated.fills_pictureOf made
  obtain ⟨pose, found, -⟩ := Pose.ofPicture?_of_filled fills.filled
  refine ⟨{ file with poses := file.poses.push pose }, ?_, lists.path_eq, lists.model_eq,
    lists.rolling_eq, ?_⟩
  · simp only [PoseFile.push?, found, Option.map_some]
  · rw [Array.toList_push]
    exact List.rel_append lists.poses (.cons ⟨picture, made, found⟩ .nil)

end Kernel

/-- The document names the model, says whether a rolling shutter was corrected, and has one entry
for each frame, in order: its pts and the pose of its picture. -/
def Document.ListsPoses (o : PoseOptions) (frames : List Frame) (document : Document) : Prop :=
  ∃ entries : List Document,
    document = .object [("model", .text o.model), ("rolling_shutter", .bool (o.model != "cpe-1")),
      ("frames", .list entries)] ∧
    List.Forall₂ (fun frame entry => ∃ pose, frame.Shows pose ∧
      entry = .object [("pts", .int frame.pts), ("x", .double pose.x), ("y", .double pose.y),
        ("intensity", .double pose.intensity)]) frames entries

theorem Kernel.PoseFile.Lists.document {o : PoseOptions} {frames : List Frame} {file : PoseFile}
    (lists : file.Lists o frames) : file.document.ListsPoses o frames := by
  refine ⟨file.poses.toList.map Pose.document, ?_, ?_⟩
  · rw [PoseFile.document, lists.model_eq, lists.rolling_eq]
  · rw [List.forall₂_map_right_iff]
    refine lists.poses.imp fun frame pose same => ⟨pose, same, ?_⟩
    rw [Pose.document, same.pts_eq]

/-- The artifact is a pose list for these frames. -/
def Artifact.Lists (o : PoseOptions) (artifact : Artifact) (frames : List Frame) : Prop :=
  ∃ file, artifact = .poses file ∧ file.Lists o frames

/-- The artifact is a document that lists the poses of these frames. It gets to its path in every
folder where the directories before the name of the file are there or can be made: the last of them
then has an entry with that name, unless it has a directory of that name. -/
def Artifact.Writes (o : PoseOptions) (artifact : Artifact) (frames : List Frame) : Prop :=
  ∃ document : Document, document.ListsPoses o frames ∧
    ∀ (folder ready : Folder) (directory name : String), o.filename = joinPath directory name →
      Folder.Proper name → checkPath o.filename = .ok () →
      folder.makeDirectory (parentPath o.filename) = (.ok (), ready) →
      ∃ place, ready.Leads directory place ∧
        (¬ ready.isDirectory (place ++ [name]) = true →
          (folder.keep [artifact]).entries[place ++ [name]]? = some (.text document.write))

theorem Artifact.Lists.writes {o : PoseOptions} {artifact : Artifact} {frames : List Frame}
    (lists : artifact.Lists o frames) : artifact.Writes o frames := by
  obtain ⟨file, rfl, listed⟩ := lists
  refine ⟨file.document, listed.document, ?_⟩
  intro folder ready directory name path proper checked made
  obtain ⟨place, parent⟩ := Folder.leads_of_makeDirectory made
  rw [path] at parent checked
  have leads := Folder.leads_of_parentPath proper parent
  refine ⟨place, leads, fun file_free => ?_⟩
  have written := proper.write (.text file.document.write) leads checked file_free
  rw [← path] at written
  simp only [Folder.keep, Folder.writePoses, listed.path_eq, made, written, Folder.entries_put,
    if_true]

theorem Artifact.Writes.right_here {o : PoseOptions} {artifact : Artifact} {frames : List Frame}
    (writes : artifact.Writes o frames) (proper : Folder.Proper o.filename) :
    ∃ document : Document, document.ListsPoses o frames ∧
      (Folder.empty.keep [artifact]).entries[[o.filename]]? = some (.text document.write) := by
  obtain ⟨document, listed, gets⟩ := writes
  have path : o.filename = joinPath "" o.filename := by simp [joinPath]
  have room : ("" : String).utf8ByteSize + 1 + o.filename.utf8ByteSize ≤ maxPath := by
    have short := proper.short
    simp only [maxName, maxPath, String.utf8ByteSize_empty] at *
    omega
  have checked := proper.checkPath (.inl rfl) room
  rw [← path] at checked
  have parent : parentPath o.filename = "" := by
    have bare : segments o.filename = [] ++ [o.filename] := segments_name proper.plain
    rw [parentPath_eq bare proper.stays]
    rfl
  obtain ⟨place, leads, written⟩ := gets .empty .empty "" o.filename path proper checked
    (by rw [parent]; rfl)
  have here : startOf "" = ([], [""]) := startOf_name (by decide)
  have follows := leads.follows
  rw [here] at follows
  obtain rfl : [] = place := Except.ok.inj follows
  refine ⟨document, listed, written ?_⟩
  rw [Folder.isDirectory, proper.entryAt?]
  simp [Folder.empty]

namespace Simulated

namespace Processor

/-- The list of the worker so far is that of the frames. -/
def Lists (o : PoseOptions) (frames : List Frame) (p : Processor) : Prop :=
  ∃ file, p.InService (.pose file) ∧ file.Lists o frames

variable {o : PoseOptions} {frames : List Frame} {p : Processor}

theorem Lists.collect (lists : p.Lists o frames) : p.collect.Lists o frames := by
  obtain ⟨file, service, listed⟩ := lists
  exact ⟨file, service.collect, listed⟩

theorem Lists.pop (lists : p.Lists o frames) : p.pop.2.Lists o frames := by
  obtain ⟨file, service, listed⟩ := lists
  exact ⟨file, service.pop, listed⟩

theorem Lists.gathered (lists : p.Lists o frames) : p.lane.artifacts = [] := by
  obtain ⟨file, service, _⟩ := lists
  exact service.gathered

theorem Lists.process (lists : p.Lists o frames) (frame : Frame) :
    match p.process frame with
    | (.ok (), q) => q.Lists o (frames ++ [frame])
    | (.error _, q) => q.Lists o frames := by
  obtain ⟨file, service, listed⟩ := lists
  have counted := service.count (p.submissions + 1)
  rw [service.process]
  generalize ({ p with submissions := p.submissions + 1 } : Processor) = q at counted ⊢
  cases examined : q.examine frame with
  | error cause => exact ⟨file, counted, listed⟩
  | ok picture =>
    obtain ⟨file', pushed, listed'⟩ := listed.push? (examine_eq_ok_iff.mp examined).2.2
    have pushed' : Kernel.push? (.pose file) picture = some (.pose file', [picture.marker]) := by
      simp only [Kernel.push?, pushed, Option.map_some]
    dsimp only
    rw [counted.give pushed']
    exact ⟨file', counted.after _, listed'⟩

theorem Lists.endStream (lists : p.Lists o frames) :
    ∃ artifact, p.endStream.lane.artifacts = [artifact] ∧ artifact.Lists o frames := by
  obtain ⟨file, service, listed⟩ := lists
  have ran : Lane.run? (.pose file) .finish = some (.pose file, [], [.poses file]) := rfl
  have given := give_of_run (p := { p with ended := true }) service.idle service.worker ran
  unfold Processor.endStream
  rw [if_neg (by simp [service.streaming]), given]
  exact ⟨.poses file, by simp [service.gathered], file, rfl, listed⟩

end Processor

end Simulated

section lease
variable {o : PoseOptions} {takings : Takings}

/-- All that was written are the pose lists of the processors that have ended. -/
def Noted.Lists (o : PoseOptions) (takings : Takings) (e : Noted Simulated ProcessorCall) : Prop :=
  List.Forall₂ (Artifact.Lists o) e.inner.artifacts (takings.afterAll e.notes).past

theorem Noted.lists_refused {spec : ProcessorSpec} {e e' : Noted Simulated ProcessorCall}
    {cause : EngineError} (refused : Engine.create spec e = (.error cause, e'))
    (written : e.Lists o takings) : e'.Lists o takings := by
  simp only [Engine.create] at refused
  rcases answer : e.inner.create spec with _ | p
  all_goals
    rw [answer] at refused
    cases refused
  exact written

namespace Lease
variable {l l' : Lease (Noted Simulated ProcessorCall) Simulated.Processor}

/-- What was written is right, and so is the list of the worker as long as its stream is open. -/
structure Lists (o : PoseOptions) (takings : Takings)
    (l : Lease (Noted Simulated ProcessorCall) Simulated.Processor) : Prop where
  written : l.engine.Lists o takings
  worker : l.handle.state = .streaming →
    l.handle.processor.Lists o (takings.afterAll l.engine.notes).present

theorem Lists.asked (lists : l.Lists o takings) {handle : Handle Simulated.Processor}
    (state : handle.state = l.handle.state)
    (worker : ∀ {frames}, l.handle.processor.Lists o frames →
      handle.processor.Lists o frames) :
    Lists o takings ⟨l.engine.add l.engine.inner .asked, handle⟩ := by
  constructor
  · rw [Noted.Lists, Takings.afterAll_add]
    exact lists.written
  · intro streaming
    rw [Takings.afterAll_add]
    exact worker (lists.worker (state.symm.trans streaming))

theorem lists_of_tends (tends : l.Tends l') (lists : l.Lists o takings) :
    l'.Lists o takings := by
  cases tends with
  | ready => exact lists.asked rfl Simulated.Processor.Lists.collect
  | discard =>
    have popped {frames} (listed : l.handle.processor.Lists o frames) := listed.pop
    simp only [discard, Engine.discard]
    generalize l.handle.processor.pop = answer at popped
    rcases answer with ⟨_ | output, p⟩ <;> exact lists.asked rfl popped
  | remaining => exact lists.asked rfl Simulated.Processor.Lists.collect
  | ended =>
    unfold endStream
    by_cases streaming : l.handle.state = .streaming
    · obtain ⟨artifact, out, listed⟩ := (lists.worker streaming).endStream
      rw [if_pos streaming]
      constructor
      · simp only [Noted.Lists, Engine.endStream]
        rw [Takings.afterAll_add]
        simp only [Noted.add, Simulated.gather, out]
        exact List.rel_append lists.written (.cons listed .nil)
      · intro late
        cases late
    · rw [if_neg streaming]
      exact lists
  | closed =>
    refine ⟨lists.written, fun late => ?_⟩
    cases late

theorem lists_of_attends (attended : l.Attends l') (lists : l.Lists o takings) :
    l'.Lists o takings := by
  induction attended with
  | refl => exact lists
  | tail _ tends ih => exact lists_of_tends tends ih

theorem lists_process (frame : Frame) (lists : l.Lists o takings) :
    (l.process frame).2.Lists o takings := by
  unfold process
  by_cases late : l.handle.state ≠ .streaming
  · rw [if_pos late]
    exact lists
  · rw [if_neg late]
    have processed := (lists.worker (not_not.mp late)).process frame
    simp only [Engine.process]
    generalize l.handle.processor.process frame = answer at processed
    rcases answer with ⟨cause | _, p⟩
    · dsimp only at processed ⊢
      rw [Simulated.gather_of_gathered _ processed.gathered]
      constructor
      · rw [Noted.Lists, withProcessor, Takings.afterAll_add]
        exact lists.written
      · intro streaming
        rw [withProcessor, Takings.afterAll_add]
        exact processed
    · dsimp only at processed ⊢
      rw [Simulated.gather_of_gathered _ processed.gathered]
      constructor
      · rw [Noted.Lists, Takings.afterAll_add]
        exact lists.written
      · intro streaming
        rw [Takings.afterAll_add]
        exact processed

theorem lists_submit (frame : Frame) (lists : l.Lists o takings) :
    (l.submit frame).2.Lists o takings := by
  have processed := lists_process frame lists
  unfold submit
  generalize l.process frame = answer at processed ⊢
  rcases answer with ⟨_ | _, l'⟩ <;> exact processed

theorem lists_drop (lists : l.Lists o takings) : l.drop.Lists o takings := by
  unfold drop Noted.Lists
  simp only [Engine.release]
  rw [Takings.afterAll_add]
  exact lists.written

theorem widen_flag (raised : Bool) : decide (0.0 < Number.widen (flag raised)) = raised := by
  cases raised <;> decide +kernel

theorem lists_create {o : PoseOptions} {model : Model} {link : Link}
    {e e' : Noted Simulated ProcessorCall} {p : Simulated.Processor}
    (created : Engine.create (o.settings.specFor model link) e = (.ok p, e'))
    (named : model.name = o.model) (written : e.Lists o takings) (name : String) :
    Lists o takings ⟨e', .start p name⟩ := by
  simp only [Engine.create] at created
  rcases answer : e.inner.create (o.settings.specFor model link) with cause | p'
  · rw [answer] at created
    cases created
  · rw [answer] at created
    cases created
    obtain ⟨kernel, built, rfl⟩ := Simulated.Processor.start_of_create answer
    cases built
    constructor
    · rw [Noted.Lists, Takings.afterAll_add]
      exact written
    · intro streaming
      rw [Takings.afterAll_add]
      exact ⟨_, ⟨rfl, rfl, rfl, rfl⟩, rfl, named, widen_flag _, .nil⟩

end Lease

namespace Station
variable {σ : Type} {s : Station (Noted Simulated ProcessorCall) Simulated.Processor σ}

/-- What was written is right, and so is the list of the worker of an open stream. -/
structure Lists (o : PoseOptions) (takings : Takings)
    (s : Station (Noted Simulated ProcessorCall) Simulated.Processor σ) : Prop where
  written : s.engine.Lists o takings
  lease : ∀ handle, s.session.handle = some handle → Lease.Lists o takings ⟨s.engine, handle⟩

theorem Lists.of_vacant (vacant : s.session.handle = none) (written : s.engine.Lists o takings) :
    s.Lists o takings := by
  refine ⟨written, fun handle there => ?_⟩
  rw [vacant] at there
  cases there

theorem Lists.of_lease {handle : Handle Simulated.Processor}
    (there : s.session.handle = some handle)
    (lists : Lease.Lists o takings ⟨s.engine, handle⟩) : s.Lists o takings := by
  refine ⟨lists.written, fun handle' there' => ?_⟩
  cases there.symm.trans there'
  exact lists

theorem lists_of_ceases {e : Noted Simulated ProcessorCall} (ceased : s.Ceases e)
    (lists : s.Lists o takings) : e.Lists o takings := by
  cases ceased with
  | vacant empty => exact lists.written
  | dropped there attended =>
    exact Lease.lists_drop (Lease.lists_of_attends attended (lists.lease _ there))

theorem lists_openStream (o : PoseOptions) (link : Link) (lists : s.Lists o takings) :
    (s.openStream o.settings link).2.Lists o takings := by
  have closed := lists_of_ceases s.ceases_close lists
  have vacant := s.handle_close
  unfold openStream
  dsimp only
  cases resolved : o.settings.resolve (Engine.offer s.close.engine) link with
  | error cause => exact .of_vacant vacant closed
  | ok granted =>
    obtain ⟨spec, outLink⟩ := granted
    obtain ⟨model, verified, rfl, -, -⟩ := StreamSettings.resolve_eq_ok_iff.mp resolved
    obtain ⟨-, -, named⟩ := Offer.of_checkModel (StreamSettings.of_verify verified).1
    dsimp only
    cases created : Engine.create (o.settings.specFor model link) s.close.engine with
    | mk result engine =>
      rcases result with cause | p
      · exact .of_vacant vacant (Noted.lists_refused created closed)
      · exact .of_lease rfl (Lease.lists_create created named closed _)

theorem lists_ignoreOutput (lists : s.Lists o takings) : s.ignoreOutput.Lists o takings := by
  rcases s with ⟨engine, ⟨_ | handle, settings, policy⟩, previous, out⟩
  · exact lists
  · exact .of_lease rfl
      (Lease.lists_of_attends (Lease.attends_ignoreOutput _) (lists.lease handle rfl))

theorem lists_submit (frame : Frame) (lists : s.Lists o takings) :
    (s.submit frame).2.Lists o takings := by
  rcases s with ⟨engine, ⟨_ | handle, settings, policy⟩, previous, out⟩
  · exact .of_vacant rfl lists.written
  · have submitted := Lease.lists_submit frame (lists.lease handle rfl)
    simp only [submit]
    generalize Lease.submit frame ⟨engine, handle⟩ = answer at submitted ⊢
    rcases answer with ⟨_ | _, l⟩ <;> exact .of_lease rfl submitted

theorem lists_passThrough [Sink σ] (frame : Frame) (lists : s.Lists o takings) :
    (s.passThrough frame).2.Lists o takings := by
  have submitted := lists_submit frame lists
  unfold passThrough
  generalize s.submit frame = answer at submitted ⊢
  rcases answer with ⟨_ | _, t⟩
  · exact submitted
  · have ignored := lists_ignoreOutput submitted
    exact ⟨ignored.written, ignored.lease⟩

end Station

namespace Host
variable {σ : Type} {h : Host (Noted Simulated ProcessorCall) Simulated.Processor σ}
  {o : PoseOptions}

theorem lists_configure (link : Link) (estimates : h.stage.options = .pose o)
    (lists : h.station.Lists o takings) :
    (h.configure link).2.station.Lists o takings := by
  have opened := Station.lists_openStream o link lists
  have configured :
      (h.stage.configure link).2.station = (h.station.openStream o.settings link).2 := by
    simp only [Stage.configure, estimates]
    rfl
  rw [← configured] at opened
  have links := h.links_configure link
  generalize h.configure link = answer at links ⊢
  cases links with
  | mismatched cause => exact lists
  | refused configured =>
    rw [configured] at opened
    exact opened
  | linked configured =>
    rw [configured] at opened
    exact ⟨opened.written, opened.lease⟩

theorem lists_close (lists : h.station.Lists o takings) :
    h.close.station.Lists o takings := by
  have closed := Station.lists_of_ceases h.station.ceases_close lists
  refine .of_vacant h.advances_close.2 ?_
  simp only [close, Stage.close]
  split <;> exact closed

variable [Sink σ]

theorem lists_takeFrame (frame : Frame) (estimates : h.stage.options = .pose o)
    (lists : h.station.Lists o takings) : (h.takeFrame frame).2.station.Lists o takings := by
  obtain ⟨failures, taken⟩ := takeFrame_eq frame h
  have passed := Station.lists_passThrough frame lists
  rw [taken]
  simp only [Stage.accept, estimates, StageOptions.synthesizes, Bool.false_eq_true, if_false]
  exact passed

theorem lists_finish (estimates : h.stage.options = .pose o)
    (lists : h.station.Lists o takings) : h.finish.2.station.Lists o takings := by
  have drained := Station.lists_of_ceases h.station.ceases_drainIgnoring lists
  have drains : h.stage.drain.2.station = h.station.drainIgnoring.2 := by
    simp only [Stage.drain, estimates, StageOptions.synthesizes, Bool.false_eq_true, if_false]
  rw [← drains] at drained
  refine .of_vacant h.vacant_finish ?_
  have finishes := h.finishes_finish
  generalize h.finish = answer at finishes ⊢
  cases finishes with
  | failed answer =>
    rw [answer] at drained
    exact drained
  | closed answer =>
    rw [answer] at drained
    exact drained

theorem lists_request {ρ : Type} [Source ρ] (source : ρ) (estimates : h.stage.options = .pose o)
    (lists : h.station.Lists o takings) :
    (h.request source).2.1.station.Lists o takings := by
  have pooled (pool : Pool) : (h.withPool pool).station.Lists o takings :=
    ⟨lists.written, lists.lease⟩
  have pulls := h.pulls_request source
  generalize h.request source = answer at pulls ⊢
  cases pulls with
  | ended state => exact lists
  | repeated state => exact lists
  | faulted pulling supplied => exact pooled _
  | took pulling supplied => exact lists_takeFrame _ estimates (pooled _)
  | finished pulling supplied => exact lists_finish estimates (pooled _)

end Host

end lease

namespace World
variable {σ ρ : Type} [Sink σ] [Source ρ] {o : PoseOptions}

/-- What was written is right after each call, counted from the frames accepted before it. -/
theorem lists_perform {w : World Simulated Simulated.Processor σ ρ} {takings : Takings}
    (estimates : w.host.stage.options = .pose o)
    (lists : w.noted.host.station.Lists o takings) (call : Call (Supply σ ρ)) :
    (w.perform Supply.apply call).2.noted.host.station.Lists o
      (takings.afterAll (w.processorCalls Supply.apply call)) := by
  have noted : (w.noted.perform (besideNotes Supply.apply) call).2.host.station.Lists o
      takings := by
    cases call with
    | configure link => exact Host.lists_configure link estimates lists
    | request => exact Host.lists_request w.source estimates lists
    | close => exact Host.lists_close lists
    | outside event => exact ⟨lists.written, lists.lease⟩
  rw [map_noted_perform Supply.apply w call]
  exact ⟨noted.written, fun handle there => ⟨noted.written, (noted.lease handle there).worker⟩⟩

theorem lists_run {w : World Simulated Simulated.Processor σ ρ} {takings : Takings}
    (estimates : w.host.stage.options = .pose o)
    (lists : w.noted.host.station.Lists o takings) (calls : List (Call (Supply σ ρ))) :
    (w.run Supply.apply calls).noted.host.station.Lists o
      (takings.afterAll (w.processorHistory Supply.apply calls)) := by
  induction calls generalizing w takings with
  | nil => exact lists
  | cons call rest ih =>
    have estimates' : (w.perform Supply.apply call).2.host.stage.options = .pose o :=
      (options_perform Supply.apply w call).trans estimates
    rw [processorHistory, Takings.afterAll_append]
    exact ih estimates' (lists_perform estimates lists call)

end World

section world
variable {ε π σ ρ κ : Type} [Engine ε π] [Sink σ] [Source ρ]
  (act : κ → Surroundings ε σ ρ → Surroundings ε σ ρ)

namespace World

end World

end world

end FrameRelay
