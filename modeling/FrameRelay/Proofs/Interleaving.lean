import FrameRelay.Engine.Lane
import Mathlib.Data.List.Induction

/-! A stage and its worker at the same time. A job is counted before it waits; the worker runs it,
sends the outputs one at a time and counts it as done only then; the stage reads the count of jobs
before it takes over what was sent. The steps of the two may mix in any order. -/

namespace FrameRelay

/-- What the worker is at. -/
inductive WorkerPhase where
  | waiting
  | working (job : Job)
  | sending (batch : List Output)

namespace WorkerPhase

/-- The outputs that are made and not sent. -/
@[simp] def batch : WorkerPhase → List Output
  | .sending batch => batch
  | _ => []

/-- The job that is taken and not run. -/
@[simp] def held : WorkerPhase → List Job
  | .working job => [job]
  | _ => []

/-- The jobs that are taken and still counted. -/
@[simp] def load : WorkerPhase → Nat
  | .waiting => 0
  | _ => 1

end WorkerPhase

/-- The call that the stage is in the middle of: `counted` has not handed over its job, `looking`
takes over outputs, `asked` does so too and remembers the count of jobs it has read. -/
inductive CallPhase where
  | idle
  | counted (job : Job)
  | looking
  | asked (outstanding : Nat)

namespace CallPhase

/-- The jobs that are counted and do not wait yet. -/
@[simp] def load : CallPhase → Nat
  | .counted _ => 1
  | _ => 0

/-- Whether the call takes over outputs. -/
def collects : CallPhase → Bool
  | .looking | .asked _ => true
  | _ => false

end CallPhase

/-- A lane with both sides at work on it. -/
structure Traffic where
  lane : Lane
  worker : WorkerPhase
  call : CallPhase

/-- What there is to see of the two: the calls of the stage, and what the kernel made of a job. -/
inductive Deed where
  | submitted (job : Job)
  | counted (ready : Nat)
  | asked
  | answered (remaining : Nat)
  | pulled (output : Output)
  | made (job : Job) (outputs : List Output)

namespace Deed

@[simp] def submission? : Deed → Option Job
  | .submitted job => some job
  | _ => none

@[simp] def completion? : Deed → Option Job
  | .made job _ => some job
  | _ => none

@[simp] def production : Deed → List Output
  | .made _ outputs => outputs
  | _ => []

@[simp] def delivery? : Deed → Option Output
  | .pulled output => some output
  | _ => none

end Deed

/-- The jobs submitted in the course of some deeds. -/
def submitted (deeds : List Deed) : List Job := deeds.filterMap Deed.submission?

/-- The jobs the kernel has run. -/
def completed (deeds : List Deed) : List Job := deeds.filterMap Deed.completion?

/-- The outputs the kernel has made. -/
def produced (deeds : List Deed) : List Output := deeds.flatMap Deed.production

/-- The outputs pulled. -/
def delivered (deeds : List Deed) : List Output := deeds.filterMap Deed.delivery?

@[simp] theorem submitted_concat (deeds : List Deed) (deed : Deed) :
    submitted (deeds ++ [deed]) = submitted deeds ++ deed.submission?.toList := by
  cases deed <;> simp [submitted]

@[simp] theorem completed_concat (deeds : List Deed) (deed : Deed) :
    completed (deeds ++ [deed]) = completed deeds ++ deed.completion?.toList := by
  cases deed <;> simp [completed]

@[simp] theorem produced_concat (deeds : List Deed) (deed : Deed) :
    produced (deeds ++ [deed]) = produced deeds ++ deed.production := by
  simp [produced]

@[simp] theorem delivered_concat (deeds : List Deed) (deed : Deed) :
    delivered (deeds ++ [deed]) = delivered deeds ++ deed.delivery?.toList := by
  cases deed <;> simp [delivered]

/-- What a kernel makes of jobs one after the other. None if it fails on one of them. -/
def Lane.runAll? (kernel : Kernel) : List Job → Option (Kernel × List Output)
  | [] => some (kernel, [])
  | job :: jobs =>
    (run? kernel job).bind fun (kernel, outputs, _) =>
      (runAll? kernel jobs).map fun (kernel, later) => (kernel, outputs ++ later)

theorem Lane.runAll?_concat {kernel after next : Kernel} {jobs : List Job} {job : Job}
    {outputs made : List Output} {artifacts : List Artifact}
    (sofar : runAll? kernel jobs = some (after, outputs))
    (ran : run? after job = some (next, made, artifacts)) :
    runAll? kernel (jobs ++ [job]) = some (next, outputs ++ made) := by
  induction jobs generalizing kernel outputs with
  | nil =>
    obtain ⟨rfl, rfl⟩ : kernel = after ∧ [] = outputs := by simpa [runAll?] using sofar
    simp [runAll?, ran]
  | cons first jobs ih =>
    cases head : run? kernel first with
    | none => simp [runAll?, head] at sofar
    | some result =>
      obtain ⟨then_, fromFirst, left⟩ := result
      cases tail : runAll? then_ jobs with
      | none => simp [runAll?, head, tail] at sofar
      | some result =>
        obtain ⟨rfl, rfl⟩ : result.1 = after ∧ fromFirst ++ result.2 = outputs := by
          simpa [runAll?, head, tail] using sofar
        simp [runAll?, head, ih tail]

namespace Traffic

/-- Nobody is in the middle of anything. -/
def rest (lane : Lane) : Traffic := ⟨lane, .waiting, .idle⟩

def start (kernel : Kernel) : Traffic := rest (.start kernel)

/-- One step of the stage or of the worker, with what there is to see of it. -/
inductive Step : Traffic → List Deed → Traffic → Prop where
  /-- A job is counted first -/
  | count (lane : Lane) (worker : WorkerPhase) (job : Job) :
      Step ⟨lane, worker, .idle⟩ []
        ⟨{ lane with outstanding := lane.outstanding + 1 }, worker, .counted job⟩
  /-- and waits from then on. -/
  | enqueue (lane : Lane) (worker : WorkerPhase) (job : Job) :
      Step ⟨lane, worker, .counted job⟩ [.submitted job]
        ⟨{ lane with jobs := lane.jobs ++ [job] }, worker, .idle⟩
  | look (lane : Lane) (worker : WorkerPhase) :
      Step ⟨lane, worker, .idle⟩ [] ⟨lane, worker, .looking⟩
  /-- The count of jobs is read before anything is taken over. -/
  | ask (lane : Lane) (worker : WorkerPhase) :
      Step ⟨lane, worker, .idle⟩ [.asked] ⟨lane, worker, .asked lane.outstanding⟩
  /-- One output is taken over; more may be sent before the next is. -/
  | collect (lane : Lane) (worker : WorkerPhase) (call : CallPhase) {output : Output}
      {later : List Output} (collects : call.collects = true)
      (sent : lane.results = output :: later) :
      Step ⟨lane, worker, call⟩ []
        ⟨{ lane with ready := lane.ready ++ [output], results := later }, worker, call⟩
  /-- A call that finds nothing more to take over comes to its end. -/
  | looked (lane : Lane) (worker : WorkerPhase) (none_left : lane.results = []) :
      Step ⟨lane, worker, .looking⟩ [.counted lane.ready.length] ⟨lane, worker, .idle⟩
  | answer (lane : Lane) (worker : WorkerPhase) (outstanding : Nat)
      (none_left : lane.results = []) :
      Step ⟨lane, worker, .asked outstanding⟩ [.answered (outstanding + lane.ready.length)]
        ⟨lane, worker, .idle⟩
  | pull (lane : Lane) (worker : WorkerPhase) {output : Output} {later : List Output}
      (first : lane.ready = output :: later) :
      Step ⟨lane, worker, .idle⟩ [.pulled output] ⟨{ lane with ready := later }, worker, .idle⟩
  | take (lane : Lane) (call : CallPhase) {job : Job} {later : List Job}
      (first : lane.jobs = job :: later) :
      Step ⟨lane, .waiting, call⟩ [] ⟨{ lane with jobs := later }, .working job, call⟩
  | work (lane : Lane) (call : CallPhase) {kernel next : Kernel} {job : Job}
      {outputs : List Output} {artifacts : List Artifact} (alive : lane.worker = some kernel)
      (ran : Lane.run? kernel job = some (next, outputs, artifacts)) :
      Step ⟨lane, .working job, call⟩ [.made job outputs]
        ⟨{ lane with worker := some next, artifacts := lane.artifacts ++ artifacts },
          .sending outputs, call⟩
  | send (lane : Lane) (call : CallPhase) (output : Output) (later : List Output) :
      Step ⟨lane, .sending (output :: later), call⟩ []
        ⟨{ lane with results := lane.results ++ [output] }, .sending later, call⟩
  /-- Only now is the job done. -/
  | done (lane : Lane) (call : CallPhase) :
      Step ⟨lane, .sending [], call⟩ []
        ⟨{ lane with outstanding := lane.outstanding - 1 }, .waiting, call⟩

/-- Any number of steps, with all that was to see. -/
inductive Run (t : Traffic) : List Deed → Traffic → Prop where
  | refl : Run t [] t
  | step {t' t'' : Traffic} {deeds more : List Deed} (sofar : Run t deeds t')
      (next : Step t' more t'') : Run t (deeds ++ more) t''

namespace Run
variable {t t' t'' : Traffic} {deeds more : List Deed}

theorem single (next : Step t deeds t') : Run t deeds t' := by
  simpa using Run.step .refl next

theorem trans (first : Run t deeds t') (second : Run t' more t'') : Run t (deeds ++ more) t'' := by
  induction second with
  | refl => simpa using first
  | step _ next ih => simpa only [← List.append_assoc] using Run.step ih next

theorem head (next : Step t deeds t') (later : Run t' more t'') : Run t (deeds ++ more) t'' :=
  trans (single next) later

end Run

/-- What the stage and the worker have between them: every job submitted is run, in the worker's
hands or waiting, every output made is pulled or in one of the three places on its way, and the
count of jobs misses none. A count of zero that was read stays true until it is answered, since no
job can come in between. -/
structure Sound (kernel : Kernel) (deeds : List Deed) (t : Traffic) : Prop where
  ran : ∃ now, t.lane.worker = some now ∧
    Lane.runAll? kernel (completed deeds) = some (now, produced deeds)
  jobs_eq : submitted deeds = completed deeds ++ t.worker.held ++ t.lane.jobs
  outputs_eq : produced deeds =
    delivered deeds ++ (t.lane.ready ++ t.lane.results ++ t.worker.batch)
  outstanding_eq : t.lane.outstanding = t.lane.jobs.length + t.worker.load + t.call.load
  asked_zero : t.call = .asked 0 →
    t.lane.jobs = [] ∧ t.worker = .waiting ∧ ∃ earlier, deeds = earlier ++ [.asked]

theorem sound_start (kernel : Kernel) : Sound kernel [] (start kernel) where
  ran := ⟨kernel, rfl, rfl⟩
  jobs_eq := rfl
  outputs_eq := rfl
  outstanding_eq := rfl
  asked_zero := by rintro ⟨⟩

theorem Sound.step {kernel : Kernel} {deeds more : List Deed} {t t' : Traffic}
    (sound : Sound kernel deeds t) (next : Step t more t') : Sound kernel (deeds ++ more) t' := by
  obtain ⟨ran, jobs_eq, outputs_eq, outstanding_eq, asked_zero⟩ := sound
  cases next with
  | count lane worker job =>
    refine ⟨by simpa using ran, by simpa using jobs_eq, by simpa using outputs_eq, ?_, nofun⟩
    simp only [CallPhase.load] at outstanding_eq ⊢
    omega
  | enqueue lane worker job =>
    refine ⟨by simpa using ran, by simp [jobs_eq], by simpa using outputs_eq, ?_, nofun⟩
    simp only [CallPhase.load, List.length_append, List.length_singleton] at outstanding_eq ⊢
    omega
  | look lane worker =>
    exact ⟨by simpa using ran, by simpa using jobs_eq, by simpa using outputs_eq, outstanding_eq,
      nofun⟩
  | ask lane worker =>
    refine ⟨by simpa using ran, by simpa using jobs_eq, by simpa using outputs_eq, outstanding_eq,
      fun zero => ?_⟩
    have none_counted : lane.outstanding = 0 := CallPhase.asked.inj zero
    simp only [CallPhase.load] at outstanding_eq
    have no_jobs : lane.jobs = [] := List.eq_nil_of_length_eq_zero (by omega)
    have unloaded : worker.load = 0 := by omega
    cases worker with
    | waiting => exact ⟨no_jobs, rfl, deeds, rfl⟩
    | working job => cases unloaded
    | sending batch => cases unloaded
  | collect lane worker call collects sent =>
    exact ⟨by simpa using ran, by simpa using jobs_eq, by simpa [sent] using outputs_eq,
      outstanding_eq, by simpa using asked_zero⟩
  | looked lane worker none_left =>
    exact ⟨by simpa using ran, by simpa using jobs_eq, by simpa using outputs_eq, outstanding_eq,
      nofun⟩
  | answer lane worker outstanding none_left =>
    exact ⟨by simpa using ran, by simpa using jobs_eq, by simpa using outputs_eq, outstanding_eq,
      nofun⟩
  | pull lane worker first =>
    refine ⟨by simpa using ran, by simpa using jobs_eq, ?_, outstanding_eq, nofun⟩
    simpa [first] using outputs_eq
  | take lane call first =>
    refine ⟨by simpa using ran, ?_, by simpa using outputs_eq, ?_, fun zero => ?_⟩
    · simpa [first] using jobs_eq
    · simp only [WorkerPhase.load, first, List.length_cons] at outstanding_eq ⊢
      omega
    · -- With a job waiting, the count that was read is not zero.
      have no_jobs := (asked_zero zero).1
      simp [first] at no_jobs
  | @work lane call before after job outputs artifacts alive makes =>
    obtain ⟨now, alive_now, sofar⟩ := ran
    obtain rfl : now = before := Option.some.inj (alive_now.symm.trans alive)
    have together := Lane.runAll?_concat sofar makes
    exact ⟨⟨after, rfl, by simpa using together⟩, by simpa using jobs_eq, by simp [outputs_eq],
      outstanding_eq, fun zero => nomatch (asked_zero zero).2.1⟩
  | send lane call output later =>
    exact ⟨by simpa using ran, by simpa using jobs_eq, by simpa using outputs_eq, outstanding_eq,
      fun zero => nomatch (asked_zero zero).2.1⟩
  | done lane call =>
    refine ⟨by simpa using ran, by simpa using jobs_eq, by simpa using outputs_eq, ?_,
      fun zero => nomatch (asked_zero zero).2.1⟩
    simp only [WorkerPhase.load] at outstanding_eq ⊢
    omega

theorem Run.sound {kernel : Kernel} {deeds : List Deed} {t : Traffic}
    (run : Run (start kernel) deeds t) : Sound kernel deeds t := by
  induction run with
  | refl => exact sound_start kernel
  | step _ next ih => exact ih.step next

theorem Step.deeds_cases {t t' : Traffic} {deeds : List Deed} (next : Step t deeds t') :
    deeds = [] ∨ ∃ deed, deeds = [deed] := by
  cases next <;> first | exact .inl rfl | exact .inr ⟨_, rfl⟩

theorem Step.of_answered {t t' : Traffic} {remaining : Nat}
    (answers : Step t [.answered remaining] t') :
    ∃ outstanding, t.call = .asked outstanding ∧ t.lane.results = [] ∧
      remaining = outstanding + t.lane.ready.length := by
  cases answers with
  | answer lane worker outstanding none_left => exact ⟨outstanding, rfl, none_left, rfl⟩

theorem Run.at_deed {t t' : Traffic} {deeds before after : List Deed} {deed : Deed}
    (run : Run t deeds t') (split : deeds = before ++ deed :: after) :
    ∃ u u', Run t before u ∧ Step u [deed] u' := by
  induction run generalizing before after deed with
  | refl => simp at split
  | @step t' t'' deeds last sofar next ih =>
    obtain none_shown | ⟨shown, one_shown⟩ := next.deeds_cases
    · exact ih (by simpa [none_shown] using split)
    · subst one_shown
      cases after using List.reverseRecOn with
      | nil =>
        obtain ⟨same, rfl⟩ : deeds = before ∧ shown = deed := by
          simpa using List.append_inj' split rfl
        exact ⟨t', t'', same ▸ sofar, next⟩
      | append_singleton after final =>
        have same : deeds ++ [shown] = (before ++ deed :: after) ++ [final] := by
          simpa using split
        exact ih (List.append_inj' same rfl).1

/-- Outputs are pulled once each and in the order the kernel made them, and the kernel runs the
jobs in the order of their submission. A count of zero is given only if, when it was asked for,
every job submitted had been run and all that they brought had been pulled. -/
theorem nothing_left_behind {kernel : Kernel} {deeds : List Deed} {t : Traffic}
    (run : Run (start kernel) deeds t) :
    (∃ now, Lane.runAll? kernel (completed deeds) = some (now, produced deeds)) ∧
      completed deeds <+: submitted deeds ∧ delivered deeds <+: produced deeds ∧
      ∀ before after, deeds = before ++ .answered 0 :: after →
        ∃ earlier, before = earlier ++ [.asked] ∧ completed earlier = submitted earlier ∧
          delivered earlier = produced earlier := by
  obtain ⟨⟨now, -, ran⟩, jobs_eq, outputs_eq, -, -⟩ := run.sound
  refine ⟨⟨now, ran⟩, ?_, ?_, fun before after split => ?_⟩
  · rw [jobs_eq, List.append_assoc]
    exact List.prefix_append _ _
  · rw [outputs_eq]
    exact List.prefix_append _ _
  · obtain ⟨u, u', reached, answers⟩ := run.at_deed split
    obtain ⟨outstanding, asking, no_results, zero⟩ := answers.of_answered
    obtain ⟨-, jobs_eq, outputs_eq, -, asked_zero⟩ := reached.sound
    have none_read : outstanding = 0 := by omega
    have none_ready : u.lane.ready = [] := List.eq_nil_of_length_eq_zero (by omega)
    obtain ⟨no_jobs, waiting, earlier, rfl⟩ := asked_zero (none_read ▸ asking)
    refine ⟨earlier, rfl, ?_, ?_⟩
    · simpa [no_jobs, waiting] using jobs_eq.symm
    · simpa [none_ready, no_results, waiting] using outputs_eq.symm

/-- A picture of one pixel. -/
def dot : Picture := ⟨1, 1, 0, #[7, 8, 9]⟩

/-- The worker sends and counts a picture as done between the reading of the count and its answer,
which is one too high then; the next answer is zero. -/
theorem nothing_left_behind_upscale :
    ∃ earlier, [Deed.submitted (.picture dot), .made (.picture dot) [dot.output],
      .asked, .answered 2, .pulled dot.output, .asked] = earlier ++ [.asked] ∧
      completed earlier = submitted earlier ∧ delivered earlier = produced earlier := by
  have submits : Run (start (.upscale 1)) [.submitted (.picture dot)]
      ⟨⟨some (.upscale 1), [.picture dot], 1, [], [], []⟩, .waiting, .idle⟩ :=
    .head (.count _ _ _) (.single (.enqueue _ _ _))
  have works : Run ⟨⟨some (.upscale 1), [.picture dot], 1, [], [], []⟩, .waiting, .idle⟩
      [.made (.picture dot) [dot.output]]
      ⟨⟨some (.upscale 1), [], 1, [], [], []⟩, .sending [dot.output], .idle⟩ :=
    .head (.take _ _ rfl) (.single (.work _ _ rfl rfl))
  have asks : Run ⟨⟨some (.upscale 1), [], 1, [], [], []⟩, .sending [dot.output], .idle⟩
      [.asked, .answered 2]
      ⟨⟨some (.upscale 1), [], 0, [], [dot.output], []⟩, .waiting, .idle⟩ :=
    .head (.ask _ _) (.head (.send _ _ _ _) (.head (.done _ _)
      (.head (.collect _ _ _ rfl rfl) (.single (.answer _ _ _ rfl)))))
  have pulls : Run ⟨⟨some (.upscale 1), [], 0, [], [dot.output], []⟩, .waiting, .idle⟩
      [.pulled dot.output, .asked, .answered 0]
      ⟨⟨some (.upscale 1), [], 0, [], [], []⟩, .waiting, .idle⟩ :=
    .head (.pull _ _ rfl) (.head (.ask _ _) (.single (.answer _ _ _ rfl)))
  exact (nothing_left_behind (submits.trans (works.trans (asks.trans pulls)))).2.2.2 _ [] rfl

/-! What a lane does in one go is one way for the steps to mix. -/

variable {lane lane' : Lane}

theorem run_submit {job : Job} (accepted : lane.submit job = (.ok (), lane')) :
    Run (rest lane) [.submitted job] (rest lane') := by
  obtain ⟨worker, jobs, outstanding, results, ready, artifacts⟩ := lane
  cases worker with
  | none => cases accepted
  | some kernel =>
    cases accepted
    exact .head (.count _ _ job) (.single (.enqueue _ _ job))

theorem run_collect (lane : Lane) (worker : WorkerPhase) {call : CallPhase}
    (collects : call.collects = true) :
    Run ⟨lane, worker, call⟩ [] ⟨lane.collect, worker, call⟩ := by
  obtain ⟨alive, jobs, outstanding, results, ready, artifacts⟩ := lane
  induction results generalizing ready with
  | nil => simpa [Lane.collect] using Run.refl
  | cons output results ih =>
    have later := ih (ready ++ [output])
    simp only [Lane.collect, List.append_assoc, List.singleton_append] at later
    exact .head (.collect _ worker call collects rfl) later

theorem run_look (lane : Lane) :
    Run (rest lane) [.counted lane.collect.ready.length] (rest lane.collect) :=
  .head (.look _ _) (.trans (run_collect lane .waiting rfl) (.single (.looked _ _ rfl)))

theorem run_remaining (lane : Lane) :
    Run (rest lane) [.asked, .answered lane.remaining.1] (rest lane.remaining.2) :=
  .head (.ask _ _) (.trans (run_collect lane .waiting rfl) (.single (.answer _ _ _ rfl)))

theorem run_send (lane : Lane) (call : CallPhase) (batch : List Output) :
    Run ⟨lane, .sending batch, call⟩ []
      ⟨{ lane with results := lane.results ++ batch }, .sending [], call⟩ := by
  obtain ⟨alive, jobs, outstanding, results, ready, artifacts⟩ := lane
  induction batch generalizing results with
  | nil => simpa using Run.refl
  | cons output batch ih =>
    have later := ih (results ++ [output])
    simp only [List.append_assoc, List.singleton_append] at later
    exact .head (.send _ call output batch) later

theorem run_perform {kernel next : Kernel} {job : Job} {outputs : List Output}
    {artifacts : List Artifact} (alive : lane.worker = some kernel)
    (ran : Lane.run? kernel job = some (next, outputs, artifacts)) (later : List Job) :
    Run (rest { lane with jobs := job :: later }) [.made job outputs]
      (rest { lane.perform job with jobs := later }) := by
  obtain ⟨worker, jobs, outstanding, results, ready, made⟩ := lane
  cases alive
  simp only [Lane.perform, ran]
  exact .head (.take _ .idle rfl) (.head (.work _ .idle rfl ran)
    (.trans (run_send _ .idle outputs) (.single (.done _ .idle))))

theorem foldl_perform_of_gone (gone : lane.worker = none) (jobs : List Job) :
    jobs.foldl Lane.perform lane = lane := by
  induction jobs with
  | nil => rfl
  | cons job jobs ih => simpa only [List.foldl_cons, Lane.perform, gone] using ih

theorem jobs_perform (lane : Lane) (job : Job) : (lane.perform job).jobs = lane.jobs := by
  unfold Lane.perform
  split
  · rfl
  · split <;> rfl

theorem run_of_perform {job : Job} (lives : (lane.perform job).worker ≠ none) :
    ∃ kernel made, lane.worker = some kernel ∧ Lane.run? kernel job = some made := by
  unfold Lane.perform at lives
  split at lives
  · exact absurd (by assumption) lives
  · split at lives
    · exact absurd rfl lives
    · exact ⟨_, _, by assumption, by assumption⟩

/-- The worker does the jobs that wait one after the other, unless its kernel fails on one. -/
theorem run_foldl (jobs : List Job) (lane : Lane) (waits : lane.jobs = [])
    (survives : (jobs.foldl Lane.perform lane).worker ≠ none) :
    ∃ deeds, completed deeds = jobs ∧ (∀ deed ∈ deeds, ∃ job outputs, deed = .made job outputs) ∧
      Run (rest { lane with jobs }) deeds (rest (jobs.foldl Lane.perform lane)) := by
  induction jobs generalizing lane with
  | nil =>
    refine ⟨[], rfl, nofun, ?_⟩
    obtain ⟨worker, jobs, outstanding, results, ready, artifacts⟩ := lane
    cases waits
    exact .refl
  | cons job jobs ih =>
    rw [List.foldl_cons] at survives ⊢
    have lives : (lane.perform job).worker ≠ none := fun gone =>
      survives (by rw [foldl_perform_of_gone gone, gone])
    obtain ⟨kernel, made, there, ran⟩ := run_of_perform lives
    obtain ⟨deeds, does, only_made, later⟩ :=
      ih (lane.perform job) ((jobs_perform lane job).trans waits) survives
    have first := run_perform there ran jobs
    exact ⟨.made job made.2.1 :: deeds, congrArg (job :: ·) does,
      List.forall_mem_cons.mpr ⟨⟨job, made.2.1, rfl⟩, only_made⟩, first.trans later⟩

theorem run_settle (alive : lane.settle.worker ≠ none) :
    ∃ deeds, completed deeds = lane.jobs ∧
      (∀ deed ∈ deeds, ∃ job outputs, deed = .made job outputs) ∧
      Run (rest lane) deeds (rest lane.settle) :=
  run_foldl lane.jobs { lane with jobs := [] } rfl alive

end Traffic

end FrameRelay
