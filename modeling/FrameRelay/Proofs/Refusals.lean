import FrameRelay.Proofs.Delivery
import FrameRelay.Proofs.Drain
import Mathlib.Data.PFun

/-! What a sink that refuses frames costs. A call that passes outputs on goes as far as the first
output that is refused; it loses that one alone, and the next call goes on behind it. -/

namespace FrameRelay

section loop
variable {α β : Type} {step : α → β ⊕ α} {state next : α} {answer : β}

open Classical in
/-- Repeats a step until it answers. No result means that it never does. -/
noncomputable def untilAnswer (step : α → β ⊕ α) (state : α) : Option β :=
  (PFun.fix (fun state => Part.some (step state)) state).toOption

theorem untilAnswer_of_inl (answers : step state = .inl answer) :
    untilAnswer step state = some answer := by
  classical
  simp only [untilAnswer, Part.toOption_eq_some_iff]
  exact PFun.mem_fix_iff.mpr (.inl (answers ▸ Part.mem_some _))

theorem untilAnswer_of_inr (goes : step state = .inr next) :
    untilAnswer step state = untilAnswer step next := by
  classical
  have same : PFun.fix (fun state => Part.some (step state)) state =
      PFun.fix (fun state => Part.some (step state)) next :=
    PFun.fix_fwd_eq (goes ▸ Part.mem_some _)
  simp only [untilAnswer, same]

end loop

namespace Recorder

/-- Whether the frame of an output is refused. A suppressed one never comes to the sink. -/
def refuses (r : Recorder) (output : Int × UInt16) : Bool :=
  decide (0 ≤ output.1) && decide (output.1 ∈ r.refusedPts)

/-- The recorder after it took some frames. -/
def took (frames : List Frame) (r : Recorder) : Recorder :=
  { r with
    events := r.events ++ frames.map .frame
    held := if r.keeps then r.held ++ frames else r.held }

section
variable {r : Recorder} {passed : List (Int × UInt16)}

theorem filter_refuses (fine : ∀ output ∈ passed, r.refuses output = false)
    (later : List (Int × UInt16)) :
    (passed ++ later).filter r.refuses = later.filter r.refuses := by
  have none_before : passed.filter r.refuses = [] := by
    simpa using fine
  rw [List.filter_append, none_before, List.nil_append]

theorem filter_not_refuses (fine : ∀ output ∈ passed, r.refuses output = false)
    (later : List (Int × UInt16)) :
    ((passed ++ later).filter fun output => !r.refuses output) =
      passed ++ later.filter fun output => !r.refuses output := by
  have all_before : (passed.filter fun output => !r.refuses output) = passed := by
    simpa using fine
  rw [List.filter_append, all_before]

end

end Recorder

/-- The error for an output that is refused. -/
def StageError.refusal (output : Int × UInt16) : StageError :=
  .downstream output.1 ("frame " ++ toString output.1 ++ " refused")

namespace Outlet

/-- The outlet after its sink took some pooled frames. Those that it does not keep are let go. -/
def took (frames : List Frame) (o : Outlet Recorder) : Outlet Recorder :=
  { o with
    sink := o.sink.took frames
    pool := ⟨o.pool.live + if o.sink.keeps then (frames.length : Int) else 0⟩
    pushed := o.pushed + frames.length }

theorem took_nil (o : Outlet Recorder) : o.took [] = o := by
  rcases o with ⟨link, ⟨refused, refusesEnd, keeps, events, held⟩, pool, pushed, endSent⟩
  simp [took, Recorder.took]

theorem took_append (first second : List Frame) (o : Outlet Recorder) :
    (o.took first).took second = o.took (first ++ second) := by
  rcases o with ⟨link, ⟨refused, refusesEnd, keeps, events, held⟩, pool, pushed, endSent⟩
  cases keeps <;> simp [took, Recorder.took, Int.add_assoc, Nat.add_assoc]

theorem refuses_took (frames : List Frame) (o : Outlet Recorder) :
    (o.took frames).sink.refuses = o.sink.refuses := rfl

variable {o : Outlet Recorder}

theorem push_of_taken (frame : Frame) (pooled : frame.pooled = true)
    (taken : frame.pts ∉ o.sink.refusedPts) :
    { o with pool := ⟨o.pool.live + 1⟩ }.push frame = (.ok (), o.took [frame]) := by
  rcases o with ⟨link, ⟨refused, refusesEnd, keeps, events, held⟩, pool, pushed, endSent⟩
  cases keeps <;>
    simp_all [push, Sink.accept, Recorder.accept, took, Recorder.took, release, Pool.release]

theorem push_of_refused (frame : Frame) (pooled : frame.pooled = true)
    (refused : frame.pts ∈ o.sink.refusedPts) :
    { o with pool := ⟨o.pool.live + 1⟩ }.push frame =
      (.error (.downstream frame.pts ("frame " ++ toString frame.pts ++ " refused")), o) := by
  simp [push, Sink.accept, Recorder.accept, refused, release, Pool.release, pooled]

end Outlet

namespace Lease
variable {link : Link} {l : Lease Script Unit} {out : Outlet Recorder}

theorem leftWith_leftWith (first second : List (Int × UInt16)) (pulled pulled' : Nat)
    (l : Lease Script Unit) :
    (l.leftWith first pulled).leftWith second pulled' = l.leftWith second (pulled + pulled') := by
  simp [leftWith, Nat.add_assoc]

theorem leftWith_ready (l : Lease Script Unit) : l.leftWith l.engine.ready 0 = l := rfl

theorem addFrom_of_passed (reference : Frame) (count more : Nat)
    {passed later : List (Int × UInt16)} (index pushed : Nat)
    (works : l.engine.knobs.failOutput = false) (linked : out.link = some link)
    (ready : l.engine.ready = passed ++ later)
    (fine : ∀ output ∈ passed, out.sink.refuses output = false) :
    addFrom reference count (passed.length + more) index pushed l out =
      addFrom reference count more (index + passed.length)
        (pushed + (link.send reference.aspect passed).length) (l.leftWith later passed.length)
        (out.took (link.send reference.aspect passed)) := by
  induction passed generalizing index pushed l out with
  | nil =>
    have same : l.leftWith later 0 = l := by
      rw [← l.leftWith_ready, ready]
      rfl
    simp [Link.send, Outlet.took_nil, same]
  | cons output rest ih =>
    rw [List.forall_mem_cons] at fine
    have oldest : l.engine.ready = output :: (rest ++ later) := ready
    have here := addFrom_cons reference count (rest.length + more) index pushed works linked oldest
    have next : (output :: rest).length + more = rest.length + more + 1 := by
      rw [List.length_cons]
      omega
    rw [next, here]
    by_cases suppressed : output.1 < 0
    · have sent := link.send_cons_of_neg reference.aspect suppressed rest
      have later_on := ih (index + 1) pushed (l := l.leftWith (rest ++ later) 1) works linked rfl
        fine.2
      rw [if_pos suppressed, later_on, sent, leftWith_leftWith, List.length_cons,
        Nat.add_comm rest.length 1, Nat.add_assoc]
    · have kept : 0 ≤ output.1 := by omega
      have sent := link.send_cons_of_not_neg reference.aspect suppressed rest
      have taken : output.1 ∉ out.sink.refusedPts := by
        simpa [Recorder.refuses, kept] using fine.1
      have handed := Outlet.push_of_taken (link.filled reference.aspect output) rfl taken
      have still : (out.took [link.filled reference.aspect output]).link = some link := linked
      have later_on := ih (index + 1) (pushed + 1) (l := l.leftWith (rest ++ later) 1) works still
        rfl fine.2
      simp only [if_neg suppressed, handed]
      rw [later_on, sent, leftWith_leftWith, Outlet.took_append, List.length_cons,
        List.length_cons, List.singleton_append, Nat.add_comm rest.length 1, Nat.add_assoc,
        Nat.add_assoc, Nat.add_comm (link.send reference.aspect rest).length 1]

theorem addFrom_of_refused (reference : Frame) (count more : Nat)
    {passed later : List (Int × UInt16)} {bad : Int × UInt16} (index pushed : Nat)
    (works : l.engine.knobs.failOutput = false) (linked : out.link = some link)
    (ready : l.engine.ready = passed ++ bad :: later)
    (fine : ∀ output ∈ passed, out.sink.refuses output = false)
    (refused : out.sink.refuses bad = true) :
    addFrom reference count (passed.length + (more + 1)) index pushed l out =
      (.error (.refusal bad), l.leftWith later (passed.length + 1),
        out.took (link.send reference.aspect passed)) := by
  obtain ⟨wanted, listed⟩ : 0 ≤ bad.1 ∧ bad.1 ∈ out.sink.refusedPts := by
    simpa [Recorder.refuses] using refused
  have still : (out.took (link.send reference.aspect passed)).link = some link := linked
  have last := addFrom_cons reference count more (index + passed.length)
    (pushed + (link.send reference.aspect passed).length)
    (l := l.leftWith (bad :: later) passed.length) works still rfl
  have handed : _ = (Except.error (StageError.refusal bad),
      out.took (link.send reference.aspect passed)) :=
    Outlet.push_of_refused (link.filled reference.aspect bad) rfl listed
  rw [addFrom_of_passed reference count (more + 1) index pushed works linked ready fine, last,
    if_neg (by omega)]
  simp only [handed, leftWith_leftWith]

theorem addOutput_of_passed (reference : Frame) (works : l.engine.knobs.failOutput = false)
    (linked : out.link = some link)
    (fine : ∀ output ∈ l.engine.ready, out.sink.refuses output = false) :
    addOutput reference l out = (.ok (link.send reference.aspect l.engine.ready).length,
      l.leftWith [] l.engine.ready.length,
      out.took (link.send reference.aspect l.engine.ready)) := by
  have ready : l.engine.ready = l.engine.ready ++ [] := (List.append_nil _).symm
  have passed := addFrom_of_passed reference l.engine.ready.length 0 0 0 works linked ready fine
  rw [Nat.add_zero, Nat.zero_add 
    (link.send reference.aspect l.engine.ready).length] at passed
  exact passed

theorem addOutput_of_refused (reference : Frame) {passed later : List (Int × UInt16)}
    {bad : Int × UInt16} (works : l.engine.knobs.failOutput = false)
    (linked : out.link = some link) (ready : l.engine.ready = passed ++ bad :: later)
    (fine : ∀ output ∈ passed, out.sink.refuses output = false)
    (refused : out.sink.refuses bad = true) :
    addOutput reference l out = (.error (.refusal bad), l.leftWith later (passed.length + 1),
      out.took (link.send reference.aspect passed)) := by
  have length : l.engine.ready.length = passed.length + (later.length + 1) := by
    rw [ready, List.length_append, List.length_cons]
  have stopped := addFrom_of_refused reference l.engine.ready.length later.length 0 0 works linked
    ready fine refused
  rw [← length] at stopped
  exact stopped

/-- A call that is made again as long as it fails, with the errors so far. -/
def retry (reference : Frame) (s : List StageError × Lease Script Unit × Outlet Recorder) :
    (List StageError × Nat × Lease Script Unit × Outlet Recorder) ⊕
      (List StageError × Lease Script Unit × Outlet Recorder) :=
  match addOutput reference s.2.1 s.2.2 with
  | (.ok last, l, out) => .inl (s.1, last, l, out)
  | (.error cause, l, out) => .inr (s.1 ++ [cause], l, out)

/-- Calls made until one succeeds get through the whole queue: each refused output costs one call
and is lost, every other output is passed on. -/
theorem retry_delivers (reference : Frame) (errors : List StageError)
    (works : l.engine.knobs.failOutput = false) (linked : out.link = some link) :
    ∃ last, untilAnswer (retry reference) (errors, l, out) =
      some (errors ++ (l.engine.ready.filter out.sink.refuses).map .refusal, last,
        l.leftWith [] l.engine.ready.length,
        out.took (link.send reference.aspect
          (l.engine.ready.filter fun output => !out.sink.refuses output))) := by
  -- On the length of the queue, for a call that fails leaves a shorter one.
  induction length : l.engine.ready.length using Nat.strongRecOn
    generalizing errors l out with
  | ind _ ih =>
    subst length
    cases first : l.engine.ready.find? out.sink.refuses with
    | none =>
      have fine : ∀ output ∈ l.engine.ready, out.sink.refuses output = false := by
        simpa using first
      have nothing : l.engine.ready.filter out.sink.refuses = [] := by
        simpa using fine
      have everything : (l.engine.ready.filter fun output => !out.sink.refuses output) =
          l.engine.ready := by
        simpa using fine
      refine ⟨(link.send reference.aspect l.engine.ready).length, ?_⟩
      refine untilAnswer_of_inl ?_
      rw [retry, addOutput_of_passed reference works linked fine, nothing, everything]
      simp
    | some bad =>
      obtain ⟨refused, passed, later, queue, before⟩ := List.find?_eq_some_iff_append.mp first
      have fine : ∀ output ∈ passed, out.sink.refuses output = false := by
        simpa using before
      have shorter : later.length < l.engine.ready.length := by
        rw [queue, List.length_append, List.length_cons]
        omega
      have still : (out.took (link.send reference.aspect passed)).link = some link := linked
      obtain ⟨last, rest⟩ := ih later.length shorter (errors ++ [.refusal bad])
        (l := l.leftWith later (passed.length + 1)) works still rfl
      have once : retry reference (errors, l, out) = .inr (errors ++ [.refusal bad],
          l.leftWith later (passed.length + 1), out.took (link.send reference.aspect passed)) := by
        rw [retry, addOutput_of_refused reference works linked queue fine refused]
      have refusals : l.engine.ready.filter out.sink.refuses =
          bad :: later.filter out.sink.refuses := by
        rw [queue, Recorder.filter_refuses fine, List.filter_cons_of_pos refused]
      have others : (l.engine.ready.filter fun output => !out.sink.refuses output) =
          passed ++ later.filter fun output => !out.sink.refuses output := by
        rw [queue, Recorder.filter_not_refuses fine, List.filter_cons_of_neg (by simp [refused])]
      have pulled : passed.length + 1 + later.length = l.engine.ready.length := by
        rw [queue, List.length_append, List.length_cons]
        omega
      refine ⟨last, ?_⟩
      rw [untilAnswer_of_inr once]
      refine rest.trans ?_
      rw [leftWith_leftWith, Outlet.took_append, ← link.send_append, Outlet.refuses_took, others,
        refusals]
      simp [leftWith, ← pulled]

/-- A call that passes outputs on loses only what is refused. It goes through the queue in order up
to the first output that the sink refuses, which it reports; what is behind that one stays ready.
When it is called until it succeeds, the sink is given every other output once, as a frame of the
link with the aspect of the reference, and each refused one makes one error. -/
theorem addOutput_loses_only_refused (reference : Frame) {link : Link} {l : Lease Script Unit}
    {out : Outlet Recorder} (works : l.engine.knobs.failOutput = false)
    (linked : out.link = some link) :
    let queue := l.engine.ready
    ((∀ output ∈ queue, out.sink.refuses output = false) →
      addOutput reference l out = (.ok (link.send reference.aspect queue).length,
        l.leftWith [] queue.length, out.took (link.send reference.aspect queue))) ∧
    (∀ passed bad later, queue = passed ++ bad :: later →
      (∀ output ∈ passed, out.sink.refuses output = false) → out.sink.refuses bad = true →
      addOutput reference l out = (.error (.refusal bad), l.leftWith later (passed.length + 1),
        out.took (link.send reference.aspect passed))) ∧
    ∃ last, untilAnswer (retry reference) ([], l, out) =
      some ((queue.filter out.sink.refuses).map .refusal, last, l.leftWith [] queue.length,
        out.took (link.send reference.aspect
          (queue.filter fun output => !out.sink.refuses output))) := by
  intro queue
  refine ⟨?_, ?_, ?_⟩
  · intro fine
    exact addOutput_of_passed reference works linked fine
  · intro passed bad later ready fine refused
    exact addOutput_of_refused reference works linked ready fine refused
  · exact retry_delivers reference [] works linked

/-- Five outputs, one of them suppressed and two refused. The first call ends at the first of
these, and all calls together send the frames 0 and 1. -/
theorem addOutput_loses_both_threes :
    let script : Script :=
      { Script.start {} with ready := [(0, 7), (-1, 7), (3, 8), (3, 8), (1, 9)] }
    let l : Lease Script Unit := ⟨script, .start () "chr-1"⟩
    let link : Link := ⟨1, 1, .rgb48, ⟨1, 25⟩, ⟨25, 1⟩, .one⟩
    let sink : Recorder := { Recorder.empty with refusedPts := [3] }
    let out : Outlet Recorder := (Outlet.start sink .empty).setLink link
    let reference : Frame := { Frame.unpooled 1 1 .rgb48 #[0, 0, 0] with aspect := ⟨5, 1⟩ }
    addOutput reference l out = (.error (.refusal (3, 8)), l.leftWith [(3, 8), (1, 9)] 3,
      out.took [link.filled ⟨5, 1⟩ (0, 7)]) ∧
    ∃ last, untilAnswer (retry reference) ([], l, out) =
      some ([.refusal (3, 8), .refusal (3, 8)], last, l.leftWith [] 5,
        out.took [link.filled ⟨5, 1⟩ (0, 7), link.filled ⟨5, 1⟩ (1, 9)]) := by
  intro script l link sink out reference
  have works : l.engine.knobs.failOutput = false := rfl
  have linked : out.link = some link := rfl
  obtain ⟨-, first, all⟩ := addOutput_loses_only_refused reference works linked
  constructor
  · exact first [(0, 7), (-1, 7)] (3, 8) [(3, 8), (1, 9)] rfl (by decide) rfl
  · exact all

end Lease

end FrameRelay
