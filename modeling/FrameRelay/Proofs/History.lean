import FrameRelay.Stage.Run

/-! Histories of a host: the calls it gets, in any order, and what happens around it between two of
them. A property that holds at the start and outlives each call holds after every history. -/

namespace FrameRelay

/-- A host beside the source it pulls from. -/
structure World (ε π σ ρ : Type) where
  host : Host ε π σ
  source : ρ

/-- What can change around a host between two of its calls. -/
structure Surroundings (ε σ ρ : Type) where
  engine : ε
  sink : σ
  pool : Pool
  source : ρ

/-- A call of the host, or an event outside of it. -/
inductive Call (κ : Type) where
  | configure (link : Link)
  | request
  | close
  | outside (event : κ)

inductive Answer where
  | linked (result : Outcome Link)
  | pulled (result : Outcome Flow)
  | silent

/-- Whether the answer is that of a configuration that succeeded. -/
def Answer.opens : Answer → Bool
  | .linked (.ok _) => true
  | _ => false

/-- A stage before its first stream, whether or not its options are valid. -/
def Stage.idle {ε π σ : Type} (options : StageOptions) (engine : ε) (policy : DrainPolicy)
    (sink : σ) (pool : Pool) : Stage ε π σ :=
  ⟨options, .start engine policy sink pool, none⟩

theorem Stage.eq_idle_of_start {ε π σ : Type} {options : StageOptions} {engine : ε}
    {policy : DrainPolicy} {sink : σ} {pool : Pool} {stage : Stage ε π σ}
    (started : Stage.start options engine policy sink pool = .ok stage) :
    stage = .idle options engine policy sink pool := by
  unfold Stage.start at started
  cases checked : options.validate with
  | error cause => simp [checked, Except.map] at started
  | ok value =>
    simp only [checked, Except.map, Except.ok.injEq] at started
    exact started.symm

/-- Any sink, pool and source in place of the present ones. The engine stays as it is. -/
structure Supply (σ ρ : Type) where
  sink : σ
  pool : Pool
  source : ρ

def Supply.apply {ε σ ρ : Type} (supply : Supply σ ρ) (s : Surroundings ε σ ρ) :
    Surroundings ε σ ρ :=
  ⟨s.engine, supply.sink, supply.pool, supply.source⟩

namespace World
variable {ε π σ ρ κ : Type}

/-- A new host around a stage that is idle. -/
def fresh (options : StageOptions) (engine : ε) (policy : DrainPolicy) (sink : σ) (pool : Pool)
    (source : ρ) : World ε π σ ρ :=
  ⟨.start (.idle options engine policy sink pool), source⟩

def surroundings (w : World ε π σ ρ) : Surroundings ε σ ρ :=
  ⟨w.host.stage.station.engine, w.host.out.sink, w.host.out.pool, w.source⟩

def withSurroundings (outside : Surroundings ε σ ρ) (w : World ε π σ ρ) : World ε π σ ρ :=
  let station := w.host.stage.station
  let out := { station.out with sink := outside.sink, pool := outside.pool }
  ⟨{ w.host with stage :=
    { w.host.stage with station := { station with engine := outside.engine, out } } },
    outside.source⟩

variable [Engine ε π] [Sink σ] [Source ρ]

/-- One call with its answer; `act` says what an event outside does. -/
def perform (act : κ → Surroundings ε σ ρ → Surroundings ε σ ρ) (w : World ε π σ ρ) :
    Call κ → Answer × World ε π σ ρ
  | .configure link =>
    let (result, host) := w.host.configure link
    (.linked result, { w with host })
  | .request =>
    let (result, host, source) := w.host.request w.source
    (.pulled result, ⟨host, source⟩)
  | .close => (.silent, { w with host := w.host.close })
  | .outside event => (.silent, w.withSurroundings (act event w.surroundings))

/-- The world after a history of calls. -/
def run (act : κ → Surroundings ε σ ρ → Surroundings ε σ ρ) (w : World ε π σ ρ)
    (calls : List (Call κ)) : World ε π σ ρ :=
  calls.foldl (fun w call => (w.perform act call).2) w

/-- The answers to a history of calls. -/
def answers (act : κ → Surroundings ε σ ρ → Surroundings ε σ ρ) (w : World ε π σ ρ) :
    List (Call κ) → List Answer
  | [] => []
  | call :: rest => (w.perform act call).1 :: (w.perform act call).2.answers act rest

variable (act : κ → Surroundings ε σ ρ → Surroundings ε σ ρ)

@[simp] theorem run_nil (w : World ε π σ ρ) : w.run act [] = w := rfl

@[simp] theorem run_cons (w : World ε π σ ρ) (call : Call κ) (calls : List (Call κ)) :
    w.run act (call :: calls) = (w.perform act call).2.run act calls := rfl

theorem run_append (w : World ε π σ ρ) (first second : List (Call κ)) :
    w.run act (first ++ second) = (w.run act first).run act second :=
  List.foldl_append

@[simp] theorem answers_nil (w : World ε π σ ρ) : w.answers act [] = [] := rfl

@[simp] theorem answers_cons (w : World ε π σ ρ) (call : Call κ) (calls : List (Call κ)) :
    w.answers act (call :: calls) =
      (w.perform act call).1 :: (w.perform act call).2.answers act calls := rfl

theorem run_invariant {Holds : World ε π σ ρ → Prop}
    (step : ∀ w call, Holds w → Holds (w.perform act call).2) {w : World ε π σ ρ}
    (start : Holds w) (calls : List (Call κ)) : Holds (w.run act calls) := by
  induction calls generalizing w with
  | nil => exact start
  | cons call rest ih => exact ih (step w call start)

end World

end FrameRelay
