import CoreFleet.Fleet.Disposal
import CoreFleet.Proofs.Executor.Service
import CoreFleet.Proofs.Fleet.Quiescence

/-!
# Runtimes that are disposed of

A `Course` is a runtime together with an endless sequence of events, in any order : what happens to
its fleet and to its executor, and the steps of its disposal. What it does to the fleet is a run
(`Course.run`), and what it does to the executor a service (`Course.service`), so that all that
holds of runs and of services holds of a runtime that is disposed of.

`Disposal.Goes` lists the steps that a disposal makes, each with what lets it make the step, and
`disposal_succ` says that nothing else changes where it stands. `Inspects`, `Takes`, `Detaches`,
`Joins` and `Releases` name the steps that matter to others.
-/

namespace CoreFleet

variable {V Q A R : Type}

namespace Disposal

/-! ## Steps -/

/-- What may happen to a runtime while it is there and while it is disposed of. -/
inductive Event (V Q A R : Type)
  /-- Something happens to the fleet, by whoever holds the registry or by a worker's thread. Only
  the disposal shuts the registry down. -/
  | fleet (e : CoreFleet.Event) (outside : e.operation? ≠ some .shutdown)
  /-- Something happens to the executor of the main core. -/
  | executor (e : Executor.Event V Q A R)
  /-- The disposal makes its next step, if it need not wait. -/
  | advance (now : Nat) (woken : Bool)

/-- The runtime and its disposal, after an event. -/
def step (rt : Runtime V Q A R) (d : Disposal) : Event V Q A R → Runtime V Q A R × Disposal
  | .fleet e _ => ({ rt with fleet := rt.fleet.step e }, d)
  | .executor e => ({ rt with executor := rt.executor.react e }, d)
  | .advance now woken => (d.step? rt now woken).getD (rt, d)

/-- What the next step of the disposal does to the fleet. A look at the registry does nothing. -/
def Stage.onFleet : Stage → CoreFleet.Event
  | .halt call => call.onFleet
  | .close _ => .shutdown
  | _ => .operate .snapshot (.refl true)

/-- What the next step of the disposal does to the executor. -/
def Stage.onExecutor : Stage → Executor.Event V Q A R
  | .hangUp _ => .hangUp
  | .takeHandle _ => .takeHandle
  | _ => .pause

/-- What an event does to the fleet. -/
def Event.onFleet (stage : Stage) : Event V Q A R → CoreFleet.Event
  | fleet e _ => e
  | executor _ => .operate .snapshot (.refl true)
  | advance .. => stage.onFleet

/-- What an event does to the executor. -/
def Event.onExecutor (stage : Stage) : Event V Q A R → Executor.Event V Q A R
  | executor e => e
  | fleet .. => .pause
  | advance .. => stage.onExecutor

/-- Somebody stops the executor at the event, outside of the disposal : by taking the sender of its
queue or the handle of its thread, or by a step of the running job. -/
def Event.stopsExecutor (e : Executor V Q A R) : Event V Q A R → Bool
  | executor .takeHandle => true
  | executor ev => e.hangsUp ev
  | _ => false

/-- The steps of a disposal, each with what lets the disposal make it. -/
inductive Goes (rt : Runtime V Q A R) : Disposal → Disposal → Prop
  | halt {hs : List (Nat × Nat)} {up : Bool} {call call' : Halt} {fleet : Fleet} {now : Nat}
    {woken : Bool} (goes : call.step? rt.fleet now woken = some (fleet, call')) :
    Goes rt ⟨hs, up, .halt call⟩ ⟨hs, up, .halt call'⟩
  | settled {hs : List (Nat × Nat)} {up : Bool} :
    Goes rt ⟨hs, up, .halt (.answered true)⟩ ⟨hs, up, .close (.shutdown [])⟩
  | late {hs : List (Nat × Nat)} {up : Bool} :
    Goes rt ⟨hs, up, .halt (.answered false)⟩ ⟨hs, up, .inspect⟩
  | inspect {hs : List (Nat × Nat)} {up : Bool} :
    Goes rt ⟨hs, up, .inspect⟩ ⟨hs, up, .close (.shutdown rt.stuck)⟩
  | close {hs : List (Nat × Nat)} {up : Bool} {pass : Pass} :
    Goes rt ⟨hs, up, .close pass⟩ ⟨hs, up, .hangUp pass⟩
  | hangUp {hs : List (Nat × Nat)} {up : Bool} {pass : Pass} :
    Goes rt ⟨hs, up, .hangUp pass⟩ ⟨hs, up, .takeHandle pass⟩
  | takeHandle {hs : List (Nat × Nat)} {up : Bool} {pass : Pass}
    (there : rt.executor.joinable = true) : Goes rt ⟨hs, up, .takeHandle pass⟩ ⟨hs, up, .await pass⟩
  | taken {hs : List (Nat × Nat)} {up : Bool} {pass : Pass}
    (gone : rt.executor.joinable = false) : Goes rt ⟨hs, up, .takeHandle pass⟩ ⟨hs, up, .join pass⟩
  | await {hs : List (Nat × Nat)} {up : Bool} {pass : Pass} (ended : rt.executor.ended = true) :
    Goes rt ⟨hs, up, .await pass⟩ ⟨hs, up, .join pass⟩
  | take {hs : List (Nat × Nat)} {up : Bool} {pass : Pass} {id i : Nat}
    (idle : id ∈ pass.skips ∨ rt.fleet.hasExited i = true) :
    Goes rt ⟨(id, i) :: hs, up, .join pass⟩ ⟨hs, up, .join pass⟩
  | again {up : Bool} {stuck : List Nat} :
    Goes rt ⟨[], up, .join (.shutdown stuck)⟩ ⟨[], up, .close .drop⟩
  | empty {up : Bool} : Goes rt ⟨[], up, .join .drop⟩ ⟨[], up, .release⟩
  | release {hs : List (Nat × Nat)} {up : Bool} :
    Goes rt ⟨hs, up, .release⟩ ⟨hs, false, .done⟩

/-- The runtime after a step of the disposal. -/
def proceed (rt : Runtime V Q A R) (d : Disposal) : Runtime V Q A R :=
  { rt with
    fleet := rt.fleet.step d.stage.onFleet
    executor := rt.executor.react d.stage.onExecutor }

variable {rt rt' : Runtime V Q A R} {d d' : Disposal} {now : Nat} {woken : Bool}

/-- What a step of the disposal does. -/
theorem goes_of_step? (h : d.step? rt now woken = some (rt', d')) :
    rt' = proceed rt d ∧ Goes rt d d' := by
  obtain ⟨handles, up, stage⟩ := d
  cases stage with
  | halt call =>
    by_cases hanswer : ∃ settled, call = .answered settled
    · obtain ⟨settled, rfl⟩ := hanswer
      cases settled <;> cases h
      · exact ⟨rfl, .late⟩
      · exact ⟨rfl, .settled⟩
    · obtain ⟨c, hc, hcall⟩ : ∃ c, call.step? rt.fleet now woken = some c ∧
          (({ rt with fleet := c.1 } : Runtime V Q A R),
            (⟨handles, up, .halt c.2⟩ : Disposal)) = (rt', d') := by
        cases call <;> first | exact absurd ⟨_, rfl⟩ hanswer | simpa [step?] using h
      obtain ⟨rfl, rfl⟩ := Prod.mk.inj hcall
      exact ⟨by simp [proceed, Stage.onFleet, Halt.fleet_step? hc]; rfl, .halt hc⟩
  | inspect =>
    cases h
    exact ⟨rfl, .inspect⟩
  | close =>
    cases h
    exact ⟨rfl, .close⟩
  | hangUp =>
    cases h
    exact ⟨rfl, .hangUp⟩
  | takeHandle =>
    cases h
    refine ⟨rfl, ?_⟩
    cases hjoinable : rt.executor.joinable with
    | true => exact .takeHandle hjoinable
    | false => exact .taken hjoinable
  | await =>
    simp only [step?] at h
    split at h
    · next hended =>
      cases h
      exact ⟨rfl, .await hended⟩
    · cases h
  | join pass =>
    cases handles with
    | nil =>
      cases pass <;> cases h
      · exact ⟨rfl, .again⟩
      · exact ⟨rfl, .empty⟩
    | cons handle handles =>
      simp only [step?] at h
      split at h
      · next hidle =>
        cases h
        exact ⟨rfl, .take hidle⟩
      · cases h
  | release =>
    cases h
    exact ⟨rfl, .release⟩
  | done => cases h

/-- An event leaves the disposal where it is, or is a step of it. -/
theorem step_cases (rt : Runtime V Q A R) (d : Disposal) (ev : Event V Q A R) :
    (step rt d ev).2 = d ∨
      (∃ now woken, ev = .advance now woken) ∧ Goes rt d (step rt d ev).2 := by
  cases ev with
  | fleet | executor => exact Or.inl rfl
  | advance now woken =>
    cases hstep : d.step? rt now woken with
    | none => exact Or.inl (by simp [step, hstep])
    | some c =>
      have hgoes := (@goes_of_step? _ _ _ _ rt c.1 d c.2 _ _ hstep).2
      exact Or.inr ⟨⟨now, woken, rfl⟩, by simpa [step, hstep] using hgoes⟩

/-- What an event does to the runtime. -/
theorem fst_step (rt : Runtime V Q A R) (d : Disposal) (ev : Event V Q A R) :
    (step rt d ev).1 =
      { rt with
        fleet := rt.fleet.step (ev.onFleet d.stage)
        executor := rt.executor.react (ev.onExecutor d.stage) } := by
  cases ev with
  | fleet | executor => rfl
  | advance now woken =>
    cases hstep : d.step? rt now woken with
    | some c =>
      rw [step, hstep]
      exact (@goes_of_step? _ _ _ _ rt c.1 d c.2 _ _ hstep).1
    | none =>
      -- a disposal that waits does nothing
      rw [step, hstep]
      obtain ⟨handles, up, stage⟩ := d
      cases stage with
      | halt call =>
        cases call with
        | parked => rfl
        | answered settled => cases settled <;> cases hstep
        | _ => cases hstep
      | await | join | done => rfl
      | _ => cases hstep

/-! ### What a step keeps -/

/-- The pass in which the disposal is. -/
def Stage.pass? : Stage → Option Pass
  | .close pass | .hangUp pass | .takeHandle pass | .await pass | .join pass => some pass
  | _ => none

/-- The stage belongs to a shutdown with a limited time. -/
def Stage.isTimed : Stage → Bool
  | .halt _ | .inspect => true
  | stage => stage.pass?.any fun pass => pass ≠ .drop

/-- The disposal gets on with the threads one by one. -/
theorem Goes.handles (h : Goes rt d d') : d'.handles = d.handles ∨
    ∃ pass id i, d.stage = .join pass ∧ d.handles = (id, i) :: d'.handles ∧
      (id ∈ pass.skips ∨ rt.fleet.hasExited i = true) := by
  cases h with
  | take idle => exact Or.inr ⟨_, _, _, rfl, rfl, idle⟩
  | _ => exact Or.inl rfl

/-- The environment is given back by one step. -/
theorem Goes.initialized (h : Goes rt d d') :
    d'.initialized = if d.stage = .release then false else d.initialized := by
  cases h <;> rfl

theorem Goes.timed (h : Goes rt d d') (htimed : d'.stage.isTimed = true) :
    d.stage.isTimed = true := by
  cases h with
  | again => cases htimed
  | settled | late | inspect | halt => rfl
  | _ => exact htimed

/-- What the workers are that are left detached is decided when the disposal inspects the fleet. -/
theorem Goes.pass (h : Goes rt d d') {pass : Pass} (hpass : d'.stage.pass? = some pass) :
    d.stage.pass? = some pass ∨ pass.skips = [] ∨
      d.stage = .inspect ∧ pass = .shutdown rt.stuck := by
  cases h with
  | settled | again =>
    cases hpass
    exact Or.inr (Or.inl rfl)
  | inspect =>
    cases hpass
    exact Or.inr (Or.inr ⟨rfl, rfl⟩)
  | halt | late | empty | release => cases hpass
  | _ => exact Or.inl hpass

end Disposal

/-! ## Runtimes that are disposed of -/

/-- A runtime with these launch options, which is shut down with a limited time for its workers or
dropped at some time, and what happens to it. -/
structure Course (V Q A R : Type) where
  tuning : Tuning
  options : Launch.Options
  limit : Option Nat
  schedule : Nat → Disposal.Event V Q A R

namespace Course

/-- The runtime and its disposal, after `n` events. -/
def state (χ : Course V Q A R) : Nat → Runtime V Q A R × Disposal
  | 0 =>
    let rt : Runtime V Q A R := .ofOptions χ.tuning χ.options
    (rt, .ofRuntime rt χ.limit)
  | n + 1 => Disposal.step (χ.state n).1 (χ.state n).2 (χ.schedule n)

/-- The runtime after `n` events. -/
def runtime (χ : Course V Q A R) (n : Nat) : Runtime V Q A R := (χ.state n).1

/-- The disposal after `n` events. -/
def disposal (χ : Course V Q A R) (n : Nat) : Disposal := (χ.state n).2

/-- Where the disposal stands after `n` events. -/
def stage (χ : Course V Q A R) (n : Nat) : Disposal.Stage := (χ.disposal n).stage

/-- The run of the fleet of the runtime. -/
def run (χ : Course V Q A R) : Run where
  tuning := χ.tuning
  lcores := χ.options.workers
  schedule n := (χ.schedule n).onFleet (χ.stage n)

/-- The service of the executor of the runtime. -/
def service (χ : Course V Q A R) : Service V Q A R where
  lcore := .main χ.options.mainLcore
  schedule n := (χ.schedule n).onExecutor (χ.stage n)

/-! ### What happens at an event -/

/-- At event `n` the disposal makes its next step, if it need not wait. -/
def Advances (χ : Course V Q A R) (n : Nat) : Prop :=
  ∃ now woken, χ.schedule n = .advance now woken

/-- At event `n` the disposal notes which workers are stopping. -/
def Inspects (χ : Course V Q A R) (n : Nat) : Prop := χ.stage n = .inspect ∧ χ.Advances n

/-- At event `n` the disposal gives the environment back. -/
def Releases (χ : Course V Q A R) (n : Nat) : Prop := χ.stage n = .release ∧ χ.Advances n

/-- At event `n` the disposal is through with the thread of the worker at `i`. -/
def Takes (χ : Course V Q A R) (n : Nat) (pass : Disposal.Pass) (id i : Nat) : Prop :=
  χ.stage n = .join pass ∧ (χ.disposal n).handles = (id, i) :: (χ.disposal (n + 1)).handles

/-- At event `n` the disposal leaves the thread of the worker at `i` detached. -/
def Detaches (χ : Course V Q A R) (n i : Nat) : Prop :=
  ∃ pass id, χ.Takes n pass id i ∧ id ∈ pass.skips

/-- At event `n` the disposal has waited for the end of the thread of the worker at `i`. -/
def Joins (χ : Course V Q A R) (n i : Nat) : Prop :=
  ∃ pass id, χ.Takes n pass id i ∧ id ∉ pass.skips

variable {χ : Course V Q A R} {n m i id id' : Nat} {pass pass' : Disposal.Pass}

theorem runtime_succ (χ : Course V Q A R) (n : Nat) : χ.runtime (n + 1) =
    { χ.runtime n with
      fleet := (χ.runtime n).fleet.step (χ.run.schedule n)
      executor := (χ.runtime n).executor.react (χ.service.schedule n) } :=
  Disposal.fst_step ..

theorem fleet_run (χ : Course V Q A R) : ∀ n, χ.run.fleet n = (χ.runtime n).fleet
  | 0 => rfl
  | n + 1 => by rw [Run.fleet, χ.fleet_run n, runtime_succ]

theorem executor_service (χ : Course V Q A R) : ∀ n,
    χ.service.executor n = (χ.runtime n).executor
  | 0 => rfl
  | n + 1 => by rw [Service.executor, χ.executor_service n, runtime_succ]

/-- A runtime with a limited time for its workers is shut down, and any other is dropped. -/
theorem stage_zero (χ : Course V Q A R) :
    (χ.disposal 0).stage = χ.limit.elim (.close .drop) fun timeout => .halt (.ask timeout) := by
  cases hlimit : χ.limit <;> simp [disposal, state, Disposal.ofRuntime, hlimit]

/-- An event leaves the disposal where it is, or is a step of it. -/
theorem disposal_succ (χ : Course V Q A R) (n : Nat) : χ.disposal (n + 1) = χ.disposal n ∨
    χ.Advances n ∧ Disposal.Goes (χ.runtime n) (χ.disposal n) (χ.disposal (n + 1)) :=
  Disposal.step_cases ..

end Course

end CoreFleet
