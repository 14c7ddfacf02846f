import CoreFleet.Registry.Report

/-!
# Registry operations as data

`Operation` names every critical section that a client, a worker thread or the runtime
may run, and `Operation.perform` carries it out. Runs of a fleet are sequences of these.
-/

namespace CoreFleet

/-- A critical section of the registry. -/
inductive Operation
  | assignPipeline (id : Nat) (p : Pipeline) (periodMs : Nat)
  | assignBlock (id : Nat) (b : Block)
  | clearPipeline (id : Nat)
  | clearBlock (b : Block)
  | reset (id : Nat)
  | start
  | stop
  | state (id : Nat)
  | isRunning (id : Nat)
  | info (id : Nat)
  | snapshot
  | workers
  | finish (i : Nat) (failure : Option String)
  | retire (i : Nat)
  | shutdown
  deriving DecidableEq, Repr

/-- What an operation answers when it is not refused. -/
inductive Answer
  | done
  | count (n : Nat)
  | state (s : State)
  | flag (b : Bool)
  | report (w : Report)
  | reports (ws : List Report)
  | ids (ids : List Nat)
  deriving DecidableEq, Repr

namespace Reply

/-- Changes the answer alone. -/
def map {α β : Type} (f : α → β) (p : Reply α) : Reply β := ⟨f p.answer, p.after, p.wakes⟩

end Reply

namespace Operation

/-- An operation that any holder of the registry may run. -/
def isClient : Operation → Bool
  | finish .. | retire .. | shutdown => false
  | _ => true

/-- Carries out an operation. -/
def perform (op : Operation) (r : Registry) : Reply (Except Error Answer) :=
  match op with
  | assignPipeline id p periodMs => (r.assignPipeline id p periodMs).map (·.map fun _ => .done)
  | assignBlock id b => (r.assignBlock id b).map (·.map fun _ => .done)
  | clearPipeline id => (r.clearPipeline id).map (·.map fun _ => .done)
  | clearBlock b => (r.clearBlock b).map fun _ => .ok .done
  | reset id => (r.reset id).map (·.map fun _ => .done)
  | start => r.start.map (·.map fun _ => .done)
  | stop => r.stop.map fun n => .ok (.count n)
  | state id => r.answer ((r.state? id).map .state)
  | isRunning id => r.answer ((r.isRunning? id).map .flag)
  | info id => r.answer ((r.report? id).map .report)
  | snapshot => r.answer (.ok (.reports r.snapshot))
  | workers => r.answer (.ok (.ids r.ids))
  | finish i failure => (r.finish i failure).map fun _ => .ok .done
  | retire i => (r.retire i).map fun _ => .ok .done
  | shutdown => r.shutdown.map fun _ => .ok .done

end Operation

/-- The text of a fault in naming a worker by a position that the fleet does not have. -/
def positionFault (size i : Nat) : String :=
  "index out of bounds: the len is " ++ Numeral.text size ++ " but the index is " ++
    Numeral.text i

end CoreFleet
