import CoreFleet.Text.Numeral
import CoreFleet.Work.Clock

/-!
# Units of work

A unit is a pipeline of the packet engine or a block. Two units are the same when their
instances are : names do not identify them. An assignment of a pipeline refers to it
without owning it, so that the engine may release the pipeline while it is assigned.
-/

namespace CoreFleet

/-- Identifies the instance of a unit. -/
abbrev UnitId := Nat

/-- The timer period of a pipeline that is assigned with none, in milliseconds. -/
def defaultTimerMs : Nat := 10

/-- A pipeline as its owner hands it out. -/
structure Pipeline where
  id : UnitId
  name : String
  deriving DecidableEq, Repr

/-- A block as its owner hands it out. -/
structure Block where
  id : UnitId
  name : String
  deriving DecidableEq, Repr

/-- A reference to a pipeline that does not keep it alive. -/
structure PipelineRef where
  id : UnitId
  name : String
  /-- The timer period in milliseconds. -/
  timerMs : Nat
  deriving DecidableEq, Repr

namespace PipelineRef

/-- The reference to a pipeline, with a timer period in milliseconds of which zero
stands for the default one. -/
def of (p : Pipeline) (periodMs : Nat) : PipelineRef :=
  ⟨p.id, p.name, if periodMs = 0 then defaultTimerMs else periodMs⟩

/-- The reference is to this pipeline. -/
def refersTo (r : PipelineRef) (p : Pipeline) : Bool := r.id == p.id

/-- The timer period as a duration. -/
def period (r : PipelineRef) : Nat := r.timerMs * Clock.millis

theorem timerMs_of_pos (p : Pipeline) (periodMs : Nat) : 0 < (of p periodMs).timerMs := by
  simp only [of, defaultTimerMs]; split <;> omega

end PipelineRef

/-- What a worker has to run. -/
inductive Assignment
  | pipeline (ref : PipelineRef)
  | block (b : Block)
  deriving DecidableEq, Repr

namespace Assignment

/-- The instance that is assigned. -/
def unitId : Assignment → UnitId
  | pipeline ref => ref.id
  | block b => b.id

/-- Kind and name of the assigned unit. -/
def describe : Assignment → String
  | pipeline ref => "pipeline " ++ ref.name
  | block b => "block " ++ b.name

/-- A pipeline is assigned. -/
def isPipeline : Assignment → Bool
  | pipeline _ => true
  | block _ => false

/-- This pipeline is assigned. -/
def holdsPipeline (p : Pipeline) : Assignment → Bool
  | pipeline ref => ref.refersTo p
  | block _ => false

/-- This block is assigned. -/
def holdsBlock (b : Block) : Assignment → Bool
  | pipeline _ => false
  | block own => own.id == b.id

end Assignment

end CoreFleet
