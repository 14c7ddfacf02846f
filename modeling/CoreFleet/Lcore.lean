/-!
# Logical cores

A logical core is a thread of the fleet bound to one processor. The main one does the
coordination, every other one is a worker.
-/

namespace CoreFleet

/-- The number of logical cores a fleet may name : identifiers are below it. -/
def maxLcores : Nat := 128

/-- The number of processors an affinity set can hold. -/
def affinityCapacity : Nat := 1024

/-- A handle of a logical core. -/
structure Lcore where
  /-- The identifier. -/
  id : Nat
  /-- The core does the coordination. -/
  isMain : Bool
  deriving DecidableEq, Repr

namespace Lcore

/-- The main core with identifier `id`. -/
def main (id : Nat) : Lcore := ⟨id, true⟩

/-- The worker core with identifier `id`. -/
def worker (id : Nat) : Lcore := ⟨id, false⟩

/-- The processor a core is bound to carries the core's own identifier. -/
def cpu (l : Lcore) : Nat := l.id

/-- The processor of the core can be named in an affinity set. -/
def fitsAffinity (l : Lcore) : Bool := l.cpu < affinityCapacity

end Lcore

end CoreFleet
