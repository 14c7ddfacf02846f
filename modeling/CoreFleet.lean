import CoreFleet.Main
import CoreFleet.Proofs.Fleet.Lifecycle
import CoreFleet.Proofs.Fleet.Iteration
import CoreFleet.Rehearsal.Client
import CoreFleet.Proofs.Executor.Delivery
import CoreFleet.Proofs.Fleet.Shutdown
import CoreFleet.Proofs.Fleet.Teardown
import CoreFleet.Proofs.Registry.Uniqueness
import CoreFleet.Proofs.Launch.Building
import CoreFleet.Proofs.Registry.Refusal
import CoreFleet.Proofs.Fleet.Parking
import CoreFleet.Proofs.Fleet.Failure
import CoreFleet.Proofs.Launch.Exclusion
import CoreFleet.Proofs.CoreSet.Order
import CoreFleet.Proofs.Executor.Fold
import CoreFleet.Proofs.Fleet.Cores
import CoreFleet.Proofs.Fleet.Quiescence
import CoreFleet.Proofs.Fleet.Disposal
import CoreFleet.Proofs.Fleet.Refinement
import CoreFleet.Proofs.Config.Cores
import CoreFleet.Proofs.Command.Override
import CoreFleet.Proofs.Command.Log
import CoreFleet.Proofs.Fleet.Gate
import CoreFleet.Proofs.Registry.Decision
import CoreFleet.Proofs.Registry.Restart
import CoreFleet.Proofs.Executor.Drain
import CoreFleet.Proofs.Work.Periodic
import CoreFleet.Proofs.Fleet.Trace
import CoreFleet.Proofs.Fleet.Containment
import CoreFleet.Proofs.Fleet.Timer
import CoreFleet.Proofs.Fleet.Release
import CoreFleet.Proofs.Launch.Consumption
import CoreFleet.Proofs.Fleet.Waking
import CoreFleet.Proofs.Registry.Independence
import CoreFleet.Proofs.Fleet.Quanta
