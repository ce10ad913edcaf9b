import RtsKernel.Library.Halting
import RtsKernel.Model.Types
import RtsKernel.Model.Policy
import RtsKernel.Model.Queues
import RtsKernel.Model.Select
import RtsKernel.Model.SwitchPlan
import RtsKernel.Model.Blocking
import RtsKernel.Model.Mutex
import RtsKernel.Model.Semaphore
import RtsKernel.Model.Task
import RtsKernel.Model.Timer
import RtsKernel.Model.Startup
import RtsKernel.Model.Time
import RtsKernel.Library.Chain
import RtsKernel.Library.DoublyLinked
import RtsKernel.Library.Ordered
import RtsKernel.Library.Transition
import RtsKernel.Model.System
import RtsKernel.Invariant.Ready
import RtsKernel.Invariant.Queues
import RtsKernel.Invariant.Locks
import RtsKernel.Invariant.State
import RtsKernel.Invariant.Priority
import RtsKernel.Invariant.Waiting
import RtsKernel.Operation.Plan
import RtsKernel.Operation.Outcome
import RtsKernel.Operation.Effect
import RtsKernel.Operation.Semaphore
import RtsKernel.Operation.Mutex
import RtsKernel.Operation.Task
import RtsKernel.Operation.Service
import RtsKernel.Invariant.Timers
import RtsKernel.Operation.Timer
import RtsKernel.Operation.Expiry
import RtsKernel.Operation.Time
import RtsKernel.Invariant.Ranking
import RtsKernel.Operation.Startup
import RtsKernel.Operation.Start
import RtsKernel.Operation.Step
import RtsKernel.Operation.Preservation
import RtsKernel.Model.Run
import RtsKernel.Property.Dispatch
import RtsKernel.Property.Timers
import RtsKernel.Property.TimerBooks
import RtsKernel.Property.Locks
import RtsKernel.Property.Waits
import RtsKernel.Library.Ring
import RtsKernel.Model.Rings
import RtsKernel.Property.Rings
import RtsKernel.Library.LinkedHeap
import RtsKernel.Model.ReadySet
import RtsKernel.Property.ReadySet
import RtsKernel.Property.Lists
import RtsKernel.Property.ReadyQueues
import RtsKernel.Model.WaitList
import RtsKernel.Property.WaitLists
import RtsKernel.Operation.Ledger
import RtsKernel.Model.Diagnostics
import RtsKernel.Property.Accounting
import RtsKernel.Property.OneShot
import RtsKernel.Operation.Outline
import RtsKernel.Operation.Frame
import RtsKernel.Operation.Turns
import RtsKernel.Property.RoundRobin
import RtsKernel.Library.Bytes
import RtsKernel.Model.Stack
import RtsKernel.Property.Stacks
import RtsKernel.Property.Semaphores
import RtsKernel.Property.Deadlines
import RtsKernel.Property.RateMonotonic
import RtsKernel.Property.Refusals
import RtsKernel.Property.Tickless
import RtsKernel.Model.Validation
import RtsKernel.Operation.Roster
import RtsKernel.Operation.Errand
import RtsKernel.Property.DeadlineOrder
import RtsKernel.Property.ServiceWork
import RtsKernel.Property.Validation
