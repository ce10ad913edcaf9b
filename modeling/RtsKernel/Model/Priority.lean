import RtsKernel.Model.SwitchPlan

/-!
# Priority inheritance

`priority_inheritance.c`: the effective priority a task needs for the mutexes it owns, and
the walk along the chain of owners that installs it.
-/

namespace RtsKernel

open Halting Prog

/-- `rts_priority_waiters_for`. -/
def priorityWaitersFor (wait : Wait) : Option WaitObject :=
  if wait.reason = .mutex ∨ wait.reason = .semaphore then wait.object else none

/-- `rts_priority_set_effective`. -/
def prioritySetEffective (cfg : Config) (t : TaskId) (effective : Nat) : KernelM Bool := do
  let k ← get
  if effective < (k.tasks t).basePriority ∨ effective = 0 ∨ cfg.priorityCount ≤ effective then
    pure false
  else if (k.tasks t).priority = effective then pure true
  else do
    let previous := (k.tasks t).priority
    let changed ← policyPriorityChanged cfg t effective
    if changed = false then pure false
    else do
      modify fun k => k.count fun c =>
        if previous < effective then
          { c with priorityRaises := diagnosticCounterIncrement c.priorityRaises }
        else { c with priorityRestorations := diagnosticCounterIncrement c.priorityRestorations }
      let k ← get
      match priorityWaitersFor (k.tasks t).wait with
      | none => pure true
      | some o => do
        fatalUnless .priorityWaiters ((k.tasks t).waitOwner = some o)
        waitObjectReprioritize cfg o t
        pure true

/-- The priority of the first waiter of a mutex, when it exceeds what is required so far. -/
def requiredByMutex (k : Kernel) (m : Nat) (required : Nat) : Nat :=
  match (k.mutexes m).waiters with
  | [] => required
  | w :: _ => if required < (k.tasks w).priority then (k.tasks w).priority else required

/-- The loop of `rts_priority_required_by_owned` over the rest of the owned list. -/
def requiredByOwnedFrom (t : TaskId) : Nat → Option Nat → Nat → KernelM Nat
  | _, none, required => pure required
  | 0, some _, required => do
    fatalUnless .priorityOwned False
    pure required
  | n + 1, some m, required => do
    let k ← get
    if (k.mutexes m).owner ≠ some t then do
      fatalUnless .priorityOwned False
      pure required
    else requiredByOwnedFrom t n (k.mutexes m).ownedNext (requiredByMutex k m required)

/-- `rts_priority_required_by_owned`. -/
def priorityRequiredByOwned (cfg : Config) (t : TaskId) : KernelM Nat := do
  let k ← get
  requiredByOwnedFrom t cfg.maxMutexesPerTask (k.tasks t).ownedMutexHead (k.tasks t).basePriority

/-- The owner of the mutex a task waits for. -/
def mutexOwnerAwaited (k : Kernel) (t : TaskId) : Option TaskId :=
  match (k.tasks t).wait.object with
  | some (.mutex m) => (k.mutexes m).owner
  | _ => none

/-- The walk of `rts_priority_recompute_chain`; `visited` holds the tasks already done. -/
def recomputeFrom (cfg : Config) : Nat → List TaskId → Option TaskId → KernelM Bool
  | _, _, none => pure true
  | 0, _, some _ => do
    fatalUnless .recomputeDepth False
    pure false
  | n + 1, visited, some t =>
    if t ∈ visited then do
      fatalUnless .recomputeVisited False
      pure false
    else do
      let required ← priorityRequiredByOwned cfg t
      let installed ← prioritySetEffective cfg t required
      if installed = false then pure false
      else do
        let k ← get
        if (k.tasks t).state ≠ .blocked ∨ (k.tasks t).wait.reason ≠ .mutex then pure true
        else recomputeFrom cfg n (t :: visited) (mutexOwnerAwaited k t)

/-- `rts_priority_recompute_chain`. -/
def priorityRecomputeChain (cfg : Config) (start : Option TaskId) : KernelM Bool :=
  recomputeFrom cfg cfg.schedulableTaskCapacity [] start

/-- `RTS_FATAL_UNLESS(rts_priority_recompute_chain(start))`, as every caller writes it. -/
def recomputeChainOrFatal (cfg : Config) : Option TaskId → KernelM Unit
  | none => pure ()
  | some start => do
    let recomputed ← priorityRecomputeChain cfg (some start)
    fatalUnless (.recomputeChain start) (recomputed = true)

end RtsKernel
