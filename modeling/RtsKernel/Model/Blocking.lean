import RtsKernel.Model.Priority

/-!
# Blocking and waking

What the blocking calls and the wake paths share: the test that the current task may block,
the record a task leaves with, and the release of a waiting task with its result.
-/

namespace RtsKernel

open Halting Prog

/-- The current task may block: what `rts_semaphore_current_can_block`,
`rts_mutex_current_can_block` and `rts_delay_current_is_coherent` test. -/
def CurrentCanBlock (cfg : Config) (k : Kernel) (c : TaskId) : Prop :=
  k.currentTask = some c ∧ (k.tasks c).state = .running ∧ ¬ TaskIsIdle k c ∧
  CurrentIsValid cfg k ∧ PolicyValidate cfg k c true ∧
  (k.tasks c).wait.reason = .none ∧ (k.tasks c).wait.result = .none ∧
  (k.tasks c).wait.object = none ∧ (k.tasks c).wait.timeoutActive = false ∧
  c ∉ k.delayQueue ∧ (k.tasks c).waitOwner = none ∧ k.switchPlan.active = false

instance (cfg : Config) (k : Kernel) (c : TaskId) : Decidable (CurrentCanBlock cfg k c) := by
  delta CurrentCanBlock
  infer_instance

/-- The wait record of a semaphore or mutex wait that begins at tick `now`. -/
def objectWait (reason : WaitReason) (o : WaitObject) (now timeout : Tick) : Wait where
  reason := reason
  object := some o
  timeoutActive := timeout ≠ waitForever
  wakeTick := if timeout ≠ waitForever then now + timeout else 0

/-- The fields a task is left with when it blocks. -/
def Tcb.blockOn (cfg : Config) (wait : Wait) (task : Tcb) : Tcb :=
  { task with
    wait := wait
    sliceRemaining := cfg.timeSliceTicks
    state := .blocked
    diagnosticBlockCount := diagnosticCounterIncrement task.diagnosticBlockCount }

/-- The fields a task is woken with; a task that has blocked but not been switched out yet is
still executing and becomes `running` again. -/
def Tcb.wakeWith (cfg : Config) (result : WaitResult) (stillExecuting : Bool) (task : Tcb) : Tcb :=
  { task with
    wait := { result := result }
    sliceRemaining := cfg.timeSliceTicks
    state := if stillExecuting = true then .running else .ready }

/-- Release a waiting task with a result and hand it to the policy. -/
def releaseTask (cfg : Config) (site : Site) (t : TaskId) (result : WaitResult) : KernelM Unit := do
  modify fun k => k.updateTask t (Tcb.wakeWith cfg result (k.currentTask = some t))
  let unblocked ← policyTaskUnblock cfg t
  fatalUnless site (unblocked = true)
  modify fun k => k.updateTask t fun task =>
    { task with diagnosticWakeCount := diagnosticCounterIncrement task.diagnosticWakeCount }

/-- Take the current task out of the ready structure and leave it blocked on `wait`. -/
def suspendCurrent (cfg : Config) (site : Site) (c : TaskId) (wait : Wait) : KernelM Unit := do
  let removed ← policyTaskBlock cfg c
  fatalUnless site (removed = true)
  modify fun k => k.updateTask c (Tcb.blockOn cfg wait)

/-- The end of a wait on an object: wait in its list and, with a timeout, in the delay queue. -/
def enqueueWaiter (cfg : Config) (o : WaitObject) (c : TaskId) (timeout : Tick) : KernelM Unit := do
  waitObjectInsert cfg o c
  if timeout ≠ waitForever then delayInsert cfg c

/-- Notify the port of a new plan, as every caller does after leaving its critical section. -/
def notifyPort (notify : Bool) : KernelM Unit :=
  if notify = true then portRequestReschedule else pure ()

/-- `rts_semaphore_wait_result_consume` and `rts_mutex_wait_result_consume`, which are the same
function. -/
def waitResultConsume (t : TaskId) : KernelM Status := do
  let k ← get
  match (k.tasks t).wait.result with
  | .acquired => do
    modify fun k => k.updateTask t fun task =>
      { task with wait := { task.wait with result := .none } }
    pure .ok
  | .timeout => do
    modify fun k => k.updateTask t fun task =>
      { task with wait := { task.wait with result := .none } }
    pure .timeout
  | _ => pure .invalidState

end RtsKernel
