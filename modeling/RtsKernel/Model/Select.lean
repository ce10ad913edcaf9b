import RtsKernel.Model.Queues

/-!
# Selection and the current task

The task predicates of `scheduler_select.c`, the selection of the highest ready task and
the establishment of the first current task.
-/

namespace RtsKernel

open Halting Prog

/-- `rts_scheduler_task_is_idle`. -/
def TaskIsIdle (k : Kernel) (t : TaskId) : Prop := k.idleTask = some t ∧ t = .idle

instance (k : Kernel) (t : TaskId) : Decidable (TaskIsIdle k t) :=
  inferInstanceAs (Decidable (_ ∧ _))

/-- `rts_scheduler_task_is_timer_service`. -/
def TaskIsTimerService (k : Kernel) (t : TaskId) : Prop :=
  k.timerServiceTask = some t ∧ t = .timerService

instance (k : Kernel) (t : TaskId) : Decidable (TaskIsTimerService k t) :=
  inferInstanceAs (Decidable (_ ∧ _))

/-- The stack and entry fields every scheduled task must have. -/
def Tcb.HasContext (task : Tcb) : Prop :=
  task.savedStackPointer ≠ 0 ∧ task.stackLow ≠ 0 ∧ task.stackHigh ≠ 0 ∧
  task.stackLow < task.stackHigh ∧ task.entry ≠ 0

instance (task : Tcb) : Decidable task.HasContext :=
  inferInstanceAs (Decidable (_ ∧ _ ∧ _ ∧ _ ∧ _))

/-- The validation word, which only builds with assertions check. -/
def Tcb.MagicValid (cfg : Config) (task : Tcb) : Prop :=
  cfg.enableAssertions = true → task.validationMagic = taskValidationMagic

instance (cfg : Config) (task : Tcb) : Decidable (task.MagicValid cfg) :=
  inferInstanceAs (Decidable (_ → _))

/-- The identity check of `rts_scheduler_task_is_runnable_in`. -/
def IdentityIsValid (cfg : Config) (k : Kernel) (t : TaskId) : Prop :=
  if (k.tasks t).priority = 0 then TaskIsIdle k t
  else (k.tasks t).priority < cfg.priorityCount ∧ (t.IsApplication cfg ∨ TaskIsTimerService k t)

instance (cfg : Config) (k : Kernel) (t : TaskId) : Decidable (IdentityIsValid cfg k t) := by
  delta IdentityIsValid
  infer_instance

/-- `rts_scheduler_task_is_runnable`. -/
def TaskIsRunnable (cfg : Config) (k : Kernel) (t : TaskId) : Prop :=
  (k.tasks t).HasContext ∧
  (k.tasks t).wait.reason = .none ∧ (k.tasks t).wait.object = none ∧
  (k.tasks t).wait.timeoutActive = false ∧ (k.tasks t).waitOwner = none ∧
  t ∉ k.delayQueue ∧ PolicyValidate cfg k t true ∧
  (k.tasks t).basePriority ≤ (k.tasks t).priority ∧
  (k.tasks t).basePriority < cfg.priorityCount ∧
  IdentityIsValid cfg k t ∧
  ((k.tasks t).state = .ready ∨ k.currentTask = some t ∧ (k.tasks t).state = .running) ∧
  (k.tasks t).slotState = .allocated ∧ (k.tasks t).MagicValid cfg

instance (cfg : Config) (k : Kernel) (t : TaskId) : Decidable (TaskIsRunnable cfg k t) := by
  delta TaskIsRunnable
  infer_instance

/-- `rts_scheduler_task_is_blocked_delay`. -/
def TaskIsBlockedDelay (cfg : Config) (k : Kernel) (t : TaskId) : Prop :=
  k.idleTask ≠ some t ∧ t.IsApplication cfg ∧
  (k.tasks t).slotState = .allocated ∧ (k.tasks t).state = .blocked ∧
  (k.tasks t).wait.reason = .delay ∧ (k.tasks t).wait.object = none ∧
  (k.tasks t).wait.timeoutActive = false ∧ (k.tasks t).waitOwner = none ∧
  (k.tasks t).HasContext ∧ 0 < (k.tasks t).priority ∧
  (k.tasks t).priority < cfg.priorityCount ∧ PolicyValidate cfg k t false ∧
  t ∈ k.delayQueue ∧ (k.tasks t).MagicValid cfg

instance (cfg : Config) (k : Kernel) (t : TaskId) : Decidable (TaskIsBlockedDelay cfg k t) := by
  delta TaskIsBlockedDelay
  infer_instance

/-- The timer-service branch of `rts_scheduler_task_is_blocked_wait`. -/
def ServiceIsBlockedWait (cfg : Config) (k : Kernel) (t : TaskId) : Prop :=
  (k.tasks t).slotState = .allocated ∧ (k.tasks t).state = .blocked ∧
  (k.tasks t).wait.reason = .timerService ∧ (k.tasks t).wait.result = .none ∧
  (k.tasks t).wait.object = none ∧ (k.tasks t).wait.timeoutActive = false ∧
  (k.tasks t).waitOwner = none ∧ t ∉ k.delayQueue ∧ PolicyValidate cfg k t false ∧
  (k.tasks t).MagicValid cfg

instance (cfg : Config) (k : Kernel) (t : TaskId) : Decidable (ServiceIsBlockedWait cfg k t) := by
  delta ServiceIsBlockedWait
  infer_instance

/-- The wait list a semaphore or mutex waiter has to be linked in. -/
def Wait.Waiters (wait : Wait) (owner : Option WaitObject) : Prop :=
  match wait.reason, wait.object with
  | .semaphore, some (.semaphore i) => owner = some (.semaphore i)
  | .mutex, some (.mutex m) => owner = some (.mutex m)
  | _, _ => False

instance (wait : Wait) (owner : Option WaitObject) : Decidable (wait.Waiters owner) := by
  unfold Wait.Waiters
  split <;> infer_instance

/-- The application-task branch of `rts_scheduler_task_is_blocked_wait`. -/
def ApplicationIsBlockedWait (cfg : Config) (k : Kernel) (t : TaskId) : Prop :=
  (k.tasks t).slotState = .allocated ∧ (k.tasks t).state = .blocked ∧
  (k.tasks t).wait.result = .none ∧ (k.tasks t).wait.Waiters (k.tasks t).waitOwner ∧
  (k.tasks t).HasContext ∧ 0 < (k.tasks t).priority ∧
  (k.tasks t).priority < cfg.priorityCount ∧ PolicyValidate cfg k t false ∧
  ((k.tasks t).wait.timeoutActive = true ↔ t ∈ k.delayQueue) ∧ (k.tasks t).MagicValid cfg

instance (cfg : Config) (k : Kernel) (t : TaskId) :
    Decidable (ApplicationIsBlockedWait cfg k t) := by
  delta ApplicationIsBlockedWait
  infer_instance

/-- `rts_scheduler_task_is_blocked_wait`. -/
def TaskIsBlockedWait (cfg : Config) (k : Kernel) (t : TaskId) : Prop :=
  k.idleTask ≠ some t ∧
  (if TaskIsTimerService k t then ServiceIsBlockedWait cfg k t
   else t.IsApplication cfg ∧ ApplicationIsBlockedWait cfg k t)

instance (cfg : Config) (k : Kernel) (t : TaskId) : Decidable (TaskIsBlockedWait cfg k t) := by
  delta TaskIsBlockedWait
  infer_instance

/-- `rts_scheduler_select_highest_ready`. -/
def schedulerSelectHighestReady (cfg : Config) : KernelM (Option TaskId) := do
  let k ← get
  rtsAssert cfg .selectLifecycle (k.lifecycle = .initialized ∨ k.lifecycle = .running)
  if k.lifecycle ≠ .initialized ∧ k.lifecycle ≠ .running then pure none
  else
    match policyPickNext cfg k with
    | none => do
      fatalUnless .selectNone False
      pure none
    | some selected => do
      fatalUnless .selectRunnable (TaskIsRunnable cfg k selected)
      pure (some selected)

/-- `rts_scheduler_current_is_valid`. -/
def CurrentIsValid (cfg : Config) (k : Kernel) : Prop :=
  match k.currentTask with
  | none => k.lifecycle = .reset ∨ k.lifecycle = .initialized
  | some c =>
    (k.lifecycle = .initialized ∨ k.lifecycle = .running) ∧ (k.tasks c).state = .running ∧
    TaskIsRunnable cfg k c

instance (cfg : Config) (k : Kernel) : Decidable (CurrentIsValid cfg k) := by
  unfold CurrentIsValid
  split <;> infer_instance

/-- `rts_scheduler_current_establish`. -/
def schedulerCurrentEstablish (cfg : Config) (t : TaskId) : KernelM Bool := do
  let k ← get
  rtsAssert cfg .currentEstablish (k.lifecycle = .initialized)
  rtsAssert cfg .currentEstablish (k.currentTask = none)
  if k.lifecycle ≠ .initialized ∨ k.currentTask ≠ none then pure false
  else do
    let selected ← schedulerSelectHighestReady cfg
    let k ← get
    rtsAssert cfg .currentEstablish (selected = some t)
    rtsAssert cfg .currentEstablish ((k.tasks t).state = .ready)
    if selected ≠ some t ∨ (k.tasks t).state ≠ .ready then pure false
    else do
      modify fun k =>
        ({ k with currentTask := some t }).updateTask t fun task =>
          { task with state := .running, sliceRemaining := cfg.timeSliceTicks }
      let k ← get
      fatalUnless .currentEstablish (CurrentIsValid cfg k)
      pure true

/-- `rts_scheduler_current_release_initial`. -/
def schedulerCurrentReleaseInitial (cfg : Config) : KernelM Bool := do
  let k ← get
  rtsAssert cfg .currentRelease (k.lifecycle = .initialized)
  match k.currentTask with
  | none => do
    rtsAssert cfg .currentRelease False
    pure false
  | some c => do
    rtsAssert cfg .currentRelease ((k.tasks c).state = .running)
    if k.lifecycle ≠ .initialized ∨ (k.tasks c).state ≠ .running then pure false
    else do
      modify fun k =>
        ({ k with currentTask := none }).updateTask c fun task => { task with state := .ready }
      let k ← get
      fatalUnless .currentRelease (PolicyValidate cfg k c true)
      pure (decide (CurrentIsValid cfg k))

end RtsKernel
