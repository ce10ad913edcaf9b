import RtsKernel.Model.System

/-!
# Kernel validation

`invariant_check.c` and the whole-structure part of `rts_policy_validate`. The checks on the links
of an intrusive list are implied by its model as a sequence. Whether the stack guard and the saved
stack pointer of a task are intact is an input.
-/

namespace RtsKernel

/-! ## The ready structure -/

/-- `rts_ready_validate`. The walk along a queue visits one node more than there can be tasks. -/
def ReadyValidate (cfg : Config) (k : Kernel) : Prop :=
  ∀ p < cfg.priorityCount, (∀ t ∈ k.readySet p, (k.tasks t).priority = p) ∧
    (k.readySet p).length ≤ cfg.schedulableTaskCapacity + 1

instance (cfg : Config) (k : Kernel) : Decidable (ReadyValidate cfg k) :=
  inferInstanceAs (Decidable (∀ p < cfg.priorityCount, _ ∧ _))

/-- `rts_policy_validate` of the whole structure, where no task is given. -/
def PolicyValidateAll (cfg : Config) (k : Kernel) : Prop :=
  match cfg.policy with
  | .fixedPriority => ReadyValidate cfg k
  | .rms => ReadyValidate cfg k ∧ ∀ i < cfg.maxTasks,
      ¬ ((k.tasks (.slot i)).slotState = .allocated ∧ (k.tasks (.slot i)).period = 0)
  | .edf => k.edfReady.IsChain (fun a b => ¬ EdfIsBefore k b a) ∧
      k.edfReady.length ≤ cfg.schedulableTaskCapacity

instance (cfg : Config) (k : Kernel) : Decidable (PolicyValidateAll cfg k) := by
  delta PolicyValidateAll
  exact match cfg.policy with
    | .fixedPriority | .rms | .edf => inferInstance

/-! ## One task -/

/-- `rts_task_membership_is_valid`. -/
def TaskMembershipIsValid (cfg : Config) (k : Kernel) (t : TaskId) : Prop :=
  match (k.tasks t).state with
  | .ready => PolicyValidate cfg k t true ∧ t ∉ k.delayQueue ∧ (k.tasks t).waitOwner = none ∧
      (k.tasks t).wait.reason = .none
  | .running => k.currentTask = some t ∧ PolicyValidate cfg k t true ∧ t ∉ k.delayQueue ∧
      (k.tasks t).waitOwner = none ∧ (k.tasks t).wait.reason = .none
  | .blocked => ¬ PolicyValidate cfg k t true ∧
    match (k.tasks t).wait.reason with
    | .timerService => TaskIsTimerService k t ∧ t ∉ k.delayQueue ∧ (k.tasks t).waitOwner = none ∧
        (k.tasks t).wait.object = none ∧ (k.tasks t).wait.timeoutActive = false
    | .delay => t ∈ k.delayQueue ∧ (k.tasks t).waitOwner = none ∧
        (k.tasks t).wait.timeoutActive = false
    | .semaphore | .mutex => (k.tasks t).waitOwner ≠ none ∧
        (t ∈ k.delayQueue ↔ (k.tasks t).wait.timeoutActive = true) ∧
        (k.tasks t).wait.object ≠ none
    | .none => False
  | .dormant => False

instance (cfg : Config) (k : Kernel) (t : TaskId) : Decidable (TaskMembershipIsValid cfg k t) := by
  unfold TaskMembershipIsValid
  repeat' split
  all_goals infer_instance

/-- The wait list a task waits in is that of a valid semaphore or mutex, and holds the task. -/
def TaskWaitIsValid (cfg : Config) (k : Kernel) (t : TaskId) : Prop :=
  match (k.tasks t).wait.reason, (k.tasks t).wait.object with
  | .semaphore, some (.semaphore i) => SemaphoreIsValid cfg k i ∧ t ∈ (k.semaphores i).waiters
  | .mutex, some (.mutex m) => MutexIsValid cfg k m ∧ t ∈ (k.mutexes m).waiters
  | .semaphore, _ | .mutex, _ => False
  | _, _ => True

instance (cfg : Config) (k : Kernel) (t : TaskId) : Decidable (TaskWaitIsValid cfg k t) := by
  unfold TaskWaitIsValid
  split <;> infer_instance

/-- `rts_task_validate_internal`. -/
def TaskValidateInternal (cfg : Config) (k : Kernel) (stackIsIntact : TaskId → Bool) (t : TaskId) :
    Prop :=
  cfg.enableInvariantChecks = true →
    (k.tasks t).slotState = .allocated ∧ (k.tasks t).basePriority ≤ (k.tasks t).priority ∧
    (k.tasks t).priority < cfg.priorityCount ∧ stackIsIntact t = true ∧
    TaskMembershipIsValid cfg k t ∧ TaskWaitIsValid cfg k t

instance (cfg : Config) (k : Kernel) (stackIsIntact : TaskId → Bool) (t : TaskId) :
    Decidable (TaskValidateInternal cfg k stackIsIntact t) := by
  delta TaskValidateInternal
  infer_instance

/-! ## The scheduler -/

/-- The check of `rts_scheduler_validate_internal` on the timer service and its work. -/
def ServiceHasWork (k : Kernel) : Prop :=
  ((k.tasks .timerService).state = .blocked → k.callbackQueue.length = 0) ∧
  ((k.tasks .timerService).state = .ready → k.callbackQueue.length ≠ 0)

instance (k : Kernel) : Decidable (ServiceHasWork k) := inferInstanceAs (Decidable (_ ∧ _))

/-- The check of `rts_scheduler_validate_internal` on the delay queue. -/
def DelayQueueValidate (cfg : Config) (k : Kernel) : Prop :=
  k.delayQueue.IsChain
    (fun a b => ¬ tickBefore (k.tasks b).wait.wakeTick (k.tasks a).wait.wakeTick) ∧
  k.delayQueue.length ≤ cfg.schedulableTaskCapacity + 1

instance (cfg : Config) (k : Kernel) : Decidable (DelayQueueValidate cfg k) :=
  inferInstanceAs (Decidable (_ ∧ _))

/-- The check of `rts_scheduler_validate_internal` on the current task: it is `RUNNING`, or it has
blocked and a switch away from it is planned. -/
def CurrentValidate (cfg : Config) (k : Kernel) : Prop :=
  k.lifecycle = .running → ∃ c ∈ k.currentTask, (k.tasks c).state ≠ .running →
    (k.tasks c).state = .blocked ∧ (k.switchPlan.pending = true ∨ k.switchPlan.active = true) ∧
    (TaskIsBlockedDelay cfg k c ∨ TaskIsBlockedWait cfg k c)

instance (cfg : Config) (k : Kernel) : Decidable (CurrentValidate cfg k) := by
  delta CurrentValidate
  infer_instance

/-- `rts_scheduler_validate_internal`. -/
def SchedulerValidateInternal (cfg : Config) (k : Kernel) (stackIsIntact : TaskId → Bool) : Prop :=
  cfg.enableInvariantChecks = true →
    if k.lifecycle = .reset then
      k.currentTask = none ∧ k.idleTask = none ∧ k.timerServiceTask = none ∧ k.allocatedCount = 0
    else
      PolicyValidateAll cfg k ∧ k.idleTask = some .idle ∧
      TaskValidateInternal cfg k stackIsIntact .idle ∧ k.timerServiceTask = some .timerService ∧
      TaskValidateInternal cfg k stackIsIntact .timerService ∧ ServiceHasWork k ∧
      DelayQueueValidate cfg k ∧ CurrentValidate cfg k ∧
      ¬ (k.switchPlan.active = true ∧ k.switchPlan.pending = true)

instance (cfg : Config) (k : Kernel) (stackIsIntact : TaskId → Bool) :
    Decidable (SchedulerValidateInternal cfg k stackIsIntact) := by
  delta SchedulerValidateInternal
  infer_instance

/-! ## Synchronization -/

/-- The task is `BLOCKED` on a mutex. -/
def WaitsForMutex (k : Kernel) (t : TaskId) : Prop :=
  (k.tasks t).state = .blocked ∧ (k.tasks t).wait.reason = .mutex

instance (k : Kernel) (t : TaskId) : Decidable (WaitsForMutex k t) :=
  inferInstanceAs (Decidable (_ ∧ _))

/-- The checks of `rts_sync_validate_internal` on the owner of an awaited mutex. -/
def ChainOwnerIsValid (cfg : Config) (k : Kernel) (task owner : TaskId) : Prop :=
  owner ≠ task ∧
  (owner.IsApplication cfg ∨ k.idleTask = some owner ∨ k.timerServiceTask = some owner)

instance (cfg : Config) (k : Kernel) (task owner : TaskId) :
    Decidable (ChainOwnerIsValid cfg k task owner) := by
  delta ChainOwnerIsValid
  infer_instance

/-- The walk of `rts_sync_validate_internal` from `cursor` along the owners that a task waits for,
of which there may be `budget` more. -/
def MutexChainIsValid (cfg : Config) (k : Kernel) (task : TaskId) : Nat → TaskId → Prop
  | 0, cursor => ¬ WaitsForMutex k cursor
  | budget + 1, cursor => WaitsForMutex k cursor →
    match (k.tasks cursor).wait.object with
    | some (.mutex m) => MutexIsValid cfg k m ∧
      match (k.mutexes m).owner with
      | some owner => ChainOwnerIsValid cfg k task owner ∧ MutexChainIsValid cfg k task budget owner
      | none => False
    | _ => False

instance decidableMutexChainIsValid (cfg : Config) (k : Kernel) (task : TaskId) :
    (budget : Nat) → (cursor : TaskId) → Decidable (MutexChainIsValid cfg k task budget cursor)
  | 0, cursor => inferInstanceAs (Decidable (¬ WaitsForMutex k cursor))
  | budget + 1, cursor => by
    have ih := decidableMutexChainIsValid cfg k task budget
    unfold MutexChainIsValid
    repeat' split
    all_goals infer_instance

/-- The walk of `rts_sync_validate_internal` along the mutexes a task owns: how many there are and
the priority they require, or nothing when one of them is wrong or there are too many. -/
def ownedMutexesWalk (cfg : Config) (k : Kernel) (task : TaskId) :
    Nat → Option Nat → Nat → Nat → Option (Nat × Nat)
  | _, none, owned, required => some (owned, required)
  | 0, some _, _, _ => none
  | n + 1, some m, owned, required =>
    if MutexIsValid cfg k m ∧ (k.mutexes m).owner = some task then
      ownedMutexesWalk cfg k task n (k.mutexes m).ownedNext (owned + 1)
        (requiredByMutex k m required)
    else none

/-- The check of `rts_sync_validate_internal` on the mutexes a task owns. -/
def OwnedMutexesValidate (cfg : Config) (k : Kernel) (t : TaskId) : Prop :=
  ownedMutexesWalk cfg k t cfg.maxMutexesPerTask (k.tasks t).ownedMutexHead 0
    (k.tasks t).basePriority = some ((k.tasks t).ownedMutexCount, (k.tasks t).priority)

instance (cfg : Config) (k : Kernel) (t : TaskId) : Decidable (OwnedMutexesValidate cfg k t) :=
  inferInstanceAs (Decidable (_ = _))

/-- `rts_sync_validate_internal`. -/
def SyncValidateInternal (cfg : Config) (k : Kernel) : Prop :=
  cfg.enableInvariantChecks = true → k.lifecycle ≠ .reset →
    (∀ i < cfg.maxTasks, (k.tasks (.slot i)).slotState = .allocated →
      MutexChainIsValid cfg k (.slot i) cfg.schedulableTaskCapacity (.slot i) ∧
      OwnedMutexesValidate cfg k (.slot i)) ∧
    ∃ service ∈ k.timerServiceTask, OwnedMutexesValidate cfg k service

instance (cfg : Config) (k : Kernel) : Decidable (SyncValidateInternal cfg k) := by
  delta SyncValidateInternal
  infer_instance

/-! ## The kernel -/

/-- `rts_kernel_validate_all`. A slot is free, reserved or allocated by its type. -/
def KernelValidateAll (cfg : Config) (k : Kernel) (stackIsIntact : TaskId → Bool) : Prop :=
  cfg.enableInvariantChecks = true →
    SchedulerValidateInternal cfg k stackIsIntact ∧ SyncValidateInternal cfg k ∧
    TimerManagerValidate cfg k ∧
    (∀ i < cfg.maxTasks, (k.tasks (.slot i)).slotState = .allocated →
      TaskValidateInternal cfg k stackIsIntact (.slot i)) ∧
    (List.range cfg.maxTasks).countP (fun i => (k.tasks (.slot i)).slotState = .allocated) =
      k.allocatedCount

instance (cfg : Config) (k : Kernel) (stackIsIntact : TaskId → Bool) :
    Decidable (KernelValidateAll cfg k stackIsIntact) := by
  delta KernelValidateAll
  infer_instance

end RtsKernel
