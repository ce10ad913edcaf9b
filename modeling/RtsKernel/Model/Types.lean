import RtsKernel.Library.Halting

/-!
# Kernel data model

The compile-time configuration, the task control block, the synchronization objects,
the timer manager and the kernel state. Every intrusive list of the kernel is modelled
by the sequence of its members; a node is linked in a list when its task is a member.
The owned-mutex lists keep their links, since their shape is itself a subject of proof.
Tasks, semaphores, mutexes and timers are addressed by name, and a null pointer is
`none` (or `0` for the code and stack addresses that are only compared with null).
-/

namespace RtsKernel

open Halting

/-- `rts_tick_t`, and every other counter the kernel lets wrap. -/
abbrev Tick := BitVec 32

/-- `RTS_DELAY_MAX`, also `RTS_TICK_MAX_ADVANCE`. -/
def delayMax : Tick := 0x7fffffff#32

/-- `RTS_WAIT_FOREVER`. -/
def waitForever : Tick := 0xffffffff#32

/-- `RTS_TICK_HALF_RANGE`. -/
def tickHalfRange : Tick := 0x80000000#32

/-- `RTS_TASK_VALIDATION_MAGIC`. -/
def taskValidationMagic : Tick := 0x52545354#32

/-- `RTS_TIMER_VALIDATION_MAGIC`. -/
def timerValidationMagic : Tick := 0x5254544d#32

inductive PolicyKind where
  | fixedPriority
  | rms
  | edf
  deriving DecidableEq, Repr

/-- The selected `rts_config.h`, with the constraints its compile-time checks enforce. -/
structure Config where
  maxTasks : Nat
  maxTimers : Nat
  priorityCount : Nat
  timerServicePriority : Nat
  timerCallbackQueueCapacity : Nat
  maxMutexesPerTask : Nat
  timeSliceTicks : Tick
  ticklessMaxSleepTicks : Tick
  enableTimeSlicing : Bool
  enableTicklessIdle : Bool
  enableAssertions : Bool
  enableInvariantChecks : Bool
  policy : PolicyKind
  maxTasks_pos : 1 ≤ maxTasks
  maxTimers_pos : 1 ≤ maxTimers
  priorityCount_range : 2 ≤ priorityCount ∧ priorityCount ≤ 256
  servicePriority_range : 1 ≤ timerServicePriority ∧ timerServicePriority < priorityCount
  capacity_le : maxTimers ≤ timerCallbackQueueCapacity
  maxMutexes_pos : 1 ≤ maxMutexesPerTask
  slice_pos : enableTimeSlicing = true → timeSliceTicks ≠ 0
  sleep_range : ticklessMaxSleepTicks ≠ 0 ∧ ticklessMaxSleepTicks ≤ delayMax
  rms_ranks : policy = .rms → maxTasks + 1 < priorityCount ∧ maxTasks < timerServicePriority

/-- `RTS_SCHEDULABLE_TASK_CAPACITY`: the application pool and the two private tasks. -/
def Config.schedulableTaskCapacity (cfg : Config) : Nat := cfg.maxTasks + 2

inductive Status where
  | ok
  | invalidArgument
  | invalidContext
  | invalidState
  | invalidTaskConfig
  | invalidPriority
  | invalidStack
  | capacityExhausted
  | alreadyInitialized
  | alreadyStarted
  | timeout
  | full
  | portError
  deriving DecidableEq, Repr

inductive Lifecycle where
  | reset
  | initialized
  | running
  deriving DecidableEq, Repr

/-- A task control block: a slot of the application pool, or one of the private tasks. -/
inductive TaskId where
  | slot (index : Nat)
  | idle
  | timerService
  deriving DecidableEq, Repr

/-- `rts_task_handle_is_application_task`. -/
def TaskId.IsApplication (cfg : Config) : TaskId → Prop
  | .slot i => i < cfg.maxTasks
  | _ => False

instance (cfg : Config) : DecidablePred (TaskId.IsApplication cfg)
  | .slot i => inferInstanceAs (Decidable (i < cfg.maxTasks))
  | .idle => inferInstanceAs (Decidable False)
  | .timerService => inferInstanceAs (Decidable False)

inductive SlotState where
  | free
  | reserved
  | allocated
  deriving DecidableEq, Repr

inductive TaskState where
  | dormant
  | ready
  | running
  | blocked
  deriving DecidableEq, Repr

inductive WaitReason where
  | none
  | delay
  | semaphore
  | mutex
  | timerService
  deriving DecidableEq, Repr

inductive WaitResult where
  | none
  | acquired
  | timeout
  | cancelled
  deriving DecidableEq, Repr

/-- The owner of a wait list: the embedded `waiters` of a semaphore or of a mutex. -/
inductive WaitObject where
  | semaphore (index : Nat)
  | mutex (index : Nat)
  deriving DecidableEq, Repr

structure Wait where
  reason : WaitReason := .none
  result : WaitResult := .none
  wakeTick : Tick := 0
  object : Option WaitObject := none
  timeoutActive : Bool := false
  deriving DecidableEq, Repr

/-- `struct rts_task`, without the fields no kernel decision reads. The `owner` of the
wait node is kept; the ready and delay nodes are membership in their lists. -/
structure Tcb where
  savedStackPointer : Nat := 0
  stackLow : Nat := 0
  stackHigh : Nat := 0
  entry : Nat := 0
  waitOwner : Option WaitObject := none
  wait : Wait := {}
  sliceRemaining : Tick := 0
  ownedMutexHead : Option Nat := none
  ownedMutexTail : Option Nat := none
  ownedMutexCount : Nat := 0
  basePriority : Nat := 0
  priority : Nat := 0
  period : Tick := 0
  relativeDeadline : Tick := 0
  absoluteDeadline : Tick := 0
  releaseTick : Tick := 0
  executionBudget : Tick := 0
  releaseSequence : Tick := 0
  state : TaskState := .dormant
  slotState : SlotState := .free
  diagnosticDispatchCount : Tick := 0
  diagnosticBlockCount : Tick := 0
  diagnosticWakeCount : Tick := 0
  diagnosticRunningTicks : Tick := 0
  diagnosticLastStartTick : Tick := 0
  validationMagic : Tick := 0

/-- `rts_semaphore_t`; `initialized` is the identity and signature check. -/
structure Semaphore where
  count : Nat := 0
  maximumCount : Nat := 0
  waiters : List TaskId := []
  initialized : Bool := false

/-- `rts_mutex_t`, with the links of the owned-mutex list it is on. -/
structure Mutex where
  owner : Option TaskId := none
  waiters : List TaskId := []
  ownedPrevious : Option Nat := none
  ownedNext : Option Nat := none
  initialized : Bool := false

structure SwitchPlan where
  fromTask : Option TaskId := none
  toTask : Option TaskId := none
  pending : Bool := false
  active : Bool := false
  reselectionRequired : Bool := false
  generation : Tick := 0
  deriving DecidableEq, Repr

structure SwitchSnapshot where
  fromTask : TaskId
  toTask : TaskId
  generation : Tick
  deriving DecidableEq, Repr

inductive TimerMode where
  | oneShot
  | periodic
  deriving DecidableEq, Repr

inductive TimerState where
  | uninitialized
  | stopped
  | active
  deriving DecidableEq, Repr

inductive CallbackState where
  | idle
  | pending
  | running
  deriving DecidableEq, Repr

/-- `struct rts_timer`; the queue node is membership in the active queue. -/
structure Timer where
  expirationTick : Tick := 0
  lastExpirationTick : Tick := 0
  period : Tick := 0
  callback : Nat := 0
  slotIndex : Nat := 0
  generation : Tick := 0
  expirationSequence : Tick := 0
  mode : TimerMode := .oneShot
  state : TimerState := .uninitialized
  callbackState : CallbackState := .idle
  slotState : SlotState := .free
  diagnosticStartCount : Tick := 0
  diagnosticStopCount : Tick := 0
  diagnosticRestartCount : Tick := 0
  diagnosticExpirationCount : Tick := 0
  diagnosticCallbackCount : Tick := 0
  diagnosticStaleCount : Tick := 0
  diagnosticMissedPeriodCount : Tick := 0
  diagnosticOverrunCount : Tick := 0
  validationMagic : Tick := 0

/-- `rts_timer_callback_work_t`. -/
structure CallbackWork where
  timer : Nat
  expirationTick : Tick
  generation : Tick
  sequence : Tick
  deriving DecidableEq, Repr

/-- `rts_runtime_counters_t`. -/
structure RuntimeCounters where
  schedulerTicks : Tick := 0
  contextSwitches : Tick := 0
  switchRequests : Tick := 0
  schedulerStarts : Tick := 0
  taskCreations : Tick := 0
  yields : Tick := 0
  delayBlocks : Tick := 0
  delayWakeups : Tick := 0
  semaphoreBlocks : Tick := 0
  semaphoreAcquisitions : Tick := 0
  semaphoreTimeouts : Tick := 0
  mutexBlocks : Tick := 0
  mutexHandoffs : Tick := 0
  mutexTimeouts : Tick := 0
  priorityRaises : Tick := 0
  priorityRestorations : Tick := 0
  timerInitializations : Tick := 0
  timerStarts : Tick := 0
  timerStops : Tick := 0
  timerRestarts : Tick := 0
  timerExpirations : Tick := 0
  timerCallbacksExecuted : Tick := 0
  timerStaleCallbacks : Tick := 0
  timerMissedPeriods : Tick := 0
  timerOverruns : Tick := 0
  timerCallbackQueueMaximumDepth : Tick := 0
  timerCallbackQueueOverflows : Tick := 0
  ticklessSleepAttempts : Tick := 0
  ticklessSleepEntries : Tick := 0
  ticklessSleepAborts : Tick := 0
  ticklessTimerWakes : Tick := 0
  ticklessExternalWakes : Tick := 0
  ticklessSuppressedTicks : Tick := 0
  ticklessLongestSleep : Tick := 0

/-- `rts_diagnostic_counter_increment`. -/
def diagnosticCounterIncrement (value : Tick) : Tick :=
  if value = BitVec.allOnes 32 then BitVec.allOnes 32 else value + 1

/-- `rts_diagnostic_counter_add`. -/
def diagnosticCounterAdd (value increment : Tick) : Tick :=
  if BitVec.allOnes 32 - value < increment then BitVec.allOnes 32 else value + increment

/-- The kernel, the timer manager, the caller-owned synchronization objects and the
reschedule requests made to the port. `serviceWork` is the work item the timer service
holds in `rts_timer_service_process_one` while its callback runs. -/
structure Kernel where
  lifecycle : Lifecycle := .reset
  tasks : TaskId → Tcb := fun _ => {}
  allocatedCount : Nat := 0
  nextFreeHint : Nat := 0
  currentTask : Option TaskId := none
  idleTask : Option TaskId := none
  timerServiceTask : Option TaskId := none
  switchPlan : SwitchPlan := {}
  readySet : Nat → List TaskId := fun _ => []
  edfReady : List TaskId := []
  policyReleaseSequence : Tick := 0
  delayQueue : List TaskId := []
  currentTick : Tick := 0
  semaphores : Nat → Semaphore := fun _ => {}
  mutexes : Nat → Mutex := fun _ => {}
  timers : Nat → Timer := fun i => { slotIndex := i }
  activeQueue : List Nat := []
  callbackQueue : List CallbackWork := []
  callbackQueueMaximumDepth : Nat := 0
  timerAllocatedCount : Nat := 0
  timerNextFreeHint : Nat := 0
  serviceWork : Option CallbackWork := none
  counters : RuntimeCounters := {}
  rescheduleRequests : Nat := 0

/-- The check that failed: the function whose `RTS_ASSERT` or `RTS_FATAL_UNLESS` it is, split
where one function makes checks of different kinds. -/
inductive Site where
  | readyQueue
  | delayQueue
  | delayHalfRange
  | waitObject
  | timerQueue
  | nullCurrent
  | selectLifecycle
  | selectNone
  | selectRunnable
  | selectBlockedCurrent
  | currentEstablish
  | currentRelease
  | serviceWake
  | serviceBlock
  | serviceCancel
  | prepareLifecycle
  | prepareOutgoing
  | prepareIncoming
  | preparePlan
  | acquire
  | acquireOutgoing
  | complete
  | completeOutgoing
  | reselect
  | reselectCurrent
  | priorityWaiters
  | priorityOwned
  | recomputeVisited
  | recomputeDepth
  | recomputeChain (start : TaskId)
  | mutexInit
  | mutexOwnerLink
  | mutexOwnerUnlink
  | mutexWouldCycle
  | mutexDeadlock
  | mutexLock
  | mutexHandoff
  | mutexTimeout
  | semaphoreInit
  | semaphoreTake
  | semaphoreMakeReady
  | taskDelayCoherent
  | taskDelay
  | taskYieldCoherent
  | taskYield
  | tickValid
  | tickWakeTask
  | tickOutgoing
  | timerInvalidate
  | timerManager
  | timerCallback
  | startup
  | power
  deriving DecidableEq, Repr

/-- `rts_fatal_reason_t`, as far as the modelled code raises it. -/
inductive Fatal where
  | assertion (site : Site)
  | stackCorruption
  | timerCorruption
  | timerCallbackQueueOverflow
  deriving DecidableEq, Repr

abbrev KernelM := Prog Fatal Kernel

open Prog

/-- `RTS_FATAL_UNLESS`. -/
def fatalUnless (site : Site) (c : Prop) [Decidable c] : KernelM Unit :=
  check (.assertion site) c

/-- `RTS_ASSERT`: checked only when assertions are compiled in. -/
def rtsAssert (cfg : Config) (site : Site) (c : Prop) [Decidable c] : KernelM Unit :=
  check (.assertion site) (cfg.enableAssertions = true → c)

namespace Kernel

@[simps -fullyApplied]
def setTask (k : Kernel) (t : TaskId) (task : Tcb) : Kernel :=
  { k with tasks := Function.update k.tasks t task }

/-- Assign fields of one task control block. -/
@[simps -fullyApplied]
def updateTask (k : Kernel) (t : TaskId) (f : Tcb → Tcb) : Kernel :=
  { k with tasks := Function.update k.tasks t (f (k.tasks t)) }

@[simps -fullyApplied]
def updateSemaphore (k : Kernel) (i : Nat) (f : Semaphore → Semaphore) : Kernel :=
  { k with semaphores := Function.update k.semaphores i (f (k.semaphores i)) }

@[simps -fullyApplied]
def updateMutex (k : Kernel) (m : Nat) (f : Mutex → Mutex) : Kernel :=
  { k with mutexes := Function.update k.mutexes m (f (k.mutexes m)) }

@[simps -fullyApplied]
def updateTimer (k : Kernel) (i : Nat) (f : Timer → Timer) : Kernel :=
  { k with timers := Function.update k.timers i (f (k.timers i)) }

/-- Update the runtime counters only. -/
@[simps -fullyApplied]
def count (k : Kernel) (f : RuntimeCounters → RuntimeCounters) : Kernel :=
  { k with counters := f k.counters }

/-- The wait list embedded in a semaphore or mutex. -/
def waiters (k : Kernel) : WaitObject → List TaskId
  | .semaphore i => (k.semaphores i).waiters
  | .mutex m => (k.mutexes m).waiters

@[simps -fullyApplied]
def setWaiters (k : Kernel) (o : WaitObject) (l : List TaskId) : Kernel :=
  { k with
    semaphores :=
      match o with
      | .semaphore i => Function.update k.semaphores i { k.semaphores i with waiters := l }
      | .mutex _ => k.semaphores
    mutexes :=
      match o with
      | .semaphore _ => k.mutexes
      | .mutex m => Function.update k.mutexes m { k.mutexes m with waiters := l } }

end Kernel

/-- `rts_port_request_reschedule`. -/
def portRequestReschedule : KernelM Unit :=
  modify fun k => { k with rescheduleRequests := k.rescheduleRequests + 1 }

end RtsKernel
