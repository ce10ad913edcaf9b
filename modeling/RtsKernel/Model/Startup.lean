import RtsKernel.Model.Timer

/-!
# Startup

`scheduler_init.c`, `task_pool.c`, `task_object.c`, `task_create.c` and `scheduler_start.c`.
What the port answers is an input. Addresses are abstract: a private stack is given by two
nonzero bounds, an entry point by a nonzero number.
-/

namespace RtsKernel

open Halting Prog

/-- What the port answers during `rts_init`: a stack pointer is `none` when the status is not
`OK`. -/
structure InitAnswers where
  portOk : Bool
  serviceStackPointer : Option Nat
  idleStackPointer : Option Nat

/-- The kernel after `rts_kernel_restore_reset`: everything but the caller-owned objects and the
record of port requests is back at its initial value. -/
def kernelRestoreReset (k : Kernel) : Kernel :=
  { semaphores := k.semaphores
    mutexes := k.mutexes
    rescheduleRequests := k.rescheduleRequests }

/-- `rts_timer_service_object_initialize`, with the stack pointer installed later. -/
def timerServiceObject (cfg : Config) (stackPointer : Nat) : Tcb where
  savedStackPointer := stackPointer
  stackLow := 1
  stackHigh := 2
  entry := 1
  wait := serviceWait
  sliceRemaining := cfg.timeSliceTicks
  basePriority := cfg.timerServicePriority
  priority := cfg.timerServicePriority
  period := 1
  relativeDeadline := 1
  state := .blocked
  slotState := .allocated
  validationMagic := if cfg.enableAssertions = true then taskValidationMagic else 0

/-- `rts_idle_object_initialize`, with the stack pointer installed later. -/
def idleObject (cfg : Config) (stackPointer : Nat) : Tcb where
  savedStackPointer := stackPointer
  stackLow := 1
  stackHigh := 2
  entry := 1
  sliceRemaining := cfg.timeSliceTicks
  state := .dormant
  slotState := .allocated

/-- `rts_task_pool_initialize`. -/
def taskPoolInitialize (cfg : Config) (k : Kernel) : Kernel :=
  { k with
    tasks := fun t =>
      if t.IsApplication cfg then { k.tasks t with slotState := .free } else k.tasks t
    allocatedCount := 0
    nextFreeHint := 0 }

/-- What `rts_init` does on a failing answer of the port. -/
def initFail : KernelM Status := do
  modify kernelRestoreReset
  pure .portError

/-- The end of `rts_init`: the idle task has a stack and becomes ready. -/
def initIdle (cfg : Config) (stackPointer : Nat) : KernelM Status := do
  modify fun k => k.updateTask .idle fun task => { task with savedStackPointer := stackPointer }
  let inserted ← policyInsert cfg .idle
  if inserted = false then do
    modify kernelRestoreReset
    fatalUnless .startup False
    pure .portError
  else do
    modify fun k =>
      ({ k with idleTask := some .idle, lifecycle := .initialized }).updateTask .idle fun task =>
        { task with
          state := .ready
          validationMagic :=
            if cfg.enableAssertions = true then taskValidationMagic else task.validationMagic }
    pure .ok

/-- `rts_init` once the port is initialised: the timer service and the idle task are set up, each
with the stack pointer the port answers. -/
def initPrivateTasks (cfg : Config) (port : InitAnswers) : KernelM Status := do
  modify fun k => ({ k with timerServiceTask := some .timerService }).setTask .timerService
    (timerServiceObject cfg 0)
  if port.serviceStackPointer.getD 0 = 0 then initFail
  else do
    modify fun k => k.updateTask .timerService fun task =>
      { task with savedStackPointer := port.serviceStackPointer.getD 0 }
    modify fun k => k.setTask .idle (idleObject cfg 0)
    if port.idleStackPointer.getD 0 = 0 then initFail
    else initIdle cfg (port.idleStackPointer.getD 0)

/-- `rts_init`. -/
def init (cfg : Config) (isr : Bool) (port : InitAnswers) : KernelM Status := do
  let k ← get
  if isr = true then do
    rtsAssert cfg .startup False
    pure .invalidContext
  else if k.lifecycle = .initialized then pure .alreadyInitialized
  else if k.lifecycle = .running then pure .alreadyStarted
  else do
    modify kernelRestoreReset
    modify (taskPoolInitialize cfg)
    modify (policyInitialize cfg)
    modify delayInitialize
    if port.portOk = false then initFail
    else initPrivateTasks cfg port

/-! ## Task creation -/

/-- `rts_task_config_t`; `stackIsValid` is `rts_task_stack_is_valid`'s answer. -/
structure TaskConfig where
  entry : Nat
  stackLow : Nat
  stackHigh : Nat
  stackIsValid : Bool
  priority : Nat
  period : Tick
  relativeDeadline : Tick
  executionBudget : Tick

/-- The timing fields a policy accepts. -/
def TaskConfig.TimingIsValid (cfg : Config) (config : TaskConfig) : Prop :=
  match cfg.policy with
  | .rms =>
    config.period ≠ 0 ∧ config.period ≤ delayMax ∧ config.relativeDeadline ≠ 0 ∧
    config.relativeDeadline ≤ config.period ∧ config.executionBudget ≤ config.relativeDeadline
  | .edf =>
    config.relativeDeadline ≠ 0 ∧ config.relativeDeadline ≤ delayMax ∧ config.period ≤ delayMax ∧
    config.executionBudget ≤ config.relativeDeadline
  | .fixedPriority => config.period ≤ delayMax ∧ config.relativeDeadline ≤ delayMax

instance (cfg : Config) (config : TaskConfig) : Decidable (config.TimingIsValid cfg) := by
  delta TaskConfig.TimingIsValid
  exact match cfg.policy with
    | .rms | .edf | .fixedPriority => inferInstance

/-- `rts_task_config_validate`. A valid stack has a nonzero base below its end. -/
def taskConfigValidate (cfg : Config) (config : Option TaskConfig) (lifecycle : Lifecycle) :
    Status :=
  match config with
  | none => .invalidArgument
  | some config =>
    if lifecycle ≠ .initialized then .invalidState
    else if config.entry = 0 then .invalidTaskConfig
    else if config.priority < 1 ∨ cfg.priorityCount ≤ config.priority then .invalidPriority
    else if ¬ config.TimingIsValid cfg then .invalidTaskConfig
    else if config.stackIsValid = false ∨ config.stackLow = 0 ∨
        config.stackHigh ≤ config.stackLow then .invalidStack
    else .ok

/-- `rts_task_pool_reserve`. -/
def taskPoolReserve (cfg : Config) : KernelM (Option Nat) := do
  let k ← get
  rtsAssert cfg .startup (k.nextFreeHint < cfg.maxTasks)
  if cfg.maxTasks ≤ k.nextFreeHint then pure none
  else
    match (slotOrder cfg.maxTasks k.nextFreeHint).find? fun i =>
        (k.tasks (.slot i)).slotState = .free with
    | none => pure none
    | some i => do
      modify fun k => ({ k with nextFreeHint := nextHint cfg.maxTasks i }).updateTask (.slot i)
        fun task => { task with slotState := .reserved }
      pure (some i)

/-- `rts_task_pool_commit`. -/
def taskPoolCommit (cfg : Config) (i : Nat) : KernelM Unit := do
  let k ← get
  rtsAssert cfg .startup ((k.tasks (.slot i)).slotState = .reserved)
  rtsAssert cfg .startup (k.allocatedCount < cfg.maxTasks)
  if (k.tasks (.slot i)).slotState ≠ .reserved ∨ cfg.maxTasks ≤ k.allocatedCount then pure ()
  else
    modify fun k =>
      ({ k with allocatedCount := k.allocatedCount + 1 }).updateTask (.slot i) fun task =>
        { task with slotState := .allocated }

/-- `rts_task_pool_rollback`. -/
def taskPoolRollback (cfg : Config) (i : Nat) : KernelM Unit := do
  let k ← get
  rtsAssert cfg .startup ((k.tasks (.slot i)).slotState = .reserved)
  if (k.tasks (.slot i)).slotState ≠ .reserved then pure ()
  else
    modify fun k =>
      ({ k with nextFreeHint := i }).updateTask (.slot i) fun task =>
        { task with slotState := .free }

/-- The nodes of the task are linked nowhere. -/
def TaskIsUnlinked (cfg : Config) (k : Kernel) (t : TaskId) : Prop :=
  ¬ ReadyLinked cfg k t ∧ t ∉ k.edfReady ∧ t ∉ k.delayQueue ∧ (k.tasks t).waitOwner = none

instance (cfg : Config) (k : Kernel) (t : TaskId) : Decidable (TaskIsUnlinked cfg k t) := by
  delta TaskIsUnlinked
  infer_instance

/-- `rts_task_object_reset`. -/
def taskObjectReset (cfg : Config) (t : TaskId) : KernelM Unit := do
  let k ← get
  rtsAssert cfg .startup ((k.tasks t).slotState = .reserved ∧ TaskIsUnlinked cfg k t)
  if (k.tasks t).slotState ≠ .reserved ∨ ¬ TaskIsUnlinked cfg k t then pure ()
  else modify fun k => k.setTask t { slotState := .reserved }

/-- `rts_task_create_rollback`. -/
def taskCreateRollback (cfg : Config) (i : Nat) : KernelM Unit := do
  let k ← get
  if PolicyValidate cfg k (.slot i) true then
    let _ ← policyRemove cfg (.slot i)
  taskObjectReset cfg (.slot i)
  taskPoolRollback cfg i

/-- The object `rts_task_object_initialize` builds. -/
def taskObject (cfg : Config) (config : TaskConfig) : Tcb where
  stackLow := config.stackLow
  stackHigh := config.stackHigh
  entry := config.entry
  sliceRemaining := cfg.timeSliceTicks
  basePriority := config.priority
  priority := config.priority
  period := config.period
  relativeDeadline := config.relativeDeadline
  executionBudget := config.executionBudget
  state := .dormant
  slotState := .reserved

/-- `rts_task_object_initialize`. -/
def taskObjectInitialize (cfg : Config) (t : TaskId) (config : TaskConfig) : KernelM Status := do
  let k ← get
  rtsAssert cfg .startup ((k.tasks t).slotState = .reserved ∧ TaskIsUnlinked cfg k t)
  if (k.tasks t).slotState ≠ .reserved ∨ ¬ TaskIsUnlinked cfg k t then pure .invalidState
  else do
    modify fun k => k.setTask t (taskObject cfg config)
    pure .ok

/-- What the port answers to `rts_port_stack_initialize`: a status and a stack pointer. -/
structure StackAnswer where
  status : Status
  stackPointer : Nat

/-- The end of `rts_task_create`: the task is inserted and its slot committed. -/
def taskCreateCommit (cfg : Config) (i : Nat) : KernelM (Status × Option TaskId) := do
  let inserted ← policyInsert cfg (.slot i)
  if inserted = false then do
    let k ← get
    rtsAssert cfg .startup (PolicyValidate cfg k (.slot i) true)
    taskCreateRollback cfg i
    pure (.portError, none)
  else do
    modify fun k => k.updateTask (.slot i) fun task => { task with state := .ready }
    taskPoolCommit cfg i
    let k ← get
    rtsAssert cfg .startup ((k.tasks (.slot i)).slotState = .allocated)
    if (k.tasks (.slot i)).slotState ≠ .allocated then do
      let _ ← policyRemove cfg (.slot i)
      taskCreateRollback cfg i
      pure (.portError, none)
    else do
      modify fun k => (k.updateTask (.slot i) fun task =>
        { task with
          validationMagic :=
            if cfg.enableAssertions = true then taskValidationMagic
            else task.validationMagic }).count fun c =>
        { c with taskCreations := diagnosticCounterIncrement c.taskCreations }
      pure (.ok, some (.slot i))

/-- `rts_task_create`; `outHandle` says that the caller passes a place for the handle. -/
def taskCreate (cfg : Config) (isr : Bool) (config : Option TaskConfig) (outHandle : Bool)
    (stack : StackAnswer) : KernelM (Status × Option TaskId) :=
  if outHandle = false then pure (.invalidArgument, none)
  else if isr = true then do
    rtsAssert cfg .startup False
    pure (.invalidContext, none)
  else do
    let k ← get
    match config, taskConfigValidate cfg config k.lifecycle with
    | some config, .ok => do
      let reserved ← taskPoolReserve cfg
      match reserved with
      | none => pure (.capacityExhausted, none)
      | some i => do
        let status ← taskObjectInitialize cfg (.slot i) config
        if status ≠ .ok then do
          taskCreateRollback cfg i
          pure (status, none)
        else if stack.status ≠ .ok ∨ stack.stackPointer = 0 then do
          taskCreateRollback cfg i
          pure (if stack.status ≠ .ok then stack.status else .portError, none)
        else do
          modify fun k => k.updateTask (.slot i) fun task =>
            { task with savedStackPointer := stack.stackPointer }
          taskCreateCommit cfg i
    | _, status => pure (status, none)

/-! ## Start -/

/-- `rts_start_preflight_is_coherent`. -/
def StartPreflightIsCoherent (cfg : Config) (k : Kernel) : Prop :=
  k.lifecycle = .initialized ∧ k.currentTask = none ∧ k.idleTask = some .idle ∧
  (k.tasks .idle).state = .ready ∧ PolicyValidate cfg k .idle true ∧
  k.timerServiceTask = some .timerService ∧ TaskIsBlockedWait cfg k .timerService ∧
  k.callbackQueue = [] ∧ policyPickNext cfg k ≠ none ∧ k.delayQueue = [] ∧
  k.switchPlan.pending = false ∧ k.switchPlan.active = false ∧
  k.switchPlan.fromTask = none ∧ k.switchPlan.toTask = none

instance (cfg : Config) (k : Kernel) : Decidable (StartPreflightIsCoherent cfg k) := by
  delta StartPreflightIsCoherent
  infer_instance

/-- `rts_start_rollback`. -/
def startRollback (cfg : Config) : KernelM Unit := do
  modify fun k => { k with lifecycle := .initialized }
  let released ← schedulerCurrentReleaseInitial cfg
  fatalUnless .startup (released = true)
  let k ← get
  fatalUnless .startup (k.currentTask = none)
  fatalUnless .startup (CurrentIsValid cfg k)

/-- The first dispatch: the selected task is running, whatever the port answers next. -/
def startDispatch (cfg : Config) (tickOk firstTaskOk : Bool) : KernelM Status := do
  let k ← get
  match k.currentTask with
  | none => halt (.assertion .nullCurrent)
  | some c => do
    modify fun k =>
      ({ k with lifecycle := .running }).updateTask c (runtimeTaskStarted k.currentTick)
    modify fun k => k.count fun c =>
      { c with schedulerStarts := diagnosticCounterIncrement c.schedulerStarts }
    let k ← get
    fatalUnless .startup (CurrentIsValid cfg k)
    if tickOk = false ∨ firstTaskOk = false then do
      startRollback cfg
      pure .portError
    else pure .ok

/-- `rts_start`; the answers of `rts_port_tick_start` and `rts_port_start_first_task` are inputs. -/
def start (cfg : Config) (isr : Bool) (tickOk firstTaskOk : Bool) : KernelM Status :=
  if isr = true then do
    rtsAssert cfg .startup False
    pure .invalidContext
  else do
    let k ← get
    match k.lifecycle with
    | .reset => pure .invalidState
    | .running => pure .alreadyStarted
    | .initialized => do
      rtsAssert cfg .startup (StartPreflightIsCoherent cfg k)
      if ¬ StartPreflightIsCoherent cfg k then pure .invalidState
      else do
        let selected ← schedulerSelectHighestReady cfg
        match selected with
        | none => do
          fatalUnless .startup False
          pure .invalidState
        | some selected => do
          fatalUnless .startup ((k.tasks selected).state = .ready)
          fatalUnless .startup (TaskIsRunnable cfg k selected)
          let established ← schedulerCurrentEstablish cfg selected
          if established = false then pure .invalidState
          else startDispatch cfg tickOk firstTaskOk

end RtsKernel
