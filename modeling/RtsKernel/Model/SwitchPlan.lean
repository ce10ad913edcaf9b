import RtsKernel.Model.Select

/-!
# Switch planning

`switch_plan.c`: the single coalesced switch plan, its acquisition as an immutable snapshot
and the completion of the switch; and the three timer-service transitions of
`scheduler_select.c`, which end in a plan.
-/

namespace RtsKernel

open Halting Prog

/-- `rts_switch_plan_clear`. -/
def switchPlanClear (plan : SwitchPlan) : SwitchPlan :=
  { plan with fromTask := none, toTask := none, pending := false, active := false }

/-- `rts_switch_outgoing_is_valid`. -/
def SwitchOutgoingIsValid (cfg : Config) (k : Kernel) (t : TaskId) : Prop :=
  k.currentTask = some t ∧
  ((k.tasks t).state = .running ∧ TaskIsRunnable cfg k t ∨
   (k.tasks t).state = .blocked ∧ (TaskIsBlockedDelay cfg k t ∨ TaskIsBlockedWait cfg k t))

instance (cfg : Config) (k : Kernel) (t : TaskId) : Decidable (SwitchOutgoingIsValid cfg k t) := by
  delta SwitchOutgoingIsValid
  infer_instance

@[simps -fullyApplied]
def Kernel.setPlan (k : Kernel) (plan : SwitchPlan) : Kernel := { k with switchPlan := plan }

/-- The part of `rts_scheduler_prepare_switch` after its validity checks: defer to an active
switch, cancel, create or retarget the plan. -/
def prepareSwitchTo (cfg : Config) (current next : TaskId) : KernelM Bool := do
  let k ← get
  if k.switchPlan.active = true then do
    modify fun k => k.setPlan { k.switchPlan with reselectionRequired := true }
    pure false
  else do
    modify fun k => k.setPlan { k.switchPlan with reselectionRequired := false }
    if next = current then
      if k.switchPlan.pending = true then do
        rtsAssert cfg .preparePlan (k.switchPlan.fromTask = some current)
        modify fun k => k.setPlan (switchPlanClear
          { k.switchPlan with generation := k.switchPlan.generation + 1 })
        pure false
      else pure false
    else do
      rtsAssert cfg .prepareIncoming ((k.tasks next).state = .ready)
      if (k.tasks next).state ≠ .ready then pure false
      else if k.switchPlan.pending = false then do
        modify fun k => (k.setPlan
          { k.switchPlan with
            fromTask := some current
            toTask := some next
            pending := true
            generation := k.switchPlan.generation + 1 }).count fun c =>
          { c with switchRequests := diagnosticCounterIncrement c.switchRequests }
        pure true
      else do
        rtsAssert cfg .preparePlan (k.switchPlan.fromTask = some current)
        rtsAssert cfg .preparePlan (k.switchPlan.toTask ≠ none)
        if k.switchPlan.fromTask ≠ some current ∨ k.switchPlan.toTask = none then pure false
        else if k.switchPlan.toTask ≠ some next then do
          modify fun k => k.setPlan
            { k.switchPlan with
              toTask := some next
              generation := k.switchPlan.generation + 1 }
          pure false
        else pure false

/-- `rts_scheduler_prepare_switch`. -/
def schedulerPrepareSwitch (cfg : Config) (next : Option TaskId) : KernelM Bool := do
  let k ← get
  rtsAssert cfg .prepareLifecycle (k.lifecycle = .running)
  match k.currentTask, next with
  | some current, some next => do
    rtsAssert cfg .prepareOutgoing (SwitchOutgoingIsValid cfg k current)
    rtsAssert cfg .prepareIncoming (TaskIsRunnable cfg k next)
    if k.lifecycle ≠ .running ∨ ¬ SwitchOutgoingIsValid cfg k current ∨
        ¬ TaskIsRunnable cfg k next then pure false
    else prepareSwitchTo cfg current next
  | none, _ => do
    rtsAssert cfg .prepareOutgoing False
    pure false
  | _, none => do
    rtsAssert cfg .prepareIncoming False
    pure false

/-- `rts_scheduler_switch_acquire`. -/
def schedulerSwitchAcquire (cfg : Config) : KernelM (Option SwitchSnapshot) := do
  let k ← get
  rtsAssert cfg .acquire (k.lifecycle = .running)
  rtsAssert cfg .acquire (k.switchPlan.active = false)
  if k.lifecycle ≠ .running ∨ k.switchPlan.active = true then pure none
  else if k.switchPlan.pending = false then pure none
  else
    match k.switchPlan.fromTask, k.switchPlan.toTask with
    | some src, some dst => do
      rtsAssert cfg .acquire (k.currentTask = some src)
      rtsAssert cfg .acquire (src ≠ dst)
      rtsAssert cfg .acquireOutgoing (SwitchOutgoingIsValid cfg k src)
      rtsAssert cfg .acquire ((k.tasks dst).state = .ready)
      rtsAssert cfg .acquire (TaskIsRunnable cfg k dst)
      if k.currentTask ≠ some src ∨ src = dst ∨ ¬ SwitchOutgoingIsValid cfg k src ∨
          (k.tasks dst).state ≠ .ready ∨ ¬ TaskIsRunnable cfg k dst then pure none
      else do
        modify fun k => k.setPlan { k.switchPlan with pending := false, active := true }
        pure (some { fromTask := src, toTask := dst, generation := k.switchPlan.generation })
    | _, _ => do
      rtsAssert cfg .acquire False
      pure none

/-- `rts_runtime_task_started`. -/
def runtimeTaskStarted (now : Tick) (task : Tcb) : Tcb :=
  { task with
    diagnosticLastStartTick := now
    diagnosticDispatchCount := diagnosticCounterIncrement task.diagnosticDispatchCount }

/-- `rts_runtime_task_stopped`. -/
def runtimeTaskStopped (now : Tick) (task : Tcb) : Tcb :=
  { task with
    diagnosticRunningTicks :=
      task.diagnosticRunningTicks + (now - task.diagnosticLastStartTick) }

/-- The checks of `rts_scheduler_switch_complete` on the plan and the incoming task. -/
def CompletePlanIsValid (cfg : Config) (k : Kernel) (snapshot : SwitchSnapshot) : Prop :=
  k.lifecycle = .running ∧ k.switchPlan.active = true ∧ k.switchPlan.pending = false ∧
  snapshot.generation = k.switchPlan.generation ∧
  k.switchPlan.fromTask = some snapshot.fromTask ∧ k.switchPlan.toTask = some snapshot.toTask ∧
  snapshot.fromTask ≠ snapshot.toTask ∧ k.currentTask = some snapshot.fromTask ∧
  (k.tasks snapshot.toTask).state = .ready ∧ TaskIsRunnable cfg k snapshot.toTask

instance (cfg : Config) (k : Kernel) (s : SwitchSnapshot) :
    Decidable (CompletePlanIsValid cfg k s) := by
  delta CompletePlanIsValid
  infer_instance

/-- `rts_scheduler_switch_complete`. Whether the stack guards and saved stack pointers of both
tasks are intact is an input. -/
def schedulerSwitchComplete (cfg : Config) (snapshot : SwitchSnapshot) (stacksIntact : Bool) :
    KernelM Unit :=
  if stacksIntact = false then halt .stackCorruption
  else do
    let k ← get
    rtsAssert cfg .complete (CompletePlanIsValid cfg k snapshot)
    rtsAssert cfg .completeOutgoing (SwitchOutgoingIsValid cfg k snapshot.fromTask)
    if ¬ CompletePlanIsValid cfg k snapshot ∨ ¬ SwitchOutgoingIsValid cfg k snapshot.fromTask then
      pure ()
    else do
      modify fun k => k.updateTask snapshot.fromTask (runtimeTaskStopped k.currentTick)
      if (k.tasks snapshot.fromTask).state = .running then
        modify fun k => k.updateTask snapshot.fromTask fun task => { task with state := .ready }
      else fatalUnless .completeOutgoing ((k.tasks snapshot.fromTask).state = .blocked)
      modify fun k =>
        ({ k with currentTask := some snapshot.toTask }).updateTask snapshot.toTask fun task =>
          { task with sliceRemaining := cfg.timeSliceTicks, state := .running }
      modify fun k => k.updateTask snapshot.toTask (runtimeTaskStarted k.currentTick)
      modify fun k => (k.setPlan (switchPlanClear k.switchPlan)).count fun c =>
        { c with contextSwitches := diagnosticCounterIncrement c.contextSwitches }
      let k ← get
      fatalUnless .complete (CurrentIsValid cfg k)

/-- `rts_scheduler_reselect_after_switch`. -/
def schedulerReselectAfterSwitch (cfg : Config) : KernelM Bool := do
  let k ← get
  if k.switchPlan.reselectionRequired = false then pure false
  else
    match k.currentTask with
    | none => do
      fatalUnless .reselect False
      pure false
    | some current => do
      fatalUnless .reselectCurrent ((k.tasks current).state = .running)
      let selected ← schedulerSelectHighestReady cfg
      match selected with
      | none => do
        fatalUnless .reselect False
        pure false
      | some selected =>
        if selected ≠ current then schedulerPrepareSwitch cfg (some selected)
        else do
          let _ ← schedulerPrepareSwitch cfg (some current)
          pure false

/-- What `rts_mutex_plan_final` and `rts_semaphore_plan_after_wake` do: select, then plan towards
the selected task or cancel the plan. -/
def planAfterWake (cfg : Config) : KernelM Bool := do
  let selected ← schedulerSelectHighestReady cfg
  let k ← get
  match selected, k.currentTask with
  | some selected, some current =>
    if selected = current then do
      let _ ← schedulerPrepareSwitch cfg (some current)
      pure false
    else schedulerPrepareSwitch cfg (some selected)
  | _, _ => do
    fatalUnless .selectNone False
    pure false

/-- The end of every blocking call: select another task and plan the switch to it. -/
def planAfterBlock (cfg : Config) (current : TaskId) : KernelM Bool := do
  let selected ← schedulerSelectHighestReady cfg
  match selected with
  | none => do
    fatalUnless .selectNone False
    pure false
  | some selected => do
    fatalUnless .selectBlockedCurrent (selected ≠ current)
    schedulerPrepareSwitch cfg (some selected)

/-! ## Timer service -/

/-- The wait record of a blocked timer service. -/
def serviceWait : Wait := { reason := .timerService }

/-- `rts_scheduler_timer_service_wake`. -/
def schedulerTimerServiceWake (cfg : Config) : KernelM Bool := do
  let k ← get
  match k.timerServiceTask with
  | none => pure false
  | some service =>
    if (k.tasks service).state ≠ .blocked ∨ (k.tasks service).wait.reason ≠ .timerService ∨
        (k.tasks service).wait.object ≠ none ∨ (k.tasks service).wait.timeoutActive = true ∨
        PolicyValidate cfg k service true then pure false
    else do
      modify fun k => k.updateTask service fun task =>
        { task with
          wait := { task.wait with reason := .none, result := .none }
          state := .ready
          sliceRemaining := cfg.timeSliceTicks }
      let unblocked ← policyTaskUnblock cfg service
      fatalUnless .serviceWake (unblocked = true)
      modify fun k => k.updateTask service fun task =>
        { task with diagnosticWakeCount := diagnosticCounterIncrement task.diagnosticWakeCount }
      let k ← get
      fatalUnless .serviceWake (TaskIsRunnable cfg k service)
      pure true

/-- `rts_scheduler_timer_service_block`. -/
def schedulerTimerServiceBlock (cfg : Config) : KernelM Bool := do
  let k ← get
  match k.timerServiceTask with
  | none => pure false
  | some service =>
    if k.currentTask ≠ some service ∨ (k.tasks service).state ≠ .running ∨
        ¬ PolicyValidate cfg k service true ∨ (k.tasks service).wait.reason ≠ .none then pure false
    else do
      let removed ← policyTaskBlock cfg service
      fatalUnless .serviceBlock (removed = true)
      modify fun k => k.updateTask service fun task =>
        { task with
          wait := serviceWait
          state := .blocked
          diagnosticBlockCount := diagnosticCounterIncrement task.diagnosticBlockCount }
      planAfterBlock cfg service

/-- `rts_scheduler_timer_service_cancel_wake`. -/
def schedulerTimerServiceCancelWake (cfg : Config) : KernelM Unit := do
  let k ← get
  match k.timerServiceTask with
  | none => pure ()
  | some service =>
    if (k.tasks service).state ≠ .ready then pure ()
    else do
      if k.switchPlan.pending = true ∧ k.switchPlan.toTask = some service then
        let _ ← schedulerPrepareSwitch cfg k.currentTask
      let removed ← policyTaskBlock cfg service
      fatalUnless .serviceCancel (removed = true)
      modify fun k => k.updateTask service fun task =>
        { task with wait := serviceWait, state := .blocked }

end RtsKernel
