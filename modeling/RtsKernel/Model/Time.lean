import RtsKernel.Model.Mutex
import RtsKernel.Model.Semaphore
import RtsKernel.Model.Timer

/-!
# Time advance and tickless idle

`time.c` and `power.c`. Tick entry and tickless skip share one advance: due delays and
timeouts first, then timers, then the time slice, then one selection.
-/

namespace RtsKernel

open Halting Prog

/-- `rts_tick_expired_task_is_valid`. -/
def TickExpiredTaskIsValid (cfg : Config) (k : Kernel) (t : TaskId) : Prop :=
  k.idleTask ≠ some t ∧
  (TaskIsBlockedDelay cfg k t ∨
    TaskIsBlockedWait cfg k t ∧ (k.tasks t).wait.timeoutActive = true)

instance (cfg : Config) (k : Kernel) (t : TaskId) : Decidable (TickExpiredTaskIsValid cfg k t) := by
  delta TickExpiredTaskIsValid
  infer_instance

/-- The end of `rts_tick_wake_task` for a plain delay. -/
def delayExpireTask (cfg : Config) (t : TaskId) : KernelM Bool := do
  delayRemove cfg t
  let k ← get
  fatalUnless .tickWakeTask (t ∉ k.delayQueue)
  releaseTask cfg .tickWakeTask t .none
  modify fun k => k.count fun c =>
    { c with delayWakeups := diagnosticCounterIncrement c.delayWakeups }
  let k ← get
  fatalUnless .tickWakeTask (TaskIsRunnable cfg k t)
  pure true

/-- `rts_tick_wake_task`. -/
def tickWakeTask (cfg : Config) (t : TaskId) : KernelM Bool := do
  let k ← get
  fatalUnless .tickWakeTask (TickExpiredTaskIsValid cfg k t)
  if (k.tasks t).wait.reason = .semaphore then semaphoreTimeoutTask cfg t
  else if (k.tasks t).wait.reason = .mutex then mutexTimeoutTask cfg t
  else delayExpireTask cfg t

/-- The delay loop of `rts_kernel_time_advance_common`, at most `fuel` rounds: the tasks it woke,
in order, or `none` when a wake failed and the caller returns. A round takes one task off the
delay queue, so as many rounds as it has members are enough (`wp_delayLoop`). -/
def delayLoop (cfg : Config) : Nat → KernelM (Option (List TaskId))
  | 0 => do
    let k ← get
    match delayPeekExpired k k.currentTick with
    | none => pure (some [])
    | some _ => pure none
  | fuel + 1 => do
    let k ← get
    match delayPeekExpired k k.currentTick with
    | none => pure (some [])
    | some t => do
      let woke ← tickWakeTask cfg t
      if woke = false then pure none
      else do
        let rest ← delayLoop cfg fuel
        pure (rest.map (t :: ·))

/-- The selection at the end of `rts_kernel_time_advance_common`. -/
def planAfterTick (cfg : Config) : KernelM Bool := do
  let k ← get
  match k.currentTask with
  | none => do
    fatalUnless .nullCurrent False
    pure false
  | some current => do
    let selected ← schedulerSelectHighestReady cfg
    match selected with
    | none => do
      fatalUnless .selectNone False
      pure false
    | some selected =>
      if selected = current then do
        let _ ← schedulerPrepareSwitch cfg (some current)
        pure false
      else if (k.tasks current).state = .blocked then do
        fatalUnless .tickOutgoing
          (TaskIsBlockedDelay cfg k current ∨ TaskIsBlockedWait cfg k current)
        schedulerPrepareSwitch cfg (some selected)
      else do
        fatalUnless .tickOutgoing ((k.tasks current).state = .running)
        fatalUnless .tickOutgoing (CurrentIsValid cfg k)
        schedulerPrepareSwitch cfg (some selected)

/-- `rts_kernel_time_advance_common`; `current_woke` is that the current task is among the woken. -/
def kernelTimeAdvanceCommon (cfg : Config) (elapsed : Tick) : KernelM Bool := do
  modify fun k => ({ k with currentTick := k.currentTick + elapsed }).count fun c =>
    { c with schedulerTicks := diagnosticCounterAdd c.schedulerTicks elapsed }
  let k ← get
  let woken ← delayLoop cfg k.delayQueue.length
  match woken with
  | none => pure false
  | some woken => do
    let k ← get
    let serviceWoken ← timerManagerProcessExpired cfg k.currentTick
    let sliceRotated ←
      if (∃ c ∈ k.currentTask, c ∈ woken) then pure false else policyTick cfg elapsed
    if woken = [] ∧ serviceWoken = false ∧ sliceRotated = false then pure false
    else planAfterTick cfg

/-- The elapsed values a time entry admits, in the given context. -/
def AdvanceIsValid (k : Kernel) (contextOk : Bool) (elapsed : Tick) : Prop :=
  k.lifecycle = .running ∧ contextOk = true ∧ elapsed ≠ 0 ∧ elapsed ≤ delayMax

instance (k : Kernel) (contextOk : Bool) (elapsed : Tick) :
    Decidable (AdvanceIsValid k contextOk elapsed) :=
  inferInstanceAs (Decidable (_ ∧ _ ∧ _ ∧ _))

/-- `rts_kernel_tick_advance` and `rts_kernel_time_skip` differ in the context they require. -/
def kernelAdvance (cfg : Config) (contextOk : Bool) (elapsed : Tick) : KernelM Bool := do
  let k ← get
  rtsAssert cfg .tickValid (AdvanceIsValid k contextOk elapsed)
  if AdvanceIsValid k contextOk elapsed then kernelTimeAdvanceCommon cfg elapsed
  else pure false

/-- `rts_kernel_tick_advance`. -/
def kernelTickAdvance (cfg : Config) (isr : Bool) (elapsed : Tick) : KernelM Bool :=
  kernelAdvance cfg isr elapsed

/-- `rts_kernel_time_skip`. -/
def kernelTimeSkip (cfg : Config) (isr : Bool) (elapsed : Tick) : KernelM Bool :=
  kernelAdvance cfg (!isr) elapsed

/-! ## Tickless idle -/

/-- `rts_power_sleep_is_allowed`. -/
def PowerSleepIsAllowed (cfg : Config) (k : Kernel) (isr : Bool) : Prop :=
  cfg.enableTicklessIdle = true ∧ k.lifecycle = .running ∧ isr = false ∧
  k.currentTask ≠ none ∧ k.currentTask = k.idleTask ∧
  (∃ t ∈ k.idleTask, (k.tasks t).state = .running) ∧
  k.switchPlan.pending = false ∧ k.switchPlan.active = false ∧
  policyPickNext cfg k = k.idleTask

instance (cfg : Config) (k : Kernel) (isr : Bool) : Decidable (PowerSleepIsAllowed cfg k isr) := by
  delta PowerSleepIsAllowed
  infer_instance

/-- `rts_power_consider_deadline`, on the sleep ticks planned so far; its assertion is
`powerAssertDeadline`. -/
def powerConsiderDeadline (now candidate sleepTicks : Tick) : Tick :=
  if tickReached now candidate then 0
  else if candidate - now ≤ delayMax ∧ candidate - now < sleepTicks then candidate - now
  else sleepTicks

/-- The assertion of `rts_power_consider_deadline` about a candidate that is not reached. -/
def powerAssertDeadline (cfg : Config) (now : Tick) (candidate : Option Tick) : KernelM Unit :=
  rtsAssert cfg .power
    (∀ deadline ∈ candidate, tickReached now deadline ∨ deadline - now ≤ delayMax)

/-- `rts_power_plan_compute`: the planned sleep ticks. -/
def powerPlanCompute (cfg : Config) (k : Kernel) (isr : Bool) : Option Tick :=
  if PowerSleepIsAllowed cfg k isr then
    let afterDelay :=
      match delayNextDeadline k with
      | none => cfg.ticklessMaxSleepTicks
      | some deadline => powerConsiderDeadline k.currentTick deadline cfg.ticklessMaxSleepTicks
    let afterTimer :=
      match timerQueueNextDeadline k with
      | none => afterDelay
      | some deadline => powerConsiderDeadline k.currentTick deadline afterDelay
    if afterTimer ≠ 0 then some afterTimer else none
  else none

/-- What the port reports of a sleep. -/
structure SleepResult where
  ok : Bool
  elapsedTicks : Tick
  timerWake : Bool
  sourceIsValid : Bool
  deriving DecidableEq, Repr

/-- `rts_power_record_wake`. -/
def powerRecordWake (result : SleepResult) (c : RuntimeCounters) : RuntimeCounters :=
  { c with
    ticklessSuppressedTicks := diagnosticCounterAdd c.ticklessSuppressedTicks result.elapsedTicks
    ticklessLongestSleep :=
      if c.ticklessLongestSleep < result.elapsedTicks then result.elapsedTicks
      else c.ticklessLongestSleep
    ticklessTimerWakes :=
      if result.timerWake = true then diagnosticCounterIncrement c.ticklessTimerWakes
      else c.ticklessTimerWakes
    ticklessExternalWakes :=
      if result.timerWake = true then c.ticklessExternalWakes
      else diagnosticCounterIncrement c.ticklessExternalWakes }

/-- `rts_power_idle`, with the port's report of the sleep as an input. -/
def powerIdle (cfg : Config) (isr : Bool) (result : SleepResult) : KernelM Unit := do
  let k ← get
  if ¬ PowerSleepIsAllowed cfg k isr then pure ()
  else do
    modify fun k => k.count fun c =>
      { c with ticklessSleepAttempts := diagnosticCounterIncrement c.ticklessSleepAttempts }
    powerAssertDeadline cfg k.currentTick (delayNextDeadline k)
    powerAssertDeadline cfg k.currentTick (timerQueueNextDeadline k)
    match powerPlanCompute cfg k isr with
    | none => pure ()
    | some sleepTicks => do
      let valid :=
        result.ok = true ∧ result.elapsedTicks ≤ sleepTicks ∧ result.sourceIsValid = true
      rtsAssert cfg .power (result.ok = true → valid)
      if ¬ valid then
        modify fun k => k.count fun c =>
          { c with ticklessSleepAborts := diagnosticCounterIncrement c.ticklessSleepAborts }
      else do
        modify fun k => k.count fun c =>
          { c with ticklessSleepEntries := diagnosticCounterIncrement c.ticklessSleepEntries }
        let requestSwitch ←
          if result.elapsedTicks ≠ 0 then kernelTimeSkip cfg isr result.elapsedTicks
          else pure false
        modify fun k => k.count (powerRecordWake result)
        notifyPort requestSwitch

end RtsKernel
