import RtsKernel.Model.SwitchPlan

/-!
# Software timers and the timer service

`timer.c` and `timer_service.c`. The body of `rts_timer_service_process_one` is split at the
callback, which runs with interrupts enabled: `timerServiceBegin` ends where the callback
starts, `timerServiceEnd` begins where it has returned.
-/

namespace RtsKernel

open Halting Prog

/-- `rts_timer_config_t`; `callback` is zero for a null pointer. -/
structure TimerConfig where
  callback : Nat
  period : Tick
  mode : TimerMode

/-- `rts_timer_config_is_valid`. -/
def TimerConfig.IsValid (config : TimerConfig) : Prop :=
  config.callback ≠ 0 ∧ config.period ≠ 0 ∧ config.period ≤ delayMax

instance (config : TimerConfig) : Decidable config.IsValid :=
  inferInstanceAs (Decidable (_ ∧ _ ∧ _))

/-- The slots in the order a pool with the given hint examines them. -/
def slotOrder (capacity hint : Nat) : List Nat :=
  (List.range capacity).map fun examined =>
    if capacity ≤ hint + examined then hint + examined - capacity else hint + examined

/-- The hint after slot `index` was taken. -/
def nextHint (capacity index : Nat) : Nat := if index + 1 = capacity then 0 else index + 1

/-- `rts_timer_reserve`. -/
def timerReserve (cfg : Config) : KernelM (Option Nat) := do
  let k ← get
  if cfg.maxTimers ≤ k.timerNextFreeHint then halt .timerCorruption
  else
    match (slotOrder cfg.maxTimers k.timerNextFreeHint).find? fun i =>
        (k.timers i).slotState = .free with
    | none => pure none
    | some i => do
      modify fun k => ({ k with timerNextFreeHint := nextHint cfg.maxTimers i }).updateTimer
        i fun timer => { timer with slotState := .reserved }
      pure (some i)

/-- `rts_timer_resolve`. -/
def TimerResolves (cfg : Config) (k : Kernel) (i : Nat) : Prop :=
  i < cfg.maxTimers ∧ (k.timers i).slotState = .allocated

instance (cfg : Config) (k : Kernel) (i : Nat) : Decidable (TimerResolves cfg k i) :=
  inferInstanceAs (Decidable (_ ∧ _))

/-- The check of `rts_timer_manager_validate` on a queued work item. -/
def WorkIsValid (cfg : Config) (k : Kernel) (work : CallbackWork) : Prop :=
  TimerResolves cfg k work.timer ∧ (k.timers work.timer).callbackState = .pending ∧
  work.generation = (k.timers work.timer).generation ∧
  timerCallbackQueueCountFor k work.timer = 1

instance (cfg : Config) (k : Kernel) (work : CallbackWork) : Decidable (WorkIsValid cfg k work) :=
  inferInstanceAs (Decidable (_ ∧ _ ∧ _ ∧ _))

/-- The check of `rts_timer_manager_validate` on a timer slot. -/
def TimerSlotIsValid (cfg : Config) (k : Kernel) (i : Nat) : Prop :=
  match (k.timers i).slotState with
  | .free => (k.timers i).state = .uninitialized ∧ i ∉ k.activeQueue ∧
      timerCallbackQueueCountFor k i = 0
  | .reserved => i ∉ k.activeQueue ∧ timerCallbackQueueCountFor k i = 0
  | .allocated =>
    (k.timers i).slotIndex = i ∧ (k.timers i).callback ≠ 0 ∧ (k.timers i).period ≠ 0 ∧
    (k.timers i).period ≤ delayMax ∧ (k.timers i).state ≠ .uninitialized ∧
    (i ∈ k.activeQueue ↔ (k.timers i).state = .active) ∧
    timerCallbackQueueCountFor k i =
      (if (k.timers i).callbackState = .pending then 1 else 0) ∧
    (cfg.enableAssertions = true → (k.timers i).validationMagic = timerValidationMagic)

instance (cfg : Config) (k : Kernel) (i : Nat) : Decidable (TimerSlotIsValid cfg k i) := by
  unfold TimerSlotIsValid
  split <;> infer_instance

/-- `rts_timer_manager_validate`. -/
def TimerManagerValidate (cfg : Config) (k : Kernel) : Prop :=
  cfg.enableInvariantChecks = true →
    k.timerNextFreeHint < cfg.maxTimers ∧ k.timerAllocatedCount ≤ cfg.maxTimers ∧
    TimerQueueValidate cfg k ∧ TimerCallbackQueueValidate cfg k ∧
    (∀ work ∈ k.callbackQueue, WorkIsValid cfg k work) ∧
    (∀ i < cfg.maxTimers, TimerSlotIsValid cfg k i) ∧
    (List.range cfg.maxTimers).countP (fun i => (k.timers i).slotState = .allocated) =
      k.timerAllocatedCount

instance (cfg : Config) (k : Kernel) : Decidable (TimerManagerValidate cfg k) := by
  delta TimerManagerValidate
  infer_instance

/-- `rts_timer_init`: the status and the handle. -/
def timerInit (cfg : Config) (isr : Bool) (config : Option TimerConfig) :
    KernelM (Status × Option Nat) :=
  match config with
  | none => pure (.invalidArgument, none)
  | some config =>
    if ¬ config.IsValid then pure (.invalidArgument, none)
    else if isr = true then pure (.invalidContext, none)
    else do
      let k ← get
      if k.lifecycle ≠ .initialized then pure (.invalidState, none)
      else do
        let reserved ← timerReserve cfg
        match reserved with
        | none => pure (.capacityExhausted, none)
        | some i => do
          modify fun k => k.updateTimer i fun timer =>
            { timer with
              period := config.period
              callback := config.callback
              mode := config.mode
              state := .stopped
              callbackState := .idle
              generation := 1
              validationMagic :=
                if cfg.enableAssertions = true then timerValidationMagic
                else timer.validationMagic }
          if cfg.maxTimers ≤ k.timerAllocatedCount then halt .timerCorruption
          else do
            modify fun k =>
              (({ k with timerAllocatedCount := k.timerAllocatedCount + 1 }).updateTimer
                i fun timer => { timer with slotState := .allocated }).count fun c =>
                { c with
                  timerInitializations := diagnosticCounterIncrement c.timerInitializations }
            let k ← get
            fatalUnless .timerManager (TimerManagerValidate cfg k)
            pure (.ok, some i)

/-- The diagnostics of work items dropped from the callback queue. -/
def countStale (i removed : Nat) (k : Kernel) : Kernel :=
  (k.updateTimer i fun timer =>
    { timer with
      diagnosticStaleCount :=
        diagnosticCounterAdd timer.diagnosticStaleCount (BitVec.ofNat 32 removed) }).count fun c =>
    { c with
      timerStaleCallbacks := diagnosticCounterAdd c.timerStaleCallbacks (BitVec.ofNat 32 removed) }

/-- `rts_timer_invalidate_pending`. -/
def timerInvalidatePending (cfg : Config) (i : Nat) : KernelM Unit := do
  let removed ← timerCallbackQueueRemoveTimer i
  let k ← get
  if (k.timers i).callbackState = .pending then do
    fatalUnless .timerInvalidate (removed = 1)
    modify fun k => k.updateTimer i fun timer => { timer with callbackState := .idle }
  else fatalUnless .timerInvalidate (removed = 0)
  if k.callbackQueue.length = 0 then schedulerTimerServiceCancelWake cfg
  modify (countStale i removed)

/-- The end of `rts_timer_arm`: the new deadline is queued. -/
def timerArmAt (cfg : Config) (i : Nat) (restart : Bool) : KernelM Status := do
  modify fun k => k.updateTimer i fun timer =>
    { timer with
      expirationTick := k.currentTick + timer.period
      state := .active }
  timerQueueInsert cfg i
  if restart = true then
    modify fun k => (k.updateTimer i fun timer =>
      { timer with
        diagnosticRestartCount := diagnosticCounterIncrement timer.diagnosticRestartCount }).count
      fun c => { c with timerRestarts := diagnosticCounterIncrement c.timerRestarts }
  else
    modify fun k => (k.updateTimer i fun timer =>
      { timer with
        diagnosticStartCount := diagnosticCounterIncrement timer.diagnosticStartCount }).count
      fun c => { c with timerStarts := diagnosticCounterIncrement c.timerStarts }
  let k ← get
  fatalUnless .timerManager (TimerManagerValidate cfg k)
  pure .ok

/-- `rts_timer_lifecycle_allows_control`. -/
def TimerLifecycleAllowsControl (k : Kernel) : Prop :=
  k.lifecycle = .initialized ∨ k.lifecycle = .running

instance (k : Kernel) : Decidable (TimerLifecycleAllowsControl k) :=
  inferInstanceAs (Decidable (_ ∨ _))

/-- `rts_timer_arm`. -/
def timerArm (cfg : Config) (isr : Bool) (i : Nat) (restart : Bool) : KernelM Status :=
  if isr = true then pure .invalidContext
  else do
    let k ← get
    if ¬ TimerLifecycleAllowsControl k then pure .invalidState
    else if ¬ TimerResolves cfg k i then pure .invalidArgument
    else if restart = false then
      if (k.timers i).state ≠ .stopped ∨ (k.timers i).callbackState ≠ .idle then
        pure .invalidState
      else timerArmAt cfg i restart
    else do
      if (k.timers i).state = .active then timerQueueRemove cfg i
      modify fun k => k.updateTimer i fun timer => { timer with generation := timer.generation + 1 }
      timerInvalidatePending cfg i
      timerArmAt cfg i restart

/-- `rts_timer_start`. -/
def timerStart (cfg : Config) (isr : Bool) (i : Nat) : KernelM Status := timerArm cfg isr i false

/-- `rts_timer_restart`. -/
def timerRestart (cfg : Config) (isr : Bool) (i : Nat) : KernelM Status := timerArm cfg isr i true

/-- `rts_timer_stop`. -/
def timerStop (cfg : Config) (isr : Bool) (i : Nat) : KernelM Status :=
  if isr = true then pure .invalidContext
  else do
    let k ← get
    if ¬ TimerLifecycleAllowsControl k then pure .invalidState
    else if ¬ TimerResolves cfg k i then pure .invalidArgument
    else if (k.timers i).state ≠ .active ∧ (k.timers i).callbackState = .idle then
      pure .invalidState
    else do
      if (k.timers i).state = .active then timerQueueRemove cfg i
      modify fun k => k.updateTimer i fun timer =>
        { timer with state := .stopped, generation := timer.generation + 1 }
      timerInvalidatePending cfg i
      modify fun k => (k.updateTimer i fun timer =>
        { timer with
          diagnosticStopCount := diagnosticCounterIncrement timer.diagnosticStopCount }).count
        fun c => { c with timerStops := diagnosticCounterIncrement c.timerStops }
      let k ← get
      fatalUnless .timerManager (TimerManagerValidate cfg k)
      pure .ok

/-! ## Expiry -/

/-- The periods `rts_timer_periodic_next` skips. -/
def periodsSkipped (timer : Timer) (now : Tick) : Tick :=
  (now - timer.expirationTick) / timer.period

/-- `rts_timer_periodic_next`. -/
def timerPeriodicNext (timer : Timer) (now : Tick) : Tick :=
  timer.expirationTick + (periodsSkipped timer now + 1) * timer.period

/-- Take a due timer off the active queue; a periodic timer is queued again at its next
deadline, a one-shot timer stops. -/
def timerConsume (cfg : Config) (now : Tick) (i : Nat) : KernelM Unit := do
  let k ← get
  timerQueueRemove cfg i
  let missed := if (k.timers i).mode = .periodic then periodsSkipped (k.timers i) now else 0
  modify fun k => k.updateTimer i fun timer =>
    { timer with lastExpirationTick := timer.expirationTick }
  if (k.timers i).mode = .periodic then do
    modify fun k => k.updateTimer i fun timer =>
      { timer with expirationTick := timerPeriodicNext timer now, state := .active }
    timerQueueInsert cfg i
  else modify fun k => k.updateTimer i fun timer => { timer with state := .stopped }
  modify fun k => (k.updateTimer i fun timer =>
    { timer with
      diagnosticExpirationCount := diagnosticCounterIncrement timer.diagnosticExpirationCount
      diagnosticMissedPeriodCount :=
        diagnosticCounterAdd timer.diagnosticMissedPeriodCount missed }).count fun c =>
    { c with
      timerExpirations := diagnosticCounterIncrement c.timerExpirations
      timerMissedPeriods := diagnosticCounterAdd c.timerMissedPeriods missed }

/-- The work item `rts_timer_manager_process_expired` queues for an expiration. -/
def expirationWork (k : Kernel) (i : Nat) (consumedDeadline : Tick) : CallbackWork where
  timer := i
  expirationTick := consumedDeadline
  generation := (k.timers i).generation
  sequence := (k.timers i).expirationSequence

/-- Publish the callback work of an expired timer and wake the service, or count an overrun when
its previous callback is not finished. The result is `rts_scheduler_timer_service_wake`'s. -/
def timerPublish (cfg : Config) (i : Nat) (consumedDeadline : Tick) : KernelM Bool := do
  let k ← get
  if (k.timers i).callbackState ≠ .idle then do
    modify fun k => (k.updateTimer i fun timer =>
      { timer with
        diagnosticOverrunCount := diagnosticCounterIncrement timer.diagnosticOverrunCount
        diagnosticMissedPeriodCount :=
          diagnosticCounterIncrement timer.diagnosticMissedPeriodCount }).count fun c =>
      { c with
        timerOverruns := diagnosticCounterIncrement c.timerOverruns
        timerMissedPeriods := diagnosticCounterIncrement c.timerMissedPeriods }
    pure false
  else do
    modify fun k => k.updateTimer i fun timer =>
      { timer with expirationSequence := timer.expirationSequence + 1 }
    let k ← get
    let queued ← timerCallbackQueueEnqueue cfg (expirationWork k i consumedDeadline)
    if queued = false then do
      modify fun k => k.count fun c =>
        { c with
          timerCallbackQueueOverflows :=
            diagnosticCounterIncrement c.timerCallbackQueueOverflows }
      halt .timerCallbackQueueOverflow
    else do
      modify fun k => (k.updateTimer i fun timer =>
        { timer with callbackState := .pending }).count fun c =>
        { c with
          timerCallbackQueueMaximumDepth :=
            if c.timerCallbackQueueMaximumDepth <
                BitVec.ofNat 32 k.callbackQueueMaximumDepth then
              BitVec.ofNat 32 k.callbackQueueMaximumDepth
            else c.timerCallbackQueueMaximumDepth }
      schedulerTimerServiceWake cfg

/-- The loop of `rts_timer_manager_process_expired`, at most `fuel` rounds; `none` when more would
be needed. -/
def processExpiredLoop (cfg : Config) (now : Tick) : Nat → Bool → KernelM (Option Bool)
  | 0, serviceWoken => do
    let k ← get
    match timerQueuePeekExpired k now with
    | none => pure (some serviceWoken)
    | some _ => pure none
  | fuel + 1, serviceWoken => do
    let k ← get
    match timerQueuePeekExpired k now with
    | none => pure (some serviceWoken)
    | some i => do
      timerConsume cfg now i
      let woken ← timerPublish cfg i (k.timers i).expirationTick
      processExpiredLoop cfg now fuel (serviceWoken || woken)

/-- `rts_timer_manager_process_expired`. A round turns one due timer into one that is not due, so
as many rounds as there are active timers are enough (`wp_processExpiredLoop`). -/
def timerManagerProcessExpired (cfg : Config) (now : Tick) : KernelM Bool := do
  let k ← get
  let serviceWoken ← processExpiredLoop cfg now k.activeQueue.length false
  let k ← get
  fatalUnless .timerManager (TimerManagerValidate cfg k)
  pure (serviceWoken.getD false)

/-! ## Service -/

/-- The context check of `rts_timer_service_process_one`. -/
def ServiceContextIsValid (k : Kernel) : Prop :=
  k.lifecycle = .running ∧ k.currentTask = k.timerServiceTask ∧
  ∃ service ∈ k.timerServiceTask, (k.tasks service).state = .running

instance (k : Kernel) : Decidable (ServiceContextIsValid k) := by
  delta ServiceContextIsValid
  infer_instance

/-- `rts_timer_service_process_one` up to the callback. -/
def timerServiceBegin (cfg : Config) : KernelM Bool := do
  let k ← get
  rtsAssert cfg .timerCallback (ServiceContextIsValid k)
  if ¬ ServiceContextIsValid k then pure false
  else do
    let work ← timerCallbackQueueDequeue
    match work with
    | none => pure false
    | some work => do
      let k ← get
      if ¬ TimerResolves cfg k work.timer ∨ (k.timers work.timer).generation ≠ work.generation ∨
          (k.timers work.timer).callbackState ≠ .pending then do
        if TimerResolves cfg k work.timer ∧ (k.timers work.timer).callbackState = .pending then
          modify fun k => k.updateTimer work.timer fun timer =>
            { timer with
              callbackState := .idle
              diagnosticStaleCount := diagnosticCounterIncrement timer.diagnosticStaleCount }
        modify fun k => k.count fun c =>
          { c with timerStaleCallbacks := diagnosticCounterIncrement c.timerStaleCallbacks }
        pure true
      else do
        modify fun k => ({ k with serviceWork := some work }).updateTimer work.timer fun timer =>
          { timer with callbackState := .running }
        fatalUnless .timerCallback ((k.timers work.timer).callback ≠ 0)
        pure true

/-- `rts_timer_service_process_one` from the return of the callback on. -/
def timerServiceEnd (cfg : Config) (work : CallbackWork) : KernelM Unit := do
  let k ← get
  fatalUnless .timerCallback ((k.timers work.timer).callbackState = .running)
  modify fun k => (({ k with serviceWork := none }).updateTimer work.timer fun timer =>
    { timer with
      callbackState := .idle
      diagnosticCallbackCount :=
        diagnosticCounterIncrement timer.diagnosticCallbackCount }).count fun c =>
    { c with timerCallbacksExecuted := diagnosticCounterIncrement c.timerCallbacksExecuted }
  let k ← get
  fatalUnless .timerManager (TimerManagerValidate cfg k)

/-- The block point of `rts_timer_service_entry`. -/
def timerServiceRest (cfg : Config) : KernelM Unit := do
  let k ← get
  if k.callbackQueue.length ≠ 0 then pure ()
  else do
    let notify ← schedulerTimerServiceBlock cfg
    let k ← get
    fatalUnless .serviceBlock ((k.tasks .timerService).state = .blocked)
    if notify = true then portRequestReschedule else pure ()

end RtsKernel
