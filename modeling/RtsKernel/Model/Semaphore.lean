import RtsKernel.Model.Blocking

/-!
# Counting semaphores

`semaphore.c`: take, give from tasks and interrupts, and the timeout of a waiter.
-/

namespace RtsKernel

open Halting Prog

/-- `rts_semaphore_is_valid`. -/
def SemaphoreIsValid (cfg : Config) (k : Kernel) (i : Nat) : Prop :=
  (k.semaphores i).initialized = true ∧ 0 < (k.semaphores i).maximumCount ∧
  (k.semaphores i).count ≤ (k.semaphores i).maximumCount ∧
  WaitObjectValidate cfg k (.semaphore i)

instance (cfg : Config) (k : Kernel) (i : Nat) : Decidable (SemaphoreIsValid cfg k i) :=
  inferInstanceAs (Decidable (_ ∧ _ ∧ _ ∧ _))

/-- `rts_semaphore_init`. -/
def semaphoreInit (cfg : Config) (isr : Bool) (semaphore : Option Nat)
    (initialCount maximumCount : Nat) : KernelM Status :=
  match semaphore with
  | none => pure .invalidArgument
  | some i =>
    if maximumCount = 0 ∨ maximumCount < initialCount then pure .invalidArgument
    else if isr = true then pure .invalidContext
    else do
      let k ← get
      if SemaphoreIsValid cfg k i then pure .alreadyInitialized
      else do
        modify fun k => k.updateSemaphore i fun _ =>
          { count := initialCount, maximumCount := maximumCount, initialized := true }
        let k ← get
        fatalUnless .semaphoreInit (SemaphoreIsValid cfg k i)
        pure .ok

/-- `rts_semaphore_current_can_block`. -/
abbrev SemaphoreCurrentCanBlock (cfg : Config) (k : Kernel) (c : TaskId) : Prop :=
  CurrentCanBlock cfg k c

/-- `rts_semaphore_make_ready`. -/
def semaphoreMakeReady (cfg : Config) (t : TaskId) (result : WaitResult) : KernelM Unit := do
  let k ← get
  fatalUnless .semaphoreMakeReady ((k.tasks t).state = .blocked)
  fatalUnless .semaphoreMakeReady ((k.tasks t).wait.reason = .semaphore)
  match (k.tasks t).wait.object with
  | some (.semaphore i) => do
    fatalUnless .semaphoreMakeReady ((k.tasks t).waitOwner = some (.semaphore i))
    waitObjectRemove cfg (.semaphore i) t
    if (k.tasks t).wait.timeoutActive = true then do
      fatalUnless .semaphoreMakeReady (t ∈ k.delayQueue)
      delayRemove cfg t
    releaseTask cfg .semaphoreMakeReady t result
    modify fun k => k.count fun c =>
      if result = .acquired then
        { c with semaphoreAcquisitions := diagnosticCounterIncrement c.semaphoreAcquisitions }
      else { c with semaphoreTimeouts := diagnosticCounterIncrement c.semaphoreTimeouts }
    let k ← get
    fatalUnless .semaphoreMakeReady (TaskIsRunnable cfg k t)
  | _ => fatalUnless .semaphoreMakeReady False

/-- `rts_semaphore_wake_one`. -/
def semaphoreWakeOne (cfg : Config) (i : Nat) : KernelM Bool := do
  let k ← get
  match (k.semaphores i).waiters with
  | [] => pure false
  | t :: _ => do
    semaphoreMakeReady cfg t .acquired
    pure true

/-- `rts_semaphore_plan_after_wake`. -/
def semaphorePlanAfterWake (cfg : Config) : KernelM Bool := planAfterWake cfg

/-- `rts_semaphore_wait_result_consume`. -/
def semaphoreWaitResultConsume (t : TaskId) : KernelM Status := waitResultConsume t

/-- The blocking part of `rts_semaphore_take`. -/
def semaphoreBlock (cfg : Config) (i : Nat) (timeout : Tick) (current : TaskId) :
    KernelM Status := do
  let k ← get
  suspendCurrent cfg .semaphoreTake current
    (objectWait .semaphore (.semaphore i) k.currentTick timeout)
  modify fun k => k.count fun c =>
    { c with semaphoreBlocks := diagnosticCounterIncrement c.semaphoreBlocks }
  enqueueWaiter cfg (.semaphore i) current timeout
  let k ← get
  fatalUnless .semaphoreTake (TaskIsBlockedWait cfg k current)
  let notify ← planAfterBlock cfg current
  notifyPort notify
  let k ← get
  if (k.tasks current).wait.result ≠ .none then semaphoreWaitResultConsume current
  else pure .ok

/-- `rts_semaphore_take`. -/
def semaphoreTake (cfg : Config) (isr : Bool) (semaphore : Option Nat) (timeout : Tick) :
    KernelM Status :=
  match semaphore with
  | none => pure .invalidArgument
  | some i =>
    if delayMax < timeout ∧ timeout ≠ waitForever then pure .invalidArgument
    else if isr = true then pure .invalidContext
    else do
      let k ← get
      if k.lifecycle ≠ .running then pure .invalidState
      else if ¬ SemaphoreIsValid cfg k i then pure .invalidArgument
      else if 0 < (k.semaphores i).count then do
        modify fun k =>
          (k.updateSemaphore i fun s => { s with count := s.count - 1 }).count fun c =>
            { c with semaphoreAcquisitions := diagnosticCounterIncrement c.semaphoreAcquisitions }
        pure .ok
      else if timeout = 0 then pure .timeout
      else
        match k.currentTask with
        | none => pure .invalidState
        | some current =>
          if TaskIsTimerService k current then pure .invalidContext
          else if ¬ SemaphoreCurrentCanBlock cfg k current then pure .invalidState
          else semaphoreBlock cfg i timeout current

/-- `rts_semaphore_give_common`: the status, and whether a switch was newly planned. -/
def semaphoreGiveCommon (cfg : Config) (i : Nat) : KernelM (Status × Bool) := do
  let k ← get
  if k.lifecycle ≠ .running then pure (.invalidState, false)
  else if ¬ SemaphoreIsValid cfg k i then pure (.invalidArgument, false)
  else do
    let woke ← semaphoreWakeOne cfg i
    if woke = false then
      if (k.semaphores i).count = (k.semaphores i).maximumCount then pure (.full, false)
      else do
        modify fun k => k.updateSemaphore i fun s => { s with count := s.count + 1 }
        pure (.ok, false)
    else do
      let notify ← semaphorePlanAfterWake cfg
      pure (.ok, notify)

/-- `rts_semaphore_give`. -/
def semaphoreGive (cfg : Config) (isr : Bool) (semaphore : Option Nat) : KernelM Status :=
  match semaphore with
  | none => pure .invalidArgument
  | some i =>
    if isr = true then pure .invalidContext
    else do
      let (status, notify) ← semaphoreGiveCommon cfg i
      notifyPort (decide (status = .ok) && notify)
      pure status

/-- `rts_semaphore_give_from_isr`: the status and `higher_priority_task_woken`. -/
def semaphoreGiveFromIsr (cfg : Config) (isr : Bool) (semaphore : Option Nat) :
    KernelM (Status × Bool) :=
  match semaphore with
  | none => pure (.invalidArgument, false)
  | some i =>
    if isr = false then pure (.invalidContext, false)
    else do
      let (status, notify) ← semaphoreGiveCommon cfg i
      pure (status, decide (status = .ok) && notify)

/-- `rts_semaphore_timeout_task`. -/
def semaphoreTimeoutTask (cfg : Config) (t : TaskId) : KernelM Bool := do
  let k ← get
  if ¬ TaskIsBlockedWait cfg k t ∨ (k.tasks t).wait.timeoutActive = false then pure false
  else do
    semaphoreMakeReady cfg t .timeout
    pure true

end RtsKernel
