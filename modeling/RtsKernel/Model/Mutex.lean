import RtsKernel.Model.Blocking

/-!
# Mutexes

`mutex.c`: ownership lists, the deadlock test, lock, unlock with direct handoff, and the
timeout of a waiter.
-/

namespace RtsKernel

open Halting Prog

/-- `rts_mutex_is_valid`. -/
def MutexIsValid (cfg : Config) (k : Kernel) (m : Nat) : Prop :=
  (k.mutexes m).initialized = true ∧ WaitObjectValidate cfg k (.mutex m) ∧
  match (k.mutexes m).owner with
  | none => (k.mutexes m).ownedPrevious = none ∧ (k.mutexes m).ownedNext = none ∧
      (k.mutexes m).waiters = []
  | some owner => (k.tasks owner).ownedMutexHead = some m ∨ (k.mutexes m).ownedPrevious ≠ none

instance (cfg : Config) (k : Kernel) (m : Nat) : Decidable (MutexIsValid cfg k m) := by
  unfold MutexIsValid
  split <;> infer_instance

/-- `rts_mutex_init`. -/
def mutexInit (cfg : Config) (isr : Bool) (mutex : Option Nat) : KernelM Status :=
  match mutex with
  | none => pure .invalidArgument
  | some m =>
    if isr = true then pure .invalidContext
    else do
      let k ← get
      if MutexIsValid cfg k m then pure .alreadyInitialized
      else do
        modify fun k => k.updateMutex m fun _ => { initialized := true }
        let k ← get
        fatalUnless .mutexInit (MutexIsValid cfg k m)
        pure .ok

/-- `rts_mutex_owner_link`. -/
def mutexOwnerLink (cfg : Config) (m : Nat) (owner : TaskId) : KernelM Unit := do
  let k ← get
  fatalUnless .mutexOwnerLink ((k.mutexes m).owner = none)
  fatalUnless .mutexOwnerLink
    ((k.mutexes m).ownedPrevious = none ∧ (k.mutexes m).ownedNext = none)
  fatalUnless .mutexOwnerLink ((k.tasks owner).ownedMutexCount < cfg.maxMutexesPerTask)
  modify fun k => k.updateMutex m fun x =>
    { x with
      owner := some owner
      ownedPrevious := (k.tasks owner).ownedMutexTail
      ownedNext := none }
  match (k.tasks owner).ownedMutexTail with
  | none => modify fun k => k.updateTask owner fun task => { task with ownedMutexHead := some m }
  | some tail => modify fun k => k.updateMutex tail fun x => { x with ownedNext := some m }
  modify fun k => k.updateTask owner fun task =>
    { task with ownedMutexTail := some m, ownedMutexCount := task.ownedMutexCount + 1 }

/-- `rts_mutex_owner_unlink`. -/
def mutexOwnerUnlink (m : Nat) : KernelM Unit := do
  let k ← get
  match (k.mutexes m).owner with
  | none => fatalUnless .mutexOwnerUnlink False
  | some owner => do
    match (k.mutexes m).ownedPrevious with
    | none => do
      fatalUnless .mutexOwnerUnlink ((k.tasks owner).ownedMutexHead = some m)
      modify fun k => k.updateTask owner fun task =>
        { task with ownedMutexHead := (k.mutexes m).ownedNext }
    | some previous =>
      modify fun k => k.updateMutex previous fun x =>
        { x with ownedNext := (k.mutexes m).ownedNext }
    match (k.mutexes m).ownedNext with
    | none => do
      fatalUnless .mutexOwnerUnlink ((k.tasks owner).ownedMutexTail = some m)
      modify fun k => k.updateTask owner fun task =>
        { task with ownedMutexTail := (k.mutexes m).ownedPrevious }
    | some next =>
      modify fun k => k.updateMutex next fun x =>
        { x with ownedPrevious := (k.mutexes m).ownedPrevious }
    modify fun k => k.updateMutex m fun x =>
      { x with owner := none, ownedPrevious := none, ownedNext := none }
    fatalUnless .mutexOwnerUnlink (0 < (k.tasks owner).ownedMutexCount)
    modify fun k => k.updateTask owner fun task =>
      { task with ownedMutexCount := task.ownedMutexCount - 1 }

/-- The walk of `rts_mutex_would_cycle` from an owner. -/
def wouldCycleFrom (current : TaskId) : Nat → Option TaskId → KernelM Bool
  | _, none => pure false
  | 0, some _ => do
    fatalUnless .mutexWouldCycle False
    pure true
  | n + 1, some t => do
    let k ← get
    if t = current then pure true
    else if (k.tasks t).state ≠ .blocked ∨ (k.tasks t).wait.reason ≠ .mutex then pure false
    else wouldCycleFrom current n (mutexOwnerAwaited k t)

/-- `rts_mutex_current_can_block`. -/
abbrev MutexCurrentCanBlock (cfg : Config) (k : Kernel) (c : TaskId) : Prop :=
  CurrentCanBlock cfg k c

/-- `rts_mutex_would_cycle`. -/
def mutexWouldCycle (cfg : Config) (current : TaskId) (m : Nat) : KernelM Bool := do
  let k ← get
  wouldCycleFrom current cfg.schedulableTaskCapacity (k.mutexes m).owner

/-- `rts_mutex_plan_final`. -/
def mutexPlanFinal (cfg : Config) : KernelM Bool := planAfterWake cfg

/-- `rts_mutex_wait_result_consume`. -/
def mutexWaitResultConsume (t : TaskId) : KernelM Status := waitResultConsume t

/-- The blocking part of `rts_mutex_lock`. -/
def mutexBlock (cfg : Config) (m : Nat) (timeout : Tick) (current : TaskId) : KernelM Status := do
  let k ← get
  suspendCurrent cfg .mutexLock current (objectWait .mutex (.mutex m) k.currentTick timeout)
  modify fun k => k.count fun c =>
    { c with mutexBlocks := diagnosticCounterIncrement c.mutexBlocks }
  enqueueWaiter cfg (.mutex m) current timeout
  recomputeChainOrFatal cfg (k.mutexes m).owner
  let k ← get
  fatalUnless .mutexLock (TaskIsBlockedWait cfg k current)
  let notify ← planAfterBlock cfg current
  notifyPort notify
  let k ← get
  if (k.tasks current).wait.result ≠ .none then mutexWaitResultConsume current
  else pure .ok

/-- `rts_mutex_lock` by the given current task, once the arguments and context are checked. -/
def mutexLockAs (cfg : Config) (m : Nat) (timeout : Tick) (current : TaskId) : KernelM Status := do
  let k ← get
  match (k.mutexes m).owner with
  | none => do
    fatalUnless .mutexLock ((k.mutexes m).waiters = [])
    if cfg.maxMutexesPerTask ≤ (k.tasks current).ownedMutexCount then pure .capacityExhausted
    else do
      mutexOwnerLink cfg m current
      pure .ok
  | some owner =>
    if owner = current then pure .invalidState
    else if timeout = 0 then pure .timeout
    else if TaskIsTimerService k current then pure .invalidContext
    else if cfg.maxMutexesPerTask ≤ (k.tasks current).ownedMutexCount then pure .capacityExhausted
    else do
      let cycle ← mutexWouldCycle cfg current m
      if cycle = true then do
        rtsAssert cfg .mutexDeadlock False
        pure .invalidState
      else if ¬ MutexCurrentCanBlock cfg k current then pure .invalidState
      else mutexBlock cfg m timeout current

/-- `rts_mutex_lock`. -/
def mutexLock (cfg : Config) (isr : Bool) (mutex : Option Nat) (timeout : Tick) :
    KernelM Status :=
  match mutex with
  | none => pure .invalidArgument
  | some m =>
    if delayMax < timeout ∧ timeout ≠ waitForever then pure .invalidArgument
    else if isr = true then pure .invalidContext
    else do
      let k ← get
      if k.lifecycle ≠ .running then pure .invalidState
      else if ¬ MutexIsValid cfg k m then pure .invalidArgument
      else
        match k.currentTask with
        | none => halt (.assertion .nullCurrent)
        | some current => mutexLockAs cfg m timeout current

/-- `rts_mutex_handoff`. -/
def mutexHandoff (cfg : Config) (m : Nat) : KernelM Unit := do
  let k ← get
  match (k.mutexes m).waiters with
  | [] => fatalUnless .mutexHandoff False
  | waiter :: _ => do
    waitObjectRemove cfg (.mutex m) waiter
    if (k.tasks waiter).wait.timeoutActive = true then delayRemove cfg waiter
    mutexOwnerUnlink m
    mutexOwnerLink cfg m waiter
    releaseTask cfg .mutexHandoff waiter .acquired
    modify fun k => k.count fun c =>
      { c with mutexHandoffs := diagnosticCounterIncrement c.mutexHandoffs }

/-- `rts_mutex_unlock` by the owner, once the arguments and context are checked. -/
def mutexUnlockAs (cfg : Config) (m : Nat) (former : TaskId) : KernelM Status := do
  let k ← get
  if (k.mutexes m).waiters = [] then mutexOwnerUnlink m
  else mutexHandoff cfg m
  recomputeChainOrFatal cfg (some former)
  let k ← get
  recomputeChainOrFatal cfg (k.mutexes m).owner
  let notify ← mutexPlanFinal cfg
  notifyPort notify
  pure .ok

/-- `rts_mutex_unlock`. -/
def mutexUnlock (cfg : Config) (isr : Bool) (mutex : Option Nat) : KernelM Status :=
  match mutex with
  | none => pure .invalidArgument
  | some m =>
    if isr = true then pure .invalidContext
    else do
      let k ← get
      if k.lifecycle ≠ .running then pure .invalidState
      else if ¬ MutexIsValid cfg k m then pure .invalidArgument
      else
        match k.currentTask with
        | none => halt (.assertion .nullCurrent)
        | some current =>
          if (k.mutexes m).owner ≠ some current then pure .invalidState
          else mutexUnlockAs cfg m current

/-- `rts_mutex_timeout_task`. -/
def mutexTimeoutTask (cfg : Config) (t : TaskId) : KernelM Bool := do
  let k ← get
  if (k.tasks t).wait.reason ≠ .mutex ∨ (k.tasks t).wait.timeoutActive = false ∨
      ¬ TaskIsBlockedWait cfg k t then pure false
  else
    match (k.tasks t).wait.object with
    | some (.mutex m) => do
      waitObjectRemove cfg (.mutex m) t
      delayRemove cfg t
      releaseTask cfg .mutexTimeout t .timeout
      modify fun k => k.count fun c =>
        { c with mutexTimeouts := diagnosticCounterIncrement c.mutexTimeouts }
      recomputeChainOrFatal cfg (k.mutexes m).owner
      pure true
    | _ => pure false

end RtsKernel
