import RtsKernel.Model.Blocking

/-!
# Yield and delay

`task_yield.c` and `task_delay.c`.
-/

namespace RtsKernel

open Halting Prog

/-- `rts_yield_current_is_coherent`. -/
def YieldCurrentIsCoherent (cfg : Config) (k : Kernel) (c : TaskId) : Prop :=
  k.currentTask = some c ∧ (k.tasks c).state = .running ∧ CurrentIsValid cfg k ∧
  PolicyValidate cfg k c true ∧ policyPickNext cfg k = some c ∧ k.switchPlan.active = false

instance (cfg : Config) (k : Kernel) (c : TaskId) : Decidable (YieldCurrentIsCoherent cfg k c) := by
  delta YieldCurrentIsCoherent
  infer_instance

/-- `rts_task_yield` by a coherent current task. -/
def taskYieldAs (cfg : Config) (current : TaskId) : KernelM Status := do
  modify fun k => (k.updateTask current fun task =>
    { task with sliceRemaining := cfg.timeSliceTicks }).count fun c =>
      { c with yields := diagnosticCounterIncrement c.yields }
  let yielded ← policyYield cfg current
  if yielded = false then pure .ok
  else do
    let selected ← schedulerSelectHighestReady cfg
    let k ← get
    match selected with
    | none => do
      rtsAssert cfg .taskYield False
      pure .invalidState
    | some selected => do
      rtsAssert cfg .taskYield (selected ≠ current)
      rtsAssert cfg .taskYield ((k.tasks selected).state = .ready)
      if selected = current ∨ (k.tasks selected).state ≠ .ready then pure .invalidState
      else do
        let notify ← schedulerPrepareSwitch cfg (some selected)
        notifyPort notify
        pure .ok

/-- `rts_task_yield`. -/
def taskYield (cfg : Config) (isr : Bool) : KernelM Status :=
  if isr = true then pure .invalidContext
  else do
    let k ← get
    if k.lifecycle ≠ .running then pure .invalidState
    else
      match k.currentTask with
      | none => do
        rtsAssert cfg .taskYieldCoherent False
        pure .invalidState
      | some current => do
        rtsAssert cfg .taskYieldCoherent (YieldCurrentIsCoherent cfg k current)
        if ¬ YieldCurrentIsCoherent cfg k current then pure .invalidState
        else taskYieldAs cfg current

/-- `rts_delay_current_is_coherent`. -/
abbrev DelayCurrentIsCoherent (cfg : Config) (k : Kernel) (c : TaskId) : Prop :=
  CurrentCanBlock cfg k c

/-- The wait record of a delay that ends at the given tick. -/
def delayWait (wakeTick : Tick) : Wait := { reason := .delay, wakeTick := wakeTick }

/-- `rts_task_delay` by a coherent current task. -/
def taskDelayAs (cfg : Config) (delay : Tick) (current : TaskId) : KernelM Status := do
  let k ← get
  suspendCurrent cfg .taskDelay current (delayWait (k.currentTick + delay))
  let k ← get
  fatalUnless .taskDelay (PolicyValidate cfg k current false)
  modify fun k => k.count fun c =>
    { c with delayBlocks := diagnosticCounterIncrement c.delayBlocks }
  delayInsert cfg current
  let k ← get
  fatalUnless .taskDelay (TaskIsBlockedDelay cfg k current)
  let notify ← planAfterBlock cfg current
  let k ← get
  fatalUnless .taskDelay (k.switchPlan.pending = true ∨ k.switchPlan.active = true)
  notifyPort notify
  pure .ok

/-- `rts_task_delay`. -/
def taskDelay (cfg : Config) (isr : Bool) (delay : Tick) : KernelM Status :=
  if delay = 0 then taskYield cfg isr
  else if delayMax < delay then pure .invalidArgument
  else if isr = true then pure .invalidContext
  else do
    let k ← get
    if k.lifecycle ≠ .running then pure .invalidState
    else
      match k.currentTask with
      | none => do
        rtsAssert cfg .taskDelayCoherent False
        pure .invalidState
      | some current =>
        if TaskIsTimerService k current then pure .invalidContext
        else do
          rtsAssert cfg .taskDelayCoherent (DelayCurrentIsCoherent cfg k current)
          if ¬ DelayCurrentIsCoherent cfg k current then pure .invalidState
          else taskDelayAs cfg delay current

end RtsKernel
