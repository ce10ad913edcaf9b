import RtsKernel.Model.Policy

/-!
# Delay queue, wait lists and timer queues

`delay_queue.c`, `wait_object.c`, `timer_queue.c` and `timer_callback_queue.c`. Each ordered
insertion places the new member before the first one it precedes, so that equal members
keep the order in which they arrived.
-/

namespace RtsKernel

open Halting Prog

/-- `rts_tick_before` of the deadlines of two members. -/
def Earlier {ι : Type} (deadline : ι → Tick) (a b : ι) : Prop :=
  tickBefore (deadline a) (deadline b)

instance {ι : Type} (deadline : ι → Tick) : DecidableRel (Earlier deadline) := fun a b =>
  inferInstanceAs (Decidable (tickBefore (deadline a) (deadline b)))

/-! ## Delay queue -/

/-- `rts_delay_initialize`. -/
def delayInitialize (k : Kernel) : Kernel := { k with delayQueue := [] }

/-- The scan of `rts_delay_insert`; `none` when it meets a deadline exactly half a range away. -/
def delayInsertInto (wakeTick : TaskId → Tick) (t : TaskId) : List TaskId → Option (List TaskId)
  | [] => some [t]
  | q :: l =>
    if wakeTick t - wakeTick q = tickHalfRange then none
    else if tickBefore (wakeTick t) (wakeTick q) then some (t :: q :: l)
    else (delayInsertInto wakeTick t l).map (q :: ·)

/-- `rts_delay_insert`. -/
def delayInsert (cfg : Config) (t : TaskId) : KernelM Unit := do
  let k ← get
  if t ∈ k.delayQueue then rtsAssert cfg .delayQueue False
  else
    match delayInsertInto (fun u => (k.tasks u).wait.wakeTick) t k.delayQueue with
    | none => rtsAssert cfg .delayHalfRange False
    | some l => modify fun k => { k with delayQueue := l }

/-- `rts_delay_remove`. -/
def delayRemove (cfg : Config) (t : TaskId) : KernelM Unit := do
  let k ← get
  if t ∈ k.delayQueue then modify fun k => { k with delayQueue := k.delayQueue.erase t }
  else rtsAssert cfg .delayQueue False

/-- `rts_delay_peek_expired`. -/
def delayPeekExpired (k : Kernel) (now : Tick) : Option TaskId :=
  match k.delayQueue with
  | [] => none
  | t :: _ => if tickReached now (k.tasks t).wait.wakeTick then some t else none

/-- `rts_delay_next_deadline`. -/
def delayNextDeadline (k : Kernel) : Option Tick :=
  k.delayQueue.head?.map fun t => (k.tasks t).wait.wakeTick

/-! ## Wait lists -/

/-- `rts_wait_object_validate`. -/
def WaitObjectValidate (cfg : Config) (k : Kernel) (o : WaitObject) : Prop :=
  (∀ t ∈ k.waiters o, (k.tasks t).waitOwner = some o) ∧
  (k.waiters o).IsChain (fun a b => (k.tasks b).priority ≤ (k.tasks a).priority) ∧
  (k.waiters o).length ≤ cfg.maxTasks

instance (cfg : Config) (k : Kernel) (o : WaitObject) : Decidable (WaitObjectValidate cfg k o) :=
  inferInstanceAs (Decidable (_ ∧ _ ∧ _))

/-- A waiter is passed while its priority is not below that of the new task. -/
def Outranks (prio : TaskId → Nat) (a b : TaskId) : Prop := prio b < prio a

instance (prio : TaskId → Nat) : DecidableRel (Outranks prio) := fun a b =>
  inferInstanceAs (Decidable (prio b < prio a))

/-- Install a wait list, and the list a task is linked in. -/
@[simps -fullyApplied]
def Kernel.relink (k : Kernel) (o : WaitObject) (l : List TaskId) (t : TaskId)
    (owner : Option WaitObject) : Kernel :=
  { k.setWaiters o l with
    tasks := Function.update k.tasks t { k.tasks t with waitOwner := owner } }

/-- `rts_wait_object_insert`. -/
def waitObjectInsert (cfg : Config) (o : WaitObject) (t : TaskId) : KernelM Unit := do
  let k ← get
  rtsAssert cfg .waitObject (WaitObjectValidate cfg k o)
  rtsAssert cfg .waitObject ((k.tasks t).waitOwner = none)
  rtsAssert cfg .waitObject ((k.waiters o).length < cfg.maxTasks)
  if ¬ WaitObjectValidate cfg k o ∨ (k.tasks t).waitOwner ≠ none ∨
      cfg.maxTasks ≤ (k.waiters o).length then pure ()
  else do
    modify fun k =>
      k.relink o ((k.waiters o).orderedInsert (Outranks fun u => (k.tasks u).priority) t) t (some o)
    let k ← get
    fatalUnless .waitObject (WaitObjectValidate cfg k o)

/-- `rts_wait_object_remove`. -/
def waitObjectRemove (cfg : Config) (o : WaitObject) (t : TaskId) : KernelM Unit := do
  let k ← get
  rtsAssert cfg .waitObject ((k.tasks t).waitOwner = some o)
  if (k.tasks t).waitOwner ≠ some o then pure ()
  else do
    fatalUnless .waitObject (0 < (k.waiters o).length)
    modify fun k => k.relink o ((k.waiters o).erase t) t none
    let k ← get
    fatalUnless .waitObject (WaitObjectValidate cfg k o)

/-- `rts_wait_object_reprioritize`. -/
def waitObjectReprioritize (cfg : Config) (o : WaitObject) (t : TaskId) : KernelM Unit := do
  let k ← get
  rtsAssert cfg .waitObject ((k.tasks t).waitOwner = some o)
  if (k.tasks t).waitOwner ≠ some o then pure ()
  else do
    waitObjectRemove cfg o t
    waitObjectInsert cfg o t

/-! ## Active timers -/

/-- `rts_timer_queue_insert`. -/
def timerQueueInsert (cfg : Config) (i : Nat) : KernelM Unit := do
  let k ← get
  if i ∈ k.activeQueue then rtsAssert cfg .timerQueue False
  else
    modify fun k =>
      { k with
        activeQueue :=
          k.activeQueue.orderedInsert (Earlier fun j => (k.timers j).expirationTick) i }

/-- `rts_timer_queue_remove`. -/
def timerQueueRemove (cfg : Config) (i : Nat) : KernelM Unit := do
  let k ← get
  if i ∈ k.activeQueue then modify fun k => { k with activeQueue := k.activeQueue.erase i }
  else rtsAssert cfg .timerQueue False

/-- `rts_timer_queue_peek_expired`. -/
def timerQueuePeekExpired (k : Kernel) (now : Tick) : Option Nat :=
  match k.activeQueue with
  | [] => none
  | i :: _ => if tickReached now (k.timers i).expirationTick then some i else none

/-- `rts_timer_queue_next_deadline`. -/
def timerQueueNextDeadline (k : Kernel) : Option Tick :=
  k.activeQueue.head?.map fun i => (k.timers i).expirationTick

/-- `rts_timer_queue_validate`. -/
def TimerQueueValidate (cfg : Config) (k : Kernel) : Prop :=
  (∀ i ∈ k.activeQueue, (k.timers i).state = .active) ∧
  k.activeQueue.IsChain (fun i j =>
    ¬ tickBefore (k.timers j).expirationTick (k.timers i).expirationTick) ∧
  k.activeQueue.length ≤ cfg.maxTimers

instance (cfg : Config) (k : Kernel) : Decidable (TimerQueueValidate cfg k) :=
  inferInstanceAs (Decidable (_ ∧ _ ∧ _))

/-! ## Callback work -/

/-- `rts_timer_callback_queue_enqueue`. -/
def timerCallbackQueueEnqueue (cfg : Config) (work : CallbackWork) : KernelM Bool := do
  let k ← get
  if cfg.timerCallbackQueueCapacity ≤ k.callbackQueue.length then pure false
  else do
    modify fun k => { k with
      callbackQueue := k.callbackQueue ++ [work]
      callbackQueueMaximumDepth := max k.callbackQueueMaximumDepth (k.callbackQueue.length + 1) }
    pure true

/-- `rts_timer_callback_queue_dequeue`. -/
def timerCallbackQueueDequeue : KernelM (Option CallbackWork) := do
  let k ← get
  match k.callbackQueue with
  | [] => pure none
  | work :: rest => do
    modify fun k => { k with callbackQueue := rest }
    pure (some work)

/-- `rts_timer_callback_queue_count_for`. -/
def timerCallbackQueueCountFor (k : Kernel) (i : Nat) : Nat :=
  k.callbackQueue.countP fun work => work.timer = i

/-- `rts_timer_callback_queue_remove_timer`. -/
def timerCallbackQueueRemoveTimer (i : Nat) : KernelM Nat := do
  let k ← get
  modify fun k => { k with callbackQueue := k.callbackQueue.filter fun work => work.timer ≠ i }
  pure (timerCallbackQueueCountFor k i)

/-- `rts_timer_callback_queue_validate`, for the part a list can violate. -/
def TimerCallbackQueueValidate (cfg : Config) (k : Kernel) : Prop :=
  k.callbackQueue.length ≤ cfg.timerCallbackQueueCapacity ∧
  k.callbackQueue.length ≤ k.callbackQueueMaximumDepth ∧
  k.callbackQueueMaximumDepth ≤ cfg.timerCallbackQueueCapacity

instance (cfg : Config) (k : Kernel) : Decidable (TimerCallbackQueueValidate cfg k) :=
  inferInstanceAs (Decidable (_ ∧ _ ∧ _))

end RtsKernel
