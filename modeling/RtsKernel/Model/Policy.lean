import Mathlib.Data.List.Sort
import RtsKernel.Model.Tick

/-!
# Ready queues and scheduling policies

`ready_queue.c`, the three policy plugins and their dispatch in `scheduler_policy.c`.
The bitmap of the ready set is implied by the queues: a bit is set when its queue is
not empty, so the highest set bit is the highest nonempty queue.
-/

namespace RtsKernel

open Halting Prog

/-! ## Priority-indexed ready queues -/

/-- The answer of `rts_ready_contains`. -/
def ReadyContains (cfg : Config) (k : Kernel) (t : TaskId) : Prop :=
  (k.tasks t).priority < cfg.priorityCount ∧ t ∈ k.readySet (k.tasks t).priority

instance (cfg : Config) (k : Kernel) (t : TaskId) : Decidable (ReadyContains cfg k t) :=
  inferInstanceAs (Decidable (_ ∧ _))

/-- `rts_ready_contains`, which asserts that the priority is in range. -/
def readyContains (cfg : Config) (t : TaskId) : KernelM Bool := do
  let k ← get
  rtsAssert cfg .readyQueue ((k.tasks t).priority < cfg.priorityCount)
  pure (decide (ReadyContains cfg k t))

/-- The owner of the ready node is not null: some priority queue holds the task. -/
def ReadyLinked (cfg : Config) (k : Kernel) (t : TaskId) : Prop :=
  ∃ p < cfg.priorityCount, t ∈ k.readySet p

instance (cfg : Config) (k : Kernel) (t : TaskId) : Decidable (ReadyLinked cfg k t) :=
  inferInstanceAs (Decidable (∃ p < cfg.priorityCount, t ∈ k.readySet p))

@[simps -fullyApplied]
def Kernel.setReadyQueue (k : Kernel) (p : Nat) (l : List TaskId) : Kernel :=
  { k with readySet := Function.update k.readySet p l }

/-- `rts_ready_insert`. -/
def readyInsert (cfg : Config) (t : TaskId) : KernelM Unit := do
  let k ← get
  let p := (k.tasks t).priority
  if p < cfg.priorityCount ∧ ¬ ReadyLinked cfg k t then
    modify fun k => k.setReadyQueue p (k.readySet p ++ [t])
  else rtsAssert cfg .readyQueue False

/-- `rts_ready_remove`. -/
def readyRemove (cfg : Config) (t : TaskId) : KernelM Unit := do
  let k ← get
  let p := (k.tasks t).priority
  if ReadyContains cfg k t then
    modify fun k => k.setReadyQueue p ((k.readySet p).erase t)
  else rtsAssert cfg .readyQueue False

/-- The head of the highest nonempty queue below `n`. -/
def highestBelow (queues : Nat → List TaskId) : Nat → Option TaskId
  | 0 => none
  | n + 1 =>
    match queues n with
    | t :: _ => some t
    | [] => highestBelow queues n

/-- `rts_ready_peek_highest`. -/
def readyPeekHighest (cfg : Config) (k : Kernel) : Option TaskId :=
  highestBelow k.readySet cfg.priorityCount

/-- The answer of `rts_ready_has_peer`. -/
def ReadyHasPeer (cfg : Config) (k : Kernel) (t : TaskId) : Prop :=
  ReadyContains cfg k t ∧ 1 < (k.readySet (k.tasks t).priority).length

instance (cfg : Config) (k : Kernel) (t : TaskId) : Decidable (ReadyHasPeer cfg k t) :=
  inferInstanceAs (Decidable (_ ∧ _))

/-- `rts_ready_has_peer`, which asserts that the task is linked. -/
def readyHasPeer (cfg : Config) (t : TaskId) : KernelM Bool := do
  let k ← get
  rtsAssert cfg .readyQueue (ReadyContains cfg k t)
  pure (decide (ReadyHasPeer cfg k t))

/-- The answer of `rts_ready_is_front`. -/
def ReadyIsFront (cfg : Config) (k : Kernel) (t : TaskId) : Prop :=
  ReadyContains cfg k t ∧ (k.readySet (k.tasks t).priority).head? = some t

instance (cfg : Config) (k : Kernel) (t : TaskId) : Decidable (ReadyIsFront cfg k t) :=
  inferInstanceAs (Decidable (_ ∧ _))

/-- `rts_ready_is_front`, which asserts that the task is linked. -/
def readyIsFront (cfg : Config) (t : TaskId) : KernelM Bool := do
  let k ← get
  rtsAssert cfg .readyQueue (ReadyContains cfg k t)
  pure (decide (ReadyIsFront cfg k t))

/-- `rts_ready_rotate`. -/
def readyRotate (cfg : Config) (p : Nat) : KernelM Unit := do
  let k ← get
  match k.readySet p with
  | t :: u :: l =>
    if p < cfg.priorityCount then modify fun k => k.setReadyQueue p (u :: l ++ [t])
    else rtsAssert cfg .readyQueue False
  | _ => rtsAssert cfg .readyQueue False

/-! ## Fixed priority -/

/-- `rts_policy_fp_insert`. -/
def policyFpInsert (cfg : Config) (t : TaskId) : KernelM Bool := do
  let linked ← readyContains cfg t
  if linked = true then pure false
  else do
    readyInsert cfg t
    readyContains cfg t

/-- `rts_policy_fp_remove`. -/
def policyFpRemove (cfg : Config) (t : TaskId) : KernelM Bool := do
  let linked ← readyContains cfg t
  if linked = false then pure false
  else do
    readyRemove cfg t
    let linked ← readyContains cfg t
    pure !linked

/-- `rts_policy_fp_yield`. -/
def policyFpYield (cfg : Config) (t : TaskId) : KernelM Bool := do
  let linked ← readyContains cfg t
  if linked = false then pure false
  else do
    let peer ← readyHasPeer cfg t
    if peer = false then pure false
    else do
      let k ← get
      readyRotate cfg (k.tasks t).priority
      pure true

/-- `rts_policy_fp_priority_changed`. -/
def policyFpPriorityChanged (cfg : Config) (t : TaskId) (priority : Nat) : KernelM Bool := do
  let k ← get
  if priority = 0 ∨ cfg.priorityCount ≤ priority then pure false
  else if (k.tasks t).priority = priority then pure true
  else do
    let linked ← readyContains cfg t
    if linked = true then do
      readyRemove cfg t
      modify fun k => k.updateTask t fun task => { task with priority := priority }
      readyInsert cfg t
      readyContains cfg t
    else do
      modify fun k => k.updateTask t fun task => { task with priority := priority }
      pure true

/-- `rts_policy_fp_tick`. -/
def policyFpTick (cfg : Config) (elapsed : Tick) : KernelM Bool := do
  let k ← get
  match k.currentTask with
  | none => pure false
  | some c =>
    if cfg.enableTimeSlicing = false ∨ (k.tasks c).state ≠ .running ∨ k.idleTask = some c ∨
        k.switchPlan.active = true then pure false
    else do
      let front ← readyIsFront cfg c
      if front = false ∨ (k.tasks c).sliceRemaining = 0 then pure false
      else if elapsed < (k.tasks c).sliceRemaining then do
        modify fun k => k.updateTask c fun task =>
          { task with sliceRemaining := task.sliceRemaining - elapsed }
        pure false
      else do
        modify fun k => k.updateTask c fun task =>
          { task with sliceRemaining := cfg.timeSliceTicks }
        policyFpYield cfg c

/-! ## Rate monotonic -/

/-- Slots that `rts_policy_rms_assign_priorities` ranks: the allocated ones and the new task. -/
def RmsIncluded (k : Kernel) (newTask t : TaskId) : Prop :=
  t = newTask ∨ (k.tasks t).slotState = .allocated

instance (k : Kernel) (newTask t : TaskId) : Decidable (RmsIncluded k newTask t) :=
  inferInstanceAs (Decidable (_ ∨ _))

/-- One more than the number of included slots of longer period. -/
def rmsRank (cfg : Config) (k : Kernel) (newTask t : TaskId) : Nat :=
  1 + ((List.range cfg.maxTasks).countP fun j =>
    decide (RmsIncluded k newTask (.slot j) ∧ (k.tasks t).period < (k.tasks (.slot j)).period))

/-- The ranking loop of `rts_policy_rms_assign_priorities`, over the given slots. -/
def rmsAssignFrom (cfg : Config) (newTask : TaskId) : List Nat → KernelM Unit
  | [] => pure ()
  | i :: rest => do
    let k ← get
    if RmsIncluded k newTask (.slot i) then do
      let rank := rmsRank cfg k newTask (.slot i)
      modify fun k => k.updateTask (.slot i) fun task => { task with basePriority := rank }
      let _ ← policyFpPriorityChanged cfg (.slot i) rank
      rmsAssignFrom cfg newTask rest
    else rmsAssignFrom cfg newTask rest

/-- `rts_policy_rms_assign_priorities`. -/
def policyRmsAssignPriorities (cfg : Config) (newTask : TaskId) : KernelM Unit :=
  rmsAssignFrom cfg newTask (List.range cfg.maxTasks)

/-- `rts_policy_rms_insert`. -/
def policyRmsInsert (cfg : Config) (t : TaskId) : KernelM Bool := do
  let k ← get
  if (k.tasks t).state = .dormant ∧ (k.tasks t).period ≠ 0 then
    policyRmsAssignPriorities cfg t
  policyFpInsert cfg t

/-! ## Earliest deadline first -/

/-- `rts_policy_edf_is_before`. -/
def EdfIsBefore (k : Kernel) (first second : TaskId) : Prop :=
  k.idleTask ≠ some first ∧
  (k.idleTask = some second ∨
    if (k.tasks first).absoluteDeadline ≠ (k.tasks second).absoluteDeadline then
      tickBefore (k.tasks first).absoluteDeadline (k.tasks second).absoluteDeadline
    else (k.tasks first).releaseSequence ≠ (k.tasks second).releaseSequence ∧
      tickBefore (k.tasks first).releaseSequence (k.tasks second).releaseSequence)

instance (k : Kernel) : DecidableRel (EdfIsBefore k) := fun a b => by
  delta EdfIsBefore
  infer_instance

/-- `rts_policy_edf_insert`. -/
def policyEdfInsert (t : TaskId) : KernelM Bool := do
  let k ← get
  if t ∈ k.edfReady then pure false
  else do
    modify fun k => { k with edfReady := k.edfReady.orderedInsert (EdfIsBefore k) t }
    pure true

/-- `rts_policy_edf_remove`. -/
def policyEdfRemove (t : TaskId) : KernelM Bool := do
  let k ← get
  if t ∈ k.edfReady then do
    modify fun k => { k with edfReady := k.edfReady.erase t }
    pure true
  else pure false

/-- The next release sequence number, which is never zero. -/
def nextReleaseSequence (sequence : Tick) : Tick :=
  if sequence + 1 = 0 then sequence + 2 else sequence + 1

/-- The task that follows `t` in the list. -/
def successor (t : TaskId) : List TaskId → Option TaskId
  | a :: b :: l => if a = t then some b else successor t (b :: l)
  | _ => none

/-- `rts_policy_edf_yield`. -/
def policyEdfYield (t : TaskId) : KernelM Bool := do
  let k ← get
  match successor t k.edfReady with
  | none => pure false
  | some next =>
    if (k.tasks next).absoluteDeadline ≠ (k.tasks t).absoluteDeadline ∨ k.idleTask = some next then
      pure false
    else do
      let _ ← policyEdfRemove t
      modify fun k =>
        ({ k with policyReleaseSequence := nextReleaseSequence k.policyReleaseSequence }).updateTask
          t fun task =>
            { task with releaseSequence := nextReleaseSequence k.policyReleaseSequence }
      policyEdfInsert t

/-- `rts_policy_edf_priority_changed`. -/
def policyEdfPriorityChanged (cfg : Config) (t : TaskId) (priority : Nat) : KernelM Bool :=
  if priority = 0 ∨ cfg.priorityCount ≤ priority then pure false
  else do
    modify fun k => k.updateTask t fun task => { task with priority := priority }
    pure true

/-- `rts_policy_edf_tick`. -/
def policyEdfTick (cfg : Config) (elapsed : Tick) : KernelM Bool := do
  let k ← get
  match k.currentTask with
  | none => pure false
  | some c =>
    if cfg.enableTimeSlicing = false ∨ (k.tasks c).state ≠ .running ∨ k.idleTask = some c ∨
        k.switchPlan.active = true ∨ c ∉ k.edfReady ∨ (k.tasks c).sliceRemaining = 0 then
      pure false
    else if elapsed < (k.tasks c).sliceRemaining then do
      modify fun k => k.updateTask c fun task =>
        { task with sliceRemaining := task.sliceRemaining - elapsed }
      pure false
    else do
      modify fun k => k.updateTask c fun task => { task with sliceRemaining := cfg.timeSliceTicks }
      policyEdfYield c

/-! ## Dispatch -/

/-- `rts_policy_initialize`. -/
def policyInitialize (cfg : Config) (k : Kernel) : Kernel :=
  { k with
    policyReleaseSequence := 0
    readySet := if cfg.policy = .edf then k.readySet else fun _ => []
    edfReady := if cfg.policy = .edf then [] else k.edfReady }

/-- `rts_policy_record_release`. -/
def policyRecordRelease (t : TaskId) : KernelM Unit :=
  modify fun k =>
    ({ k with policyReleaseSequence := nextReleaseSequence k.policyReleaseSequence }).updateTask
      t fun task =>
        { task with
          releaseTick := k.currentTick
          absoluteDeadline :=
            if task.relativeDeadline = 0 then k.currentTick
            else k.currentTick + task.relativeDeadline
          releaseSequence := nextReleaseSequence k.policyReleaseSequence }

/-- `rts_policy_insert`, which `rts_policy_task_unblock` repeats word for word. -/
def policyInsert (cfg : Config) (t : TaskId) : KernelM Bool := do
  policyRecordRelease t
  match cfg.policy with
  | .fixedPriority => policyFpInsert cfg t
  | .rms => policyRmsInsert cfg t
  | .edf => policyEdfInsert t

/-- `rts_policy_task_unblock`. -/
def policyTaskUnblock (cfg : Config) (t : TaskId) : KernelM Bool := policyInsert cfg t

/-- `rts_policy_remove`, also `rts_policy_task_block`. -/
def policyRemove (cfg : Config) (t : TaskId) : KernelM Bool :=
  match cfg.policy with
  | .fixedPriority | .rms => policyFpRemove cfg t
  | .edf => policyEdfRemove t

/-- `rts_policy_task_block`. -/
def policyTaskBlock (cfg : Config) (t : TaskId) : KernelM Bool := policyRemove cfg t

/-- `rts_policy_pick_next`. -/
def policyPickNext (cfg : Config) (k : Kernel) : Option TaskId :=
  match cfg.policy with
  | .fixedPriority | .rms => readyPeekHighest cfg k
  | .edf => k.edfReady.head?

/-- `rts_policy_yield`. -/
def policyYield (cfg : Config) (t : TaskId) : KernelM Bool :=
  match cfg.policy with
  | .fixedPriority | .rms => policyFpYield cfg t
  | .edf => policyEdfYield t

/-- `rts_policy_priority_changed`. -/
def policyPriorityChanged (cfg : Config) (t : TaskId) (priority : Nat) : KernelM Bool :=
  match cfg.policy with
  | .fixedPriority | .rms => policyFpPriorityChanged cfg t priority
  | .edf => policyEdfPriorityChanged cfg t priority

/-- `rts_policy_tick`. -/
def policyTick (cfg : Config) (elapsed : Tick) : KernelM Bool :=
  match cfg.policy with
  | .fixedPriority | .rms => policyFpTick cfg elapsed
  | .edf => policyEdfTick cfg elapsed

/-- The ready node of the task is linked where its policy expects it. -/
def PolicyContains (cfg : Config) (k : Kernel) (t : TaskId) : Prop :=
  match cfg.policy with
  | .fixedPriority | .rms => ReadyContains cfg k t
  | .edf => t ∈ k.edfReady

instance (cfg : Config) (k : Kernel) (t : TaskId) : Decidable (PolicyContains cfg k t) := by
  unfold PolicyContains
  split <;> infer_instance

/-- `rts_policy_validate` of one task. -/
def PolicyValidate (cfg : Config) (k : Kernel) (t : TaskId) (expectedReady : Bool) : Prop :=
  (PolicyContains cfg k t ↔ expectedReady = true) ∧
  (cfg.policy = .rms → k.idleTask = some t ∨ k.timerServiceTask = some t ∨ (k.tasks t).period ≠ 0)

instance (cfg : Config) (k : Kernel) (t : TaskId) (b : Bool) :
    Decidable (PolicyValidate cfg k t b) :=
  inferInstanceAs (Decidable (_ ∧ _))

end RtsKernel
