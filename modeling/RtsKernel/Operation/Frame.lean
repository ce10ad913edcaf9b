import RtsKernel.Operation.Outline

/-!
# What the programs of the kernel write

Every program of the kernel is walked along its text, once for all frames: an assignment lies
outside the outline, or it is a move that the frame has to absorb. Blocking a task takes it out of
the ready structure, waking one releases it to the policy, and only the turn of a yield or of a
used-up time slice moves a ready task behind its equals.

## Main results

* `leads_delayLoop`, `leads_timerManagerProcessExpired`: the expiry of delays and timers only
  releases tasks.
* `leads_kernelTimeAdvanceCommon`: an advance releases what has expired, and then the current task
  may have its turn.
* `runEvent_call`, `runEvent_time`: the events.
-/

namespace RtsKernel

open Halting Prog

variable {cfg : Config} {P Q : Outline → Prop} {t c : TaskId} {o : WaitObject} {elapsed : Tick}

@[simp] theorem leads_fatalUnless (site : Site) (c : Prop) [Decidable c] :
    Leads Kernel.outline P P (fatalUnless site c) := leads_check _ _

@[simp] theorem leads_rtsAssert (site : Site) (c : Prop) [Decidable c] :
    Leads Kernel.outline P P (rtsAssert cfg site c) := leads_check _ _

theorem eq_of_rtsAssert {site : Site} {c : Prop} [Decidable c] {u : Unit} {k k' : Kernel}
    (h : rtsAssert cfg site c k = .ret u k') : k' = k := by
  unfold rtsAssert check at h
  split at h <;> cases h
  rfl

theorem eq_of_readyIsFront {b : Bool} {k k' : Kernel} (h : readyIsFront cfg t k = .ret b k') :
    k' = k := by
  obtain ⟨k₁, k₂, ⟨⟩, h⟩ := exists_ret_of_bind h
  obtain ⟨u, k₁, hassert, ⟨⟩⟩ := exists_ret_of_bind h
  exact eq_of_rtsAssert hassert

/-! ## Programs outside the outline -/

@[simp] theorem leads_readyContains : Leads Kernel.outline P P (readyContains cfg t) := by
  unfold readyContains
  repeat' first | with_reducible apply leads_bind_same | intro _ | split
  all_goals simp

@[simp] theorem leads_readyHasPeer : Leads Kernel.outline P P (readyHasPeer cfg t) := by
  unfold readyHasPeer
  repeat' first | with_reducible apply leads_bind_same | intro _ | split
  all_goals simp

@[simp] theorem leads_readyIsFront : Leads Kernel.outline P P (readyIsFront cfg t) := by
  unfold readyIsFront
  repeat' first | with_reducible apply leads_bind_same | intro _ | split
  all_goals simp

@[simp] theorem leads_delayInsert : Leads Kernel.outline P P (delayInsert cfg t) := by
  unfold delayInsert
  repeat' first | with_reducible apply leads_bind_same | intro _ | split
  all_goals try simp
  all_goals exact leads_modify_of_eq fun _ => rfl

@[simp] theorem leads_delayRemove : Leads Kernel.outline P P (delayRemove cfg t) := by
  unfold delayRemove
  repeat' first | with_reducible apply leads_bind_same | intro _ | split
  all_goals try simp
  all_goals exact leads_modify_of_eq fun _ => rfl

@[simp] theorem leads_waitObjectInsert : Leads Kernel.outline P P (waitObjectInsert cfg o t) := by
  unfold waitObjectInsert
  repeat' first | with_reducible apply leads_bind_same | intro _ | split
  all_goals simp

@[simp] theorem leads_waitObjectRemove : Leads Kernel.outline P P (waitObjectRemove cfg o t) := by
  unfold waitObjectRemove
  repeat' first | with_reducible apply leads_bind_same | intro _ | split
  all_goals simp

@[simp] theorem leads_timerQueueInsert {i : Nat} :
    Leads Kernel.outline P P (timerQueueInsert cfg i) := by
  unfold timerQueueInsert
  repeat' first | with_reducible apply leads_bind_same | intro _ | split
  all_goals try simp
  all_goals exact leads_modify_of_eq fun _ => rfl

@[simp] theorem leads_timerQueueRemove {i : Nat} :
    Leads Kernel.outline P P (timerQueueRemove cfg i) := by
  unfold timerQueueRemove
  repeat' first | with_reducible apply leads_bind_same | intro _ | split
  all_goals try simp
  all_goals exact leads_modify_of_eq fun _ => rfl

@[simp] theorem leads_schedulerSelectHighestReady :
    Leads Kernel.outline P P (schedulerSelectHighestReady cfg) := by
  unfold schedulerSelectHighestReady
  repeat' first | with_reducible apply leads_bind_same | intro _ | split
  all_goals simp

@[simp] theorem leads_schedulerPrepareSwitch {next : Option TaskId} :
    Leads Kernel.outline P P (schedulerPrepareSwitch cfg next) := by
  unfold schedulerPrepareSwitch prepareSwitchTo
  repeat' first | with_reducible apply leads_bind_same | intro _ | split
  all_goals simp

@[simp] theorem leads_schedulerSwitchAcquire :
    Leads Kernel.outline P P (schedulerSwitchAcquire cfg) := by
  unfold schedulerSwitchAcquire
  repeat' first | with_reducible apply leads_bind_same | intro _ | split
  all_goals simp

@[simp] theorem leads_schedulerReselectAfterSwitch :
    Leads Kernel.outline P P (schedulerReselectAfterSwitch cfg) := by
  unfold schedulerReselectAfterSwitch
  repeat' first | with_reducible apply leads_bind_same | intro _ | split
  all_goals simp

@[simp] theorem leads_planAfterWake : Leads Kernel.outline P P (planAfterWake cfg) := by
  unfold planAfterWake
  repeat' first | with_reducible apply leads_bind_same | intro _ | split
  all_goals simp

@[simp] theorem leads_planAfterBlock : Leads Kernel.outline P P (planAfterBlock cfg c) := by
  unfold planAfterBlock
  repeat' first | with_reducible apply leads_bind_same | intro _ | split
  all_goals simp

@[simp] theorem leads_planAfterTick : Leads Kernel.outline P P (planAfterTick cfg) := by
  unfold planAfterTick
  repeat' first | with_reducible apply leads_bind_same | intro _ | split
  all_goals simp

@[simp] theorem leads_requiredByOwnedFrom (n : Nat) (m : Option Nat) (required : Nat) :
    Leads Kernel.outline P P (requiredByOwnedFrom t n m required) := by
  fun_induction requiredByOwnedFrom t n m required with
  | case1 => exact leads_pure _
  | case2 => exact leads_bind_same (leads_fatalUnless _ _) fun _ => leads_pure _
  | case3 n required m ih =>
    repeat' first | with_reducible apply leads_bind_same | intro _ | split
    all_goals simp [ih]

@[simp] theorem leads_notifyPort {notify : Bool} :
    Leads Kernel.outline P P (notifyPort notify) := by
  unfold notifyPort portRequestReschedule
  repeat' first | with_reducible apply leads_bind_same | intro _ | split
  all_goals try simp
  all_goals exact leads_modify_of_eq fun _ => rfl

@[simp] theorem leads_waitResultConsume : Leads Kernel.outline P P (waitResultConsume t) := by
  unfold waitResultConsume
  repeat' first | with_reducible apply leads_bind_same | intro _ | split
  all_goals simp

@[simp] theorem leads_enqueueWaiter {timeout : Tick} :
    Leads Kernel.outline P P (enqueueWaiter cfg o c timeout) := by
  unfold enqueueWaiter
  repeat' first | with_reducible apply leads_bind_same | intro _ | split
  all_goals simp

@[simp] theorem leads_mutexInit {isr : Bool} {mutex : Option Nat} :
    Leads Kernel.outline P P (mutexInit cfg isr mutex) := by
  unfold mutexInit
  repeat' first | with_reducible apply leads_bind_same | intro _ | split
  all_goals simp

@[simp] theorem leads_mutexOwnerLink {m : Nat} :
    Leads Kernel.outline P P (mutexOwnerLink cfg m t) := by
  unfold mutexOwnerLink
  repeat' first | with_reducible apply leads_bind_same | intro _ | split
  all_goals simp

@[simp] theorem leads_mutexOwnerUnlink {m : Nat} :
    Leads Kernel.outline P P (mutexOwnerUnlink m) := by
  unfold mutexOwnerUnlink
  repeat' first | with_reducible apply leads_bind_same | intro _ | split
  all_goals simp

@[simp] theorem leads_wouldCycleFrom (n : Nat) (owner : Option TaskId) :
    Leads Kernel.outline P P (wouldCycleFrom c n owner) := by
  fun_induction wouldCycleFrom c n owner with
  | case1 => exact leads_pure _
  | case2 => exact leads_bind_same (leads_fatalUnless _ _) fun _ => leads_pure _
  | case3 n t ih =>
    repeat' first | with_reducible apply leads_bind_same | intro _ | split
    all_goals simp [ih]

@[simp] theorem leads_semaphoreInit {isr : Bool} {semaphore : Option Nat} {n maximum : Nat} :
    Leads Kernel.outline P P (semaphoreInit cfg isr semaphore n maximum) := by
  unfold semaphoreInit
  repeat' first | with_reducible apply leads_bind_same | intro _ | split
  all_goals simp

@[simp] theorem leads_timerInit {isr : Bool} {config : Option TimerConfig} :
    Leads Kernel.outline P P (timerInit cfg isr config) := by
  unfold timerInit timerReserve
  repeat' first | with_reducible apply leads_bind_same | intro _ | split
  all_goals try simp
  all_goals exact leads_modify_of_eq fun _ => rfl

@[simp] theorem leads_timerConsume {now : Tick} {i : Nat} :
    Leads Kernel.outline P P (timerConsume cfg now i) := by
  unfold timerConsume
  repeat' first | with_reducible apply leads_bind_same | intro _ | split
  all_goals simp

@[simp] theorem leads_timerServiceEnd {work : CallbackWork} :
    Leads Kernel.outline P P (timerServiceEnd cfg work) := by
  unfold timerServiceEnd
  repeat' first | with_reducible apply leads_bind_same | intro _ | split
  all_goals try simp
  all_goals exact leads_modify_of_eq fun _ => rfl

/-! ## Programs that move tasks between the priority queues -/

section moves

variable [Absorbs cfg P]

@[simp] theorem leads_readyInsert : Leads Kernel.outline P P (readyInsert cfg t) := by
  unfold readyInsert
  refine leads_bind leads_get fun k => ?_
  dsimp only
  split
  · exact leads_modify fun k' hk => Absorbs.enqueue cfg k'.outline _ t hk
  · simp

@[simp] theorem leads_readyRemove : Leads Kernel.outline P P (readyRemove cfg t) := by
  unfold readyRemove
  refine leads_bind leads_get fun k => ?_
  dsimp only
  split
  · exact leads_modify fun k' hk => Absorbs.dequeue cfg k'.outline _ t hk
  · simp

@[simp] theorem leads_policyFpInsert : Leads Kernel.outline P P (policyFpInsert cfg t) := by
  unfold policyFpInsert
  repeat' first | with_reducible apply leads_bind_same | intro _ | split
  all_goals simp

@[simp] theorem leads_policyFpRemove : Leads Kernel.outline P P (policyFpRemove cfg t) := by
  unfold policyFpRemove
  repeat' first | with_reducible apply leads_bind_same | intro _ | split
  all_goals simp

@[simp] theorem leads_policyFpPriorityChanged {p : Nat} :
    Leads Kernel.outline P P (policyFpPriorityChanged cfg t p) := by
  unfold policyFpPriorityChanged
  repeat' first | with_reducible apply leads_bind_same | intro _ | split
  all_goals simp

@[simp] theorem leads_rmsAssignFrom (slots : List Nat) :
    Leads Kernel.outline P P (rmsAssignFrom cfg t slots) := by
  induction slots with
  | nil => exact leads_pure _
  | cons i rest ih =>
    unfold rmsAssignFrom
    repeat' first | with_reducible apply leads_bind_same | intro _ | split
    all_goals simp [ih]

@[simp] theorem leads_policyRmsInsert : Leads Kernel.outline P P (policyRmsInsert cfg t) := by
  unfold policyRmsInsert policyRmsAssignPriorities
  repeat' first | with_reducible apply leads_bind_same | intro _ | split
  all_goals simp

@[simp] theorem leads_policyPriorityChanged {p : Nat} :
    Leads Kernel.outline P P (policyPriorityChanged cfg t p) := by
  unfold policyPriorityChanged policyEdfPriorityChanged
  repeat' first | with_reducible apply leads_bind_same | intro _ | split
  all_goals simp

@[simp] theorem leads_prioritySetEffective {p : Nat} :
    Leads Kernel.outline P P (prioritySetEffective cfg t p) := by
  unfold prioritySetEffective waitObjectReprioritize
  repeat' first | with_reducible apply leads_bind_same | intro _ | split
  all_goals simp

@[simp] theorem leads_recomputeFrom (n : Nat) (visited : List TaskId) (start : Option TaskId) :
    Leads Kernel.outline P P (recomputeFrom cfg n visited start) := by
  fun_induction recomputeFrom cfg n visited start with
  | case1 => exact leads_pure _
  | case2 => exact leads_bind_same (leads_fatalUnless _ _) fun _ => leads_pure _
  | case3 => exact leads_bind_same (leads_fatalUnless _ _) fun _ => leads_pure _
  | case4 n visited t ht ih =>
    unfold priorityRequiredByOwned
    repeat' first | with_reducible apply leads_bind_same | intro _ | split
    all_goals simp [ih]

@[simp] theorem leads_recomputeChainOrFatal {start : Option TaskId} :
    Leads Kernel.outline P P (recomputeChainOrFatal cfg start) := by
  unfold recomputeChainOrFatal priorityRecomputeChain
  repeat' first | with_reducible apply leads_bind_same | intro _ | split
  all_goals simp

end moves

/-! ## Programs that take tasks out of the ready structure -/

section removals

theorem policyEdfRemove_outline {k k' : Kernel} {b : Bool} (h : policyEdfRemove t k = .ret b k') :
    k'.outline = { k.outline with roster := k.roster.remove t } := by
  unfold policyEdfRemove at h
  rw [get_bind_apply] at h
  split at h <;> rename_i hin
  · cases h
    rfl
  · cases h
    simp only [Kernel.outline, Kernel.roster, Roster.remove, List.erase_of_not_mem hin]

@[simp] theorem leads_policyEdfRemove [AbsorbsRemovals P] :
    Leads Kernel.outline P P (policyEdfRemove t) := by
  refine ⟨fun h hk => ?_⟩
  rw [policyEdfRemove_outline h]
  exact AbsorbsRemovals.remove _ t hk

variable [Absorbs cfg P] [AbsorbsRemovals P]

@[simp] theorem leads_policyRemove : Leads Kernel.outline P P (policyRemove cfg t) := by
  unfold policyRemove
  repeat' first | with_reducible apply leads_bind_same | intro _ | split
  all_goals simp

variable [AbsorbsStates P]

@[simp] theorem leads_schedulerTimerServiceBlock :
    Leads Kernel.outline P P (schedulerTimerServiceBlock cfg) := by
  unfold schedulerTimerServiceBlock policyTaskBlock
  repeat' first | with_reducible apply leads_bind_same | intro _ | split
  all_goals try simp
  all_goals exact leads_setState fun _ => ⟨rfl, rfl, rfl⟩

@[simp] theorem leads_schedulerTimerServiceCancelWake :
    Leads Kernel.outline P P (schedulerTimerServiceCancelWake cfg) := by
  unfold schedulerTimerServiceCancelWake policyTaskBlock
  repeat' first | with_reducible apply leads_bind_same | intro _ | split
  all_goals try simp
  all_goals exact leads_setState fun _ => ⟨rfl, rfl, rfl⟩

@[simp] theorem leads_suspendCurrent {site : Site} {wait : Wait} :
    Leads Kernel.outline P P (suspendCurrent cfg site c wait) := by
  unfold suspendCurrent policyTaskBlock
  repeat' first | with_reducible apply leads_bind_same | intro _ | split
  all_goals try simp
  all_goals exact leads_restart fun _ => ⟨rfl, rfl, rfl⟩

@[simp] theorem leads_mutexBlock {m : Nat} {timeout : Tick} :
    Leads Kernel.outline P P (mutexBlock cfg m timeout c) := by
  unfold mutexBlock mutexWaitResultConsume
  repeat' first | with_reducible apply leads_bind_same | intro _ | split
  all_goals simp

@[simp] theorem leads_mutexLock {isr : Bool} {mutex : Option Nat} {timeout : Tick} :
    Leads Kernel.outline P P (mutexLock cfg isr mutex timeout) := by
  unfold mutexLock mutexLockAs mutexWouldCycle
  repeat' first | with_reducible apply leads_bind_same | intro _ | split
  all_goals simp

@[simp] theorem leads_semaphoreTake {isr : Bool} {semaphore : Option Nat} {timeout : Tick} :
    Leads Kernel.outline P P (semaphoreTake cfg isr semaphore timeout) := by
  unfold semaphoreTake semaphoreBlock semaphoreWaitResultConsume
  repeat' first | with_reducible apply leads_bind_same | intro _ | split
  all_goals simp

@[simp] theorem leads_taskDelayAs {delay : Tick} :
    Leads Kernel.outline P P (taskDelayAs cfg delay c) := by
  unfold taskDelayAs
  repeat' first | with_reducible apply leads_bind_same | intro _ | split
  all_goals simp

@[simp] theorem leads_timerServiceRest : Leads Kernel.outline P P (timerServiceRest cfg) := by
  unfold timerServiceRest portRequestReschedule
  repeat' first | with_reducible apply leads_bind_same | intro _ | split
  all_goals try simp
  all_goals exact leads_modify_of_eq fun _ => rfl

end removals

/-! ## Programs that release tasks -/

section releases

theorem policyRecordRelease_outline {k k' : Kernel} {u : Unit}
    (h : policyRecordRelease t k = .ret u k') :
    k'.outline = { k.outline with roster := k.roster.record t } := by
  cases h
  exact outline_number k _ rfl rfl rfl rfl

theorem policyEdfInsert_outline {k k' : Kernel} {b : Bool} (h : policyEdfInsert t k = .ret b k') :
    k'.outline = { k.outline with
      roster := if t ∈ k.roster.ready then k.roster else k.roster.place t } := by
  unfold policyEdfInsert at h
  rw [get_bind_apply] at h
  split at h <;> rename_i hin
  · have hlisted : t ∈ k.roster.ready := hin
    cases h
    rw [if_pos hlisted]
    rfl
  · have hlisted : t ∉ k.roster.ready := hin
    cases h
    rw [if_neg hlisted]
    rfl

/-- A frame that does not concern the list of the deadline policy survives every insertion. -/
@[simp] theorem leads_policyInsert [Absorbs cfg P] [IgnoresRoster P] :
    Leads Kernel.outline P P (policyInsert cfg t) := by
  have hrecord : Leads Kernel.outline P P (policyRecordRelease t) := by
    refine ⟨fun h hk => ?_⟩
    rw [policyRecordRelease_outline h]
    exact IgnoresRoster.roster _ _ hk
  have hedf : Leads Kernel.outline P P (policyEdfInsert t) := by
    refine ⟨fun h hk => ?_⟩
    rw [policyEdfInsert_outline h]
    exact IgnoresRoster.roster _ _ hk
  unfold policyInsert
  repeat' first | with_reducible apply leads_bind_same | intro _ | split
  all_goals simp [hrecord, hedf]

variable [Absorbs cfg P] [AbsorbsReleases cfg P]

/-- A release that the policy has accepted. -/
theorem policyInsert_outline {k k' : Kernel} (h : policyInsert cfg t k = .ret true k')
    (hk : P k.outline) : P k'.outline := by
  obtain ⟨u, k₁, hrecord, h⟩ := exists_ret_of_bind h
  have hk₁ := policyRecordRelease_outline hrecord
  cases hpol : cfg.policy with
  | fixedPriority =>
    simp only [hpol] at h
    have hrecorded : P k₁.outline :=
      hk₁ ▸ AbsorbsReleases.record (by simp [hpol] : cfg.policy ≠ .edf) _ t hk
    have hinsert : Leads Kernel.outline P P (policyFpInsert cfg t) := by simp
    exact hinsert.ret h hrecorded
  | rms =>
    simp only [hpol] at h
    have hrecorded : P k₁.outline :=
      hk₁ ▸ AbsorbsReleases.record (by simp [hpol] : cfg.policy ≠ .edf) _ t hk
    have hinsert : Leads Kernel.outline P P (policyRmsInsert cfg t) := by simp
    exact hinsert.ret h hrecorded
  | edf =>
    simp only [hpol] at h
    have hplaced := policyEdfInsert_outline h
    unfold policyEdfInsert at h
    rw [get_bind_apply] at h
    split at h <;> rename_i hin
    · cases h
    · have hready : k₁.roster = k.roster.record t := congrArg Outline.roster hk₁
      have hlisted : t ∉ k₁.roster.ready := hin
      rw [hplaced, if_neg hlisted, hk₁, hready]
      exact AbsorbsReleases.release hpol _ t (hready ▸ hlisted :) hk

/-- A release whose acceptance the caller checks. -/
theorem leads_unblock_bind {α : Type} {site : Site} {f : Unit → KernelM α}
    (hf : ∀ u, Leads Kernel.outline P P (f u)) :
    Leads Kernel.outline P P
      (policyTaskUnblock cfg t >>= fun unblocked => fatalUnless site (unblocked = true) >>= f) := by
  refine ⟨fun h hk => ?_⟩
  obtain ⟨unblocked, k₁, hunblock, h⟩ := exists_ret_of_bind h
  obtain ⟨u, k₂, hcheck, h⟩ := exists_ret_of_bind h
  unfold fatalUnless check at hcheck
  split at hcheck <;> rename_i hok
  · subst hok
    cases hcheck
    exact (hf _).ret h (policyInsert_outline hunblock hk)
  · cases hcheck

variable [AbsorbsStates P]

@[simp] theorem leads_schedulerTimerServiceWake :
    Leads Kernel.outline P P (schedulerTimerServiceWake cfg) := by
  unfold schedulerTimerServiceWake
  refine leads_bind leads_get fun k => ?_
  split
  · simp
  · split
    · simp
    · refine leads_bind (leads_restart fun _ => ⟨rfl, rfl, rfl⟩) fun _ =>
        leads_unblock_bind fun _ => ?_
      repeat' first | with_reducible apply leads_bind_same | intro _ | split
      all_goals simp

@[simp] theorem leads_releaseTask {site : Site} {result : WaitResult} :
    Leads Kernel.outline P P (releaseTask cfg site t result) := by
  unfold releaseTask
  refine leads_bind (leads_restart fun _ => ⟨rfl, rfl, rfl⟩) fun _ => leads_unblock_bind fun _ => ?_
  simp

@[simp] theorem leads_mutexHandoff {m : Nat} : Leads Kernel.outline P P (mutexHandoff cfg m) := by
  unfold mutexHandoff
  repeat' first | with_reducible apply leads_bind_same | intro _ | split
  all_goals simp

@[simp] theorem leads_mutexUnlock {isr : Bool} {mutex : Option Nat} :
    Leads Kernel.outline P P (mutexUnlock cfg isr mutex) := by
  unfold mutexUnlock mutexUnlockAs mutexPlanFinal
  repeat' first | with_reducible apply leads_bind_same | intro _ | split
  all_goals simp

@[simp] theorem leads_mutexTimeoutTask : Leads Kernel.outline P P (mutexTimeoutTask cfg t) := by
  unfold mutexTimeoutTask
  repeat' first | with_reducible apply leads_bind_same | intro _ | split
  all_goals simp

@[simp] theorem leads_semaphoreMakeReady {result : WaitResult} :
    Leads Kernel.outline P P (semaphoreMakeReady cfg t result) := by
  unfold semaphoreMakeReady
  repeat' first | with_reducible apply leads_bind_same | intro _ | split
  all_goals simp

@[simp] theorem leads_semaphoreGiveCommon {i : Nat} :
    Leads Kernel.outline P P (semaphoreGiveCommon cfg i) := by
  unfold semaphoreGiveCommon semaphoreWakeOne semaphorePlanAfterWake
  repeat' first | with_reducible apply leads_bind_same | intro _ | split
  all_goals simp

@[simp] theorem leads_semaphoreGive {isr : Bool} {semaphore : Option Nat} :
    Leads Kernel.outline P P (semaphoreGive cfg isr semaphore) := by
  unfold semaphoreGive
  repeat' first | with_reducible apply leads_bind_same | intro _ | split
  all_goals simp

@[simp] theorem leads_semaphoreGiveFromIsr {isr : Bool} {semaphore : Option Nat} :
    Leads Kernel.outline P P (semaphoreGiveFromIsr cfg isr semaphore) := by
  unfold semaphoreGiveFromIsr
  repeat' first | with_reducible apply leads_bind_same | intro _ | split
  all_goals simp

@[simp] theorem leads_semaphoreTimeoutTask :
    Leads Kernel.outline P P (semaphoreTimeoutTask cfg t) := by
  unfold semaphoreTimeoutTask
  repeat' first | with_reducible apply leads_bind_same | intro _ | split
  all_goals simp

@[simp] theorem leads_tickWakeTask : Leads Kernel.outline P P (tickWakeTask cfg t) := by
  unfold tickWakeTask delayExpireTask
  repeat' first | with_reducible apply leads_bind_same | intro _ | split
  all_goals simp

@[simp] theorem leads_delayLoop (fuel : Nat) : Leads Kernel.outline P P (delayLoop cfg fuel) := by
  induction fuel with
  | zero =>
    unfold delayLoop
    repeat' first | with_reducible apply leads_bind_same | intro _ | split
    all_goals simp
  | succ fuel ih =>
    unfold delayLoop
    repeat' first | with_reducible apply leads_bind_same | intro _ | split
    all_goals simp [ih]

end releases

/-! ## Programs that write the callback queue -/

section work

@[simp] theorem leads_timerServiceBegin [AbsorbsWork P] :
    Leads Kernel.outline P P (timerServiceBegin cfg) := by
  unfold timerServiceBegin timerCallbackQueueDequeue
  repeat' first | with_reducible apply leads_bind_same | intro _ | split
  all_goals try simp
  all_goals exact leads_setWork fun _ => rfl

@[simp] theorem leads_timerInvalidatePending [Absorbs cfg P] [AbsorbsRemovals P] [AbsorbsStates P]
    [AbsorbsWork P] {i : Nat} : Leads Kernel.outline P P (timerInvalidatePending cfg i) := by
  unfold timerInvalidatePending timerCallbackQueueRemoveTimer
  repeat' first | with_reducible apply leads_bind_same | intro _ | split
  all_goals try simp
  all_goals exact leads_setWork fun _ => rfl

@[simp] theorem leads_timerArm {isr restart : Bool} {i : Nat}
    (h : Leads Kernel.outline P P (timerInvalidatePending cfg i)) :
    Leads Kernel.outline P P (timerArm cfg isr i restart) := by
  unfold timerArm timerArmAt
  repeat' first | with_reducible apply leads_bind_same | intro _ | split
  all_goals simp [h]

@[simp] theorem leads_timerStop {isr : Bool} {i : Nat}
    (h : Leads Kernel.outline P P (timerInvalidatePending cfg i)) :
    Leads Kernel.outline P P (timerStop cfg isr i) := by
  unfold timerStop
  repeat' first | with_reducible apply leads_bind_same | intro _ | split
  all_goals simp [h]

@[simp] theorem leads_timerPublish [Absorbs cfg P] [AbsorbsReleases cfg P] [AbsorbsStates P]
    [AbsorbsWork P] {i : Nat} {deadline : Tick} :
    Leads Kernel.outline P P (timerPublish cfg i deadline) := by
  unfold timerPublish timerCallbackQueueEnqueue
  repeat' first | with_reducible apply leads_bind_same | intro _ | split
  all_goals try simp
  all_goals exact leads_setWork fun _ => rfl

variable {now : Tick} (h : ∀ i deadline, Leads Kernel.outline P P (timerPublish cfg i deadline))

include h in
theorem leads_processExpiredLoop (fuel : Nat) (woken : Bool) :
    Leads Kernel.outline P P (processExpiredLoop cfg now fuel woken) := by
  induction fuel generalizing woken with
  | zero =>
    unfold processExpiredLoop
    repeat' first | with_reducible apply leads_bind_same | intro _ | split
    all_goals simp
  | succ fuel ih =>
    unfold processExpiredLoop
    repeat' first | with_reducible apply leads_bind_same | intro _ | split
    all_goals simp [ih, h]

include h in
@[simp] theorem leads_timerManagerProcessExpired :
    Leads Kernel.outline P P (timerManagerProcessExpired cfg now) := by
  unfold timerManagerProcessExpired
  repeat' first | with_reducible apply leads_bind_same | intro _ | split
  all_goals simp [leads_processExpiredLoop h]

end work

/-! ## Turns of the current task -/

section turns

theorem Turns.leads {α : Type} {m : KernelM α} (h : Turns P Q) (hm : Leads Kernel.outline P P m) :
    Leads Kernel.outline P Q m := hm.mono (fun _ => id) h.same

theorem leads_readyRotate {p : Nat} (h : Turns P Q) :
    Leads Kernel.outline P Q (readyRotate cfg p) := by
  refine leads_get_bind fun {k a k'} hret hk => ?_
  have hassert : Leads Kernel.outline P Q (rtsAssert cfg .readyQueue False) := h.leads (by simp)
  rcases hl : k.readySet p with _ | ⟨t, _ | ⟨u, l⟩⟩ <;> simp only [hl] at hret
  · exact hassert.ret hret hk
  · exact hassert.ret hret hk
  · split at hret
    · cases hret
      exact h.rotate k.outline p t (u :: l) hl hk
    · exact hassert.ret hret hk

theorem leads_policyFpYield (h : Turns P Q) : Leads Kernel.outline P Q (policyFpYield cfg t) := by
  unfold policyFpYield
  refine leads_bind (M := P) (by simp) fun _ => ?_
  split
  · exact h.leads (by simp)
  refine leads_bind (M := P) (by simp) fun _ => ?_
  split
  · exact h.leads (by simp)
  refine leads_bind leads_get fun _ => leads_bind (leads_readyRotate h) fun _ => by simp

theorem leads_policyEdfYield (hsame : ∀ O, P O → Q O)
    (hturn : ∀ O, ∀ t ∈ O.roster.ready, P O → Q { O with roster := O.roster.turn t }) :
    Leads Kernel.outline P Q (policyEdfYield t) := by
  refine leads_get_bind fun {k b k'} hret hk => ?_
  cases hnext : successor t k.edfReady with
  | none =>
    rw [hnext] at hret
    cases hret
    exact hsame _ hk
  | some next =>
    simp only [hnext] at hret
    split at hret
    · cases hret
      exact hsame _ hk
    · obtain ⟨removed, k₁, hremove, hret⟩ := exists_ret_of_bind hret
      obtain ⟨u, k₂, hmodify, hret⟩ := exists_ret_of_bind hret
      have hk₂ : k₂.outline = { k.outline with roster := (k.roster.remove t).renumber t } := by
        have hk₁ := policyEdfRemove_outline hremove
        have hroster : k₁.roster = k.roster.remove t := congrArg Outline.roster hk₁
        have hdeadline : Function.update k₁.roster.deadline t (k₁.tasks t).absoluteDeadline =
            k₁.roster.deadline := Function.update_eq_self t k₁.roster.deadline
        have hlast : k₁.policyReleaseSequence = k.policyReleaseSequence :=
          congrArg Roster.last hroster
        cases hmodify
        rw [outline_number k₁ _ rfl rfl rfl rfl, hdeadline, hroster, hk₁, hlast]
        rfl
      have hroster : k₂.roster = (k.roster.remove t).renumber t := congrArg Outline.roster hk₂
      rw [policyEdfInsert_outline hret, hk₂, hroster]
      exact hturn k.outline t (mem_of_successor hnext) hk

theorem leads_policyYield (h : Turns P Q) : Leads Kernel.outline P Q (policyYield cfg t) := by
  unfold policyYield
  split
  · exact leads_policyFpYield h
  · exact leads_policyFpYield h
  · exact leads_policyEdfYield h.same h.turn

variable [Absorbs cfg P]

/-- The time slice of the current task is used, or used up. -/
theorem leads_countdown (h : Turns P Q) {m : KernelM Bool} (hm : Leads Kernel.outline P Q m)
    {k k' : Kernel} {b : Bool} (hk : P k.outline)
    (hret : (if elapsed < (k.tasks c).sliceRemaining then do
        modify fun k => k.updateTask c fun task =>
          { task with sliceRemaining := task.sliceRemaining - elapsed }
        pure false
      else do
        modify fun k => k.updateTask c fun task =>
          { task with sliceRemaining := cfg.timeSliceTicks }
        m : KernelM Bool) k = .ret b k') : Q k'.outline := by
  split at hret <;> rename_i hlt
  · cases hret
    rw [outline_updateTask k rfl rfl, Errand.setState_self]
    exact h.consume k.outline c elapsed hlt hk
  · exact (leads_bind (leads_refill fun _ => ⟨rfl, rfl, rfl, rfl⟩) fun _ => hm).ret hret hk

theorem leads_policyFpTick (h : Turns P Q) :
    Leads Kernel.outline P Q (policyFpTick cfg elapsed) := by
  refine leads_get_bind fun {k b k'} hret hk => ?_
  cases hc : k.currentTask with
  | none =>
    rw [hc] at hret
    cases hret
    exact h.same _ hk
  | some c =>
    simp only [hc] at hret
    split at hret
    · cases hret
      exact h.same _ hk
    obtain ⟨front, k₁, hfront, hret⟩ := exists_ret_of_bind hret
    obtain rfl := eq_of_readyIsFront hfront
    split at hret
    · cases hret
      exact h.same _ hk
    · exact leads_countdown h (leads_policyFpYield h) hk hret

theorem leads_policyEdfTick (h : Turns P Q) :
    Leads Kernel.outline P Q (policyEdfTick cfg elapsed) := by
  refine leads_get_bind fun {k b k'} hret hk => ?_
  cases hc : k.currentTask with
  | none =>
    rw [hc] at hret
    cases hret
    exact h.same _ hk
  | some c =>
    simp only [hc] at hret
    split at hret
    · cases hret
      exact h.same _ hk
    · exact leads_countdown h (leads_policyEdfYield h.same h.turn) hk hret

theorem leads_policyTick (h : Turns P Q) : Leads Kernel.outline P Q (policyTick cfg elapsed) := by
  unfold policyTick
  split
  · exact leads_policyFpTick h
  · exact leads_policyFpTick h
  · exact leads_policyEdfTick h

theorem leads_taskYield {isr : Bool} (h : Turns P Q) :
    Leads Kernel.outline P Q (taskYield cfg isr) := by
  unfold taskYield taskYieldAs
  split
  · exact h.leads (by simp)
  refine leads_bind (M := P) leads_get fun k => ?_
  split
  · exact h.leads (by simp)
  split
  · exact h.leads (leads_bind_same (by simp) fun _ => by simp)
  refine leads_bind (M := P) (by simp) fun _ => ?_
  split
  · exact h.leads (by simp)
  refine leads_bind (M := P) (leads_modify fun k hk => ?_) fun _ =>
    leads_bind (leads_policyYield h) fun _ => ?_
  · rw [outline_count _ rfl, outline_updateTask k rfl rfl, Errand.setState_self]
    exact Absorbs.refill k.outline _ hk
  · repeat' first | with_reducible apply leads_bind_same | intro _ | split
    all_goals simp

theorem leads_taskDelay [AbsorbsRemovals P] [AbsorbsStates P] {isr : Bool} (h : Turns P Q) :
    Leads Kernel.outline P Q (taskDelay cfg isr elapsed) := by
  unfold taskDelay
  split
  · exact leads_taskYield h
  · refine h.leads ?_
    repeat' first | with_reducible apply leads_bind_same | intro _ | split
    all_goals simp

end turns

/-! ## Dispatch -/

section dispatch

variable [Absorbs cfg P] [AbsorbsStates P] [AbsorbsAccounts P]

@[simp] theorem leads_schedulerSwitchComplete {s : SwitchSnapshot} {intact : Bool} :
    Leads Kernel.outline P P (schedulerSwitchComplete cfg s intact) := by
  unfold schedulerSwitchComplete runtimeTaskStopped runtimeTaskStarted
  repeat' first | with_reducible apply leads_bind_same | intro _ | split
  all_goals try simp
  all_goals first
    | exact leads_setState fun _ => ⟨rfl, rfl, rfl⟩
    | exact leads_dispatch cfg (fun _ => rfl) fun _ => ⟨rfl, .inl rfl⟩
    | exact leads_dispatch cfg (fun _ => rfl) fun _ => ⟨rfl, .inr rfl⟩

@[simp] theorem leads_start {isr tickOk firstTaskOk : Bool} :
    Leads Kernel.outline P P (start cfg isr tickOk firstTaskOk) := by
  unfold start startDispatch startRollback schedulerCurrentEstablish schedulerCurrentReleaseInitial
    runtimeTaskStarted
  repeat' first | with_reducible apply leads_bind_same | intro _ | split
  all_goals try simp
  all_goals first
    | exact leads_dispatch cfg (fun _ => rfl) fun _ => ⟨rfl, .inl rfl⟩
    | exact leads_dispatch cfg (fun _ => rfl) fun _ => ⟨rfl, .inr rfl⟩
    | exact leads_account fun _ => rfl

end dispatch

/-! ## Advances -/

/-- An advance releases what has expired, and then the current task may have its turn. -/
theorem leads_kernelTimeAdvanceCommon {M : Outline → Prop} [Absorbs cfg M] [AbsorbsReleases cfg M]
    [AbsorbsStates M] [AbsorbsWork M] (hclock : ∀ O, P O → M (O.advance elapsed)) (h : Turns M Q) :
    Leads Kernel.outline P Q (kernelTimeAdvanceCommon cfg elapsed) := by
  have hplan {c : Prop} [Decidable c] :
      Leads Kernel.outline Q Q (if c then pure false else planAfterTick cfg) := by
    split <;> simp
  unfold kernelTimeAdvanceCommon
  refine leads_bind (leads_modify fun k hk => hclock k.outline hk) fun _ =>
    leads_bind leads_get fun k => leads_bind (M := M) (by simp) fun woken => ?_
  split
  · exact h.leads (by simp)
  refine leads_bind (M := M) leads_get fun k => leads_bind (M := M) (by simp) fun b => ?_
  split
  · exact leads_bind (h.leads (by simp)) fun _ => hplan
  · exact leads_bind (leads_policyTick h) fun _ => hplan

/-! ## Time entries -/

section time

variable {k k' k'' : Kernel} {ev : Event}

/-- Only the counters and the requests to the port have changed, and no tick has been counted. -/
structure SameButReports (k k' : Kernel) : Prop where
  same : k' = { k with counters := k'.counters, rescheduleRequests := k'.rescheduleRequests }
  ticks : k'.counters.schedulerTicks = k.counters.schedulerTicks

theorem SameButReports.refl (k : Kernel) : SameButReports k k := ⟨rfl, rfl⟩

theorem SameButReports.trans (h : SameButReports k k') (h' : SameButReports k' k'') :
    SameButReports k k'' := by
  refine ⟨?_, h'.ticks.trans h.ticks⟩
  have hsame := h'.same
  rw [h.same] at hsame
  exact hsame

theorem SameButReports.outline (h : SameButReports k k') : k'.outline = k.outline := by
  have hcount : (k.count fun _ => k'.counters).outline = k.outline := outline_count k h.ticks
  rw [h.same]
  exact hcount

/-- The events that pass elapsed time to the kernel. -/
def Event.EntersTime : Event → Prop
  | .tick _ _ | .skip _ _ | .powerIdle _ _ => True
  | _ => False

theorem Event.elapsed_of_not_entersTime (hev : ¬ ev.EntersTime) : ev.elapsed cfg k = 0 := by
  cases ev with
  | tick | skip | powerIdle => exact absurd trivial hev
  | _ => rfl

/-- The kernel advances once, between two reports. -/
def Advancing (cfg : Config) (k : Kernel) (elapsed : Tick) (k' : Kernel) : Prop :=
  ∃ k₀ k₁ b, SameButReports k k₀ ∧ kernelTimeAdvanceCommon cfg elapsed k₀ = .ret b k₁ ∧
    SameButReports k₁ k'

theorem notifyPort_reports {b : Bool} (h : notifyPort b k = .ret () k') : SameButReports k k' := by
  unfold notifyPort portRequestReschedule at h
  split at h <;> cases h <;> exact ⟨rfl, rfl⟩

theorem kernelAdvance_cases {contextOk b : Bool}
    (h : kernelAdvance cfg contextOk elapsed k = .ret b k') :
    AdvanceIsValid k contextOk elapsed ∧ kernelTimeAdvanceCommon cfg elapsed k = .ret b k' ∨
    ¬ AdvanceIsValid k contextOk elapsed ∧ k' = k := by
  unfold kernelAdvance at h
  rw [get_bind_apply] at h
  obtain ⟨u, k₁, hassert, h⟩ := exists_ret_of_bind h
  obtain rfl := eq_of_rtsAssert hassert
  split at h <;> rename_i hvalid
  · exact .inl ⟨hvalid, h⟩
  · cases h
    exact .inr ⟨hvalid, rfl⟩

/-- An event that passes elapsed time is one advance, or nothing is advanced. -/
theorem runEvent_time (hev : ev.EntersTime) (h : runEvent cfg ev k = .ret () k') :
    ev.elapsed cfg k = 0 ∧ SameButReports k k' ∨ Advancing cfg k (ev.elapsed cfg k) k' := by
  cases ev with
  | tick isr e | skip isr e =>
    obtain ⟨b, k₁, hret, hport⟩ := exists_ret_of_bind h
    obtain ⟨hvalid, hret⟩ | ⟨hvalid, rfl⟩ := kernelAdvance_cases hret
    · rw [Event.elapsed, if_pos hvalid]
      exact .inr ⟨k, k₁, b, .refl k, hret, notifyPort_reports hport⟩
    · rw [Event.elapsed, if_neg hvalid]
      exact .inl ⟨rfl, notifyPort_reports hport⟩
  | powerIdle isr result =>
    have hcounted {k : Kernel} {f : RuntimeCounters → RuntimeCounters}
        (hf : (f k.counters).schedulerTicks = k.counters.schedulerTicks) :
        SameButReports k (k.count f) := ⟨rfl, hf⟩
    simp only [runEvent, powerIdle, get_bind_apply] at h
    split at h <;> rename_i hallowed
    · cases h
      exact .inl ⟨by simp [Event.elapsed, powerPlanCompute, hallowed], .refl k⟩
    rw [modify_bind_apply] at h
    obtain ⟨_, k₁, hassert, h⟩ := exists_ret_of_bind h
    obtain rfl := eq_of_rtsAssert hassert
    obtain ⟨_, k₁, hassert, h⟩ := exists_ret_of_bind h
    obtain rfl := eq_of_rtsAssert hassert
    cases hplan : powerPlanCompute cfg k isr with
    | none =>
      rw [hplan] at h
      cases h
      exact .inl ⟨by simp [Event.elapsed, hplan], hcounted rfl⟩
    | some sleep =>
      simp only [hplan] at h
      obtain ⟨u, k₁, hassert, h⟩ := exists_ret_of_bind h
      obtain rfl := eq_of_rtsAssert hassert
      simp only [Event.elapsed, hplan]
      split at h <;> rename_i hvalid
      · cases h
        exact .inl ⟨if_neg fun hall => hvalid ⟨hall.1, hall.2.1, hall.2.2.1⟩,
          (hcounted rfl).trans (hcounted rfl)⟩
      · rw [not_not] at hvalid
        rw [modify_bind_apply] at h
        split at h <;> rename_i hzero
        · obtain ⟨b, k₂, hskip, h⟩ := exists_ret_of_bind h
          rw [modify_bind_apply] at h
          obtain ⟨hadm, hskip⟩ | ⟨hadm, rfl⟩ := kernelAdvance_cases hskip
          · rw [if_pos ⟨hvalid.1, hvalid.2.1, hvalid.2.2, hadm⟩]
            exact .inr ⟨_, k₂, b, (hcounted rfl).trans (hcounted rfl), hskip,
              (hcounted rfl).trans (notifyPort_reports h)⟩
          · exact .inl ⟨if_neg fun hall => hadm hall.2.2.2,
              ((hcounted rfl).trans (hcounted rfl)).trans
                ((hcounted rfl).trans (notifyPort_reports h))⟩
        · obtain ⟨b, k₂, ⟨⟩, h⟩ := exists_ret_of_bind h
          rw [modify_bind_apply] at h
          exact .inl ⟨if_neg fun hall => hzero hall.2.2.2.2.2.1,
            ((hcounted rfl).trans (hcounted rfl)).trans
              ((hcounted rfl).trans (notifyPort_reports h))⟩
  | _ => exact hev.elim

/-- What an event that passes elapsed time leads to. -/
theorem runEvent_advance {M : Outline → Prop} [Absorbs cfg M] [AbsorbsReleases cfg M]
    [AbsorbsStates M] [AbsorbsWork M] (hev : ev.EntersTime) (h : runEvent cfg ev k = .ret () k')
    (hM : M (k.outline.advance (ev.elapsed cfg k))) (hturn : Turns M Q) : Q k'.outline := by
  obtain ⟨hzero, hsame⟩ | ⟨k₀, k₁, b, hbefore, hret, hafter⟩ := runEvent_time hev h
  · rw [hzero, Outline.advance_zero] at hM
    rw [hsame.outline]
    exact hturn.same _ hM
  · rw [hafter.outline]
    refine (leads_kernelTimeAdvanceCommon (P := (· = k.outline)) ?_ hturn).ret hret hbefore.outline
    rintro O rfl
    exact hM

end time

/-! ## Events -/

section events

variable {M : Outline → Prop} {k k' : Kernel} {ev : Event}

/-- The events that create tasks. -/
def Event.Populates : Event → Prop
  | .init _ _ | .taskCreate _ _ _ _ => True
  | _ => False

/-- The events that dispatch a task. -/
def Event.Dispatches : Event → Prop
  | .start _ _ _ | .complete _ _ => True
  | _ => False

/-- What a call makes of the outline: it takes tasks out, releases tasks or gives the current task
its turn. -/
theorem runEvent_call [Absorbs cfg P] [AbsorbsRemovals P] [AbsorbsStates P] [AbsorbsWork P]
    [Absorbs cfg M] [AbsorbsReleases cfg M] [AbsorbsStates M] (hpopulates : ¬ ev.Populates)
    (htime : ¬ ev.EntersTime) (hdispatch : ¬ ev.Dispatches) (h : runEvent cfg ev k = .ret () k')
    (hP : P k.outline) (hM : M k.outline) (hPQ : Turns P Q) (hMQ : Turns M Q) : Q k'.outline := by
  have hblock {α : Type} {m : KernelM α} (hm : Leads Kernel.outline P P m)
      (h : (m >>= fun _ => pure ()) k = .ret () k') : Q k'.outline := by
    obtain ⟨a, ha⟩ := exists_ret_of_discard h
    exact hPQ.same _ (hm.ret ha hP)
  have hwake {α : Type} {m : KernelM α} (hm : Leads Kernel.outline M M m)
      (h : (m >>= fun _ => pure ()) k = .ret () k') : Q k'.outline := by
    obtain ⟨a, ha⟩ := exists_ret_of_discard h
    exact hMQ.same _ (hm.ret ha hM)
  have hturn {α : Type} {m : KernelM α} (hm : Leads Kernel.outline P Q m)
      (h : (m >>= fun _ => pure ()) k = .ret () k') : Q k'.outline := by
    obtain ⟨a, ha⟩ := exists_ret_of_discard h
    exact hm.ret ha hP
  cases ev with
  | init | taskCreate => exact absurd trivial hpopulates
  | tick | skip | powerIdle => exact absurd trivial htime
  | start | complete => exact absurd trivial hdispatch
  | timerInit isr config => exact hblock (by simp) h
  | semaphoreInit isr s n max => exact hblock (by simp) h
  | mutexInit isr m => exact hblock (by simp) h
  | yield isr => exact hturn (leads_taskYield hPQ) h
  | delay isr d => exact hturn (leads_taskDelay hPQ) h
  | take isr s timeout => exact hblock (by simp) h
  | give isr s => exact hwake (by simp) h
  | giveFromIsr isr s => exact hwake (by simp) h
  | lock isr m timeout => exact hblock (by simp) h
  | unlock isr m => exact hwake (by simp) h
  | consume =>
    simp only [runEvent, get_bind_apply] at h
    cases hc : k.currentTask with
    | none =>
      rw [hc] at h
      cases h
      exact hPQ.same _ hP
    | some c =>
      simp only [hc] at h
      exact hblock (by simp) h
  | timerStart isr i => exact hblock (by unfold timerStart; simp) h
  | timerRestart isr i => exact hblock (by unfold timerRestart; simp) h
  | timerStop isr i => exact hblock (by simp) h
  | serviceBegin => exact hblock (by simp) h
  | serviceEnd =>
    simp only [runEvent, get_bind_apply] at h
    cases hw : k.serviceWork with
    | none =>
      rw [hw] at h
      cases h
      exact hPQ.same _ hP
    | some work =>
      simp only [hw] at h
      exact hPQ.same _ (leads_timerServiceEnd.ret h hP)
  | serviceRest => exact hPQ.same _ (leads_timerServiceRest.ret h hP)
  | acquire => exact hblock (by simp) h
  | reselect =>
    obtain ⟨b, k₁, hret, h⟩ := exists_ret_of_bind h
    rw [(notifyPort_reports h).outline]
    exact hPQ.same _ (leads_schedulerReselectAfterSwitch.ret hret hP)

/-- What any event but a creation leads to. -/
theorem runEvent_outline [Absorbs cfg P] [AbsorbsRemovals P] [AbsorbsStates P] [AbsorbsWork P]
    [AbsorbsAccounts P] [Absorbs cfg M] [AbsorbsReleases cfg M] [AbsorbsStates M] [AbsorbsWork M]
    (hpopulates : ¬ ev.Populates) (h : runEvent cfg ev k = .ret () k') (hP : P k.outline)
    (hM : M (k.outline.advance (ev.elapsed cfg k))) (hPQ : Turns P Q) (hMQ : Turns M Q) :
    Q k'.outline := by
  by_cases htime : ev.EntersTime
  · exact runEvent_advance htime h hM hMQ
  rw [Event.elapsed_of_not_entersTime htime, Outline.advance_zero] at hM
  by_cases hdispatch : ev.Dispatches
  · cases ev with
    | start isr tickOk firstTaskOk =>
      obtain ⟨a, ha⟩ := exists_ret_of_discard h
      exact hPQ.same _ (leads_start.ret ha hP)
    | complete snapshot stacksIntact => exact hPQ.same _ (leads_schedulerSwitchComplete.ret h hP)
    | _ => exact hdispatch.elim
  · exact runEvent_call hpopulates htime hdispatch h hP hM hPQ hMQ

end events

end RtsKernel
