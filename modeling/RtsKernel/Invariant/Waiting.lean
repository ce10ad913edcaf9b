import RtsKernel.Invariant.Priority

/-!
# Blocking and waking

What one task does when it begins to wait (`Blocks`) and when its wait ends (`Wakes`), as relations
between the kernel before and after. Every blocking call and every wake path is an instance, and
both relations keep the invariant.
-/

namespace RtsKernel

open Halting Prog Chain

variable {cfg : Config} {base : Tick} {stale stale' : TaskId → Prop} {k k' : Kernel}
  {t u c : TaskId} {m i : Nat} {result : WaitResult} {wait : Wait} {E : Fatal → Kernel → Prop}

/-- Two control blocks agree except in bookkeeping and in the links of the owned list. -/
def Tcb.SameButBooks (a b : Tcb) : Prop :=
  b = { a with
    sliceRemaining := b.sliceRemaining
    absoluteDeadline := b.absoluteDeadline
    releaseTick := b.releaseTick
    releaseSequence := b.releaseSequence
    diagnosticDispatchCount := b.diagnosticDispatchCount
    diagnosticBlockCount := b.diagnosticBlockCount
    diagnosticWakeCount := b.diagnosticWakeCount
    diagnosticRunningTicks := b.diagnosticRunningTicks
    diagnosticLastStartTick := b.diagnosticLastStartTick
    ownedMutexHead := b.ownedMutexHead
    ownedMutexTail := b.ownedMutexTail
    ownedMutexCount := b.ownedMutexCount }

theorem Tcb.SameButRelease.sameButBooks {a b : Tcb} (h : a.SameButRelease b) :
    a.SameButBooks b := by
  unfold Tcb.SameButBooks
  rw [h]

theorem Tcb.SameButBooks.refl (a : Tcb) : a.SameButBooks a := rfl

theorem Tcb.SameButBooks.trans {a b c : Tcb} (hab : a.SameButBooks b) (hbc : b.SameButBooks c) :
    a.SameButBooks c := by
  unfold Tcb.SameButBooks at *
  rw [hab] at hbc
  exact hbc

theorem TaskOk.sameButBooks {a b : Tcb} (h : TaskOk cfg t a) (hab : a.SameButBooks b)
    (hcount : a.state = .blocked → b.ownedMutexCount ≤ a.ownedMutexCount) : TaskOk cfg t b := by
  obtain ⟨hdorm, hvalid, hfree, hwaits⟩ := h
  rw [hab]
  refine ⟨hdorm, fun hd => ?_, hfree, fun hb => ?_⟩
  · obtain ⟨h1, h2, h3, h4, h5, h6, h7, h8⟩ := hvalid hd
    exact ⟨h1, h2, h3, h4, h5, h6, h7, h8⟩
  · obtain ⟨hres, hw⟩ := hwaits hb
    refine ⟨hres, ?_⟩
    cases hw with
    | delay h1 h2 h3 h4 h5 => exact .delay h1 h2 h3 h4 h5
    | semaphore i h1 h2 h3 h4 => exact .semaphore i h1 h2 h3 h4
    | mutex m h1 h2 h3 h4 h5 => exact .mutex m h1 h2 h3 h4 ((hcount hb).trans_lt h5)
    | service h1 h2 h3 h4 h5 => exact .service h1 h2 h3 h4 h5

/-! ## Waking -/

/-- The wait of one task has ended with a result: it has left every list it waited in and is
runnable; an application task that had not been switched out yet is running again. -/
structure Wakes (cfg : Config) (k k' : Kernel) (t : TaskId) (result : WaitResult) : Prop where
  rest : k'.rest = k.rest
  currentTask : k'.currentTask = k.currentTask
  switchPlan : k'.switchPlan = k.switchPlan
  requests : k'.rescheduleRequests = k.rescheduleRequests
  task : Tcb.SameButBooks { k.tasks t with
    waitOwner := none
    wait := (k'.tasks t).wait
    state := (k'.tasks t).state } (k'.tasks t)
  wait : (k'.tasks t).wait.reason = .none ∧ (k'.tasks t).wait.object = none ∧
    (k'.tasks t).wait.timeoutActive = false ∧ (k'.tasks t).wait.result = result
  state : (k'.tasks t).state = .ready ∨ (k'.tasks t).state = .running ∧ k.currentTask = some t
  executing : t ≠ .timerService → k.currentTask = some t → (k'.tasks t).state = .running
  others : ∀ u, u ≠ t → (k.tasks u).SameButBooks (k'.tasks u) ∧
    (k'.tasks u).ownedMutexCount ≤ (k.tasks u).ownedMutexCount
  ready : ReadyOk cfg k'.readySet k'.edfReady k.prio fun u => (k.tasks u).Runnable ∨ u = t
  delayQueue : k'.delayQueue = k.delayQueue.erase t
  waiters : ∀ o, k'.waiters o = (k.waiters o).erase t
  semaphores : ∀ i, (k.semaphores i).SameButWaiters (k'.semaphores i)
  turns : KeepsTurns k k'

namespace Wakes

theorem runnable (h : Wakes cfg k k' t result) : (k'.tasks t).Runnable :=
  h.state.imp id And.left

theorem waitOwner_eq (h : Wakes cfg k k' t result) : (k'.tasks t).waitOwner = none := by
  rw [h.task]

theorem sameBases (h : Wakes cfg k k' t result) : SameBases k.tasks k'.tasks := by
  intro u
  by_cases hut : u = t
  · subst hut
    refine ⟨by rw [h.task], by rw [h.task], fun hd => ?_⟩
    exact absurd hd h.runnable.not_dormant
  · rw [(h.others u hut).1]
    exact ⟨rfl, rfl, id⟩

theorem awaited (h : Wakes cfg k k' t result) (u : TaskId) :
    (k'.tasks u).awaited = if u = t then none else (k.tasks u).awaited := by
  split <;> rename_i hut
  · rw [hut]
    exact Tcb.awaited_of_state h.runnable.not_blocked
  · rw [(h.others u hut).1]
    rfl

theorem runnable_iff (h : Wakes cfg k k' t result) (u : TaskId) :
    (k'.tasks u).Runnable ↔ (k.tasks u).Runnable ∨ u = t := by
  by_cases hut : u = t
  · simp [hut, h.runnable]
  · rw [(h.others u hut).1]
    simp [Tcb.Runnable, hut]

end Wakes

/-- Waking keeps the invariant, whatever is known of the owners afterwards. -/
theorem Inv.wakes (h : Inv cfg base stale k) (hl : k.lifecycle = .running)
    (hb : (k.tasks t).state = .blocked) (hw : Wakes cfg k k' t result)
    (hlocks : Locks cfg stale' k'.mutexes k'.tasks k.currentTask) :
    Inv cfg base stale' k' := by
  have hd : (k.tasks t).state ≠ .dormant := by simp [hb]
  have hprio : k'.prio = k.prio := funext fun u => (hw.sameBases u).2.1
  have hnil : ∀ o, k.waiters o = [] → k'.waiters o = [] := fun o ho => by simp [hw.waiters, ho]
  refine ⟨fun u => ?_, ?_, ?_, ?_, hw.currentTask ▸ hlocks, fun i => ?_, fun u hu => ?_, ?_, ?_⟩
  · by_cases hut : u = t
    · subst hut
      have hv := (h.tasks u).valid hd
      refine ⟨fun hc => absurd hc hw.runnable.not_dormant, fun _ => ?_, fun _ => ?_,
        fun hc => absurd hc hw.runnable.not_blocked⟩
      · rw [hw.task]
        exact ⟨hv.allocated, hv.context, hv.magic, hv.known, hv.base_le, hv.prio_lt, hv.base_zero,
          hv.period⟩
      · exact ⟨hw.wait.1, hw.wait.2.1, hw.wait.2.2.1, hw.waitOwner_eq⟩
    · exact (h.tasks u).sameButBooks (hw.others u hut).1 fun _ => (hw.others u hut).2
  · rw [hprio]
    exact hw.ready.congr hw.runnable_iff fun _ => rfl
  · rw [hw.delayQueue]
    refine (h.delay.remove t).congr (fun u => ?_) fun u hu => ?_
    · by_cases hut : u = t
      · simp [hut, hw.runnable.not_timed]
      · rw [(hw.others u hut).1]
        simp [Tcb.Timed, hut]
    · simp only [Kernel.wake]
      rw [(hw.others u hu.2).1]
  · have hrem :
        ∀ o, k.waitOwners t = some o → WaitOk cfg k'.waiters k'.prio k'.waitOwners none := by
      intro o ho
      have hlists : k'.waiters = Function.update k.waiters o ((k.waiters o).erase t) := by
        funext o'
        by_cases hoo : o' = o
        · rw [hoo, Function.update_self, hw.waiters]
        · rw [Function.update_of_ne hoo, hw.waiters, List.erase_of_not_mem]
          intro hin
          rw [h.wait.mem, ho] at hin
          exact hoo (Option.some.inj hin).symm
      rw [hlists, hprio]
      refine (h.wait.remove ho (.inl rfl)).congr (fun u => ?_) fun _ _ => rfl
      simp only [Kernel.waitOwners]
      by_cases hut : u = t
      · rw [hut, hw.waitOwner_eq, Function.update_self]
      · rw [(hw.others u hut).1, Function.update_of_ne hut]
    cases ho : k.waitOwners t with
    | some o => exact hrem o ho
    | none =>
      have hlists : k'.waiters = k.waiters := by
        funext o
        rw [hw.waiters, List.erase_of_not_mem]
        intro hin
        rw [h.wait.mem, ho] at hin
        simp at hin
      rw [hlists, hprio]
      refine h.wait.congr (fun u => ?_) fun _ _ => rfl
      by_cases hut : u = t
      · subst hut
        rw [ho]
        exact hw.waitOwner_eq
      · simp only [Kernel.waitOwners]
        rw [(hw.others u hut).1]
  · obtain ⟨h1, h2, h3⟩ := h.semaphores i
    have hwait := hnil (.semaphore i)
    rw [hw.semaphores i]
    exact ⟨h1, fun hi => hwait (h2 hi), fun hi => hwait (h3 hi)⟩
  · rw [hw.currentTask]
    by_cases hut : u = t
    · rw [hut] at hu ⊢
      obtain hc | hc := hw.state
      · simp [hc] at hu
      · exact hc.2
    · rw [(hw.others u hut).1] at hu
      exact h.running u hu
  · refine h.phase.congr hw.rest hw.currentTask (fun hc => absurd hl hc) (fun u => ?_) fun hi => ?_
    · by_cases hut : u = t
      · subst hut
        simp [hd, hw.runnable.not_dormant]
      · rw [(hw.others u hut).1]
    · exact (hw.runnable_iff _).mpr (.inl hi)
  · rw [hw.currentTask, hw.switchPlan]
    exact h.plan

/-- The owner and links of the mutexes, and the ends of the owned lists, have not changed. -/
structure KeepsOwners (k k' : Kernel) : Prop where
  mutexes : ∀ m, (k.mutexes m).SameButWaiters (k'.mutexes m)
  tasks : ∀ u, (k'.tasks u).ownedMutexHead = (k.tasks u).ownedMutexHead ∧
    (k'.tasks u).ownedMutexTail = (k.tasks u).ownedMutexTail ∧
    (k'.tasks u).ownedMutexCount = (k.tasks u).ownedMutexCount

theorem KeepsOwners.owner (h : KeepsOwners k k') (m : Nat) :
    (k'.mutexes m).owner = (k.mutexes m).owner := by rw [h.mutexes m]

theorem KeepsOwners.owned (h : KeepsOwners k k') (ho : ∃ owned, Owned cfg k.mutexes k.tasks owned) :
    ∃ owned, Owned cfg k'.mutexes k'.tasks owned := by
  obtain ⟨owned, hown⟩ := ho
  refine ⟨owned, hown.congr (fun m => ?_) h.tasks⟩
  rw [h.mutexes m]
  exact ⟨rfl, rfl, rfl⟩

theorem Wakes.mem_waiters (h : Wakes cfg k k' t result)
    (hw : WaitOk cfg k.waiters k.prio k.waitOwners none) (o : WaitObject) (u : TaskId) :
    u ∈ k'.waiters o ↔ u ∈ k.waiters o ∧ u ≠ t := by
  rw [h.waiters, (hw.nodup o).mem_erase_iff, and_comm]

/-- Without a change of owners only the owner that was waited for can be stale. -/
theorem Inv.wakes_keepsOwners (h : Inv cfg base stale k) (hl : k.lifecycle = .running)
    (hb : (k.tasks t).state = .blocked) (hw : Wakes cfg k k' t result) (ho : KeepsOwners k k')
    (hs : ∀ u, stale u ∨ awaits k.mutexes k.tasks t = some u → stale' u) :
    Inv cfg base stale' k' := by
  refine h.wakes hl hb hw (h.locks.wake (ho.owned h.locks.owned) hw.sameBases hw.awaited ho.owner
    (fun m => ?_) (fun m u => hw.mem_waiters h.wait (.mutex m) u) hs)
  rw [ho.mutexes m]

/-- The lists have let go of the task, but it has not been released yet. -/
structure Detached (k k' : Kernel) (t : TaskId) : Prop where
  rest : k'.rest = k.rest
  currentTask : k'.currentTask = k.currentTask
  switchPlan : k'.switchPlan = k.switchPlan
  requests : k'.rescheduleRequests = k.rescheduleRequests
  readySet : k'.readySet = k.readySet
  edfReady : k'.edfReady = k.edfReady
  task : Tcb.SameButBooks { k.tasks t with waitOwner := none } (k'.tasks t)
  others : ∀ u, u ≠ t → (k.tasks u).SameButBooks (k'.tasks u) ∧
    (k'.tasks u).ownedMutexCount ≤ (k.tasks u).ownedMutexCount
  delayQueue : k'.delayQueue = k.delayQueue.erase t
  waiters : ∀ o, k'.waiters o = (k.waiters o).erase t
  semaphores : ∀ i, (k.semaphores i).SameButWaiters (k'.semaphores i)

/-- Leaving the wait list of `o`, and the delay queue. -/
theorem Inv.detached_relink {o : WaitObject} (h : Inv cfg base stale k)
    (ho : k.waitOwners t = some o) :
    Detached k { k.relink o ((k.waiters o).erase t) t none with
      delayQueue := k.delayQueue.erase t } t := by
  refine ⟨rfl, rfl, rfl, rfl, rfl, rfl, ?_, fun u hu => ?_, rfl, fun o' => ?_, fun i => ?_⟩
  · simp only [Kernel.relink_tasks, Function.update_self]
    exact .refl _
  · simp only [Kernel.relink_tasks, Function.update_of_ne hu]
    exact ⟨.refl _, le_rfl⟩
  · change (k.relink o ((k.waiters o).erase t) t none).waiters o' = _
    rw [waiters_relink]
    by_cases hoo : o' = o
    · rw [hoo, Function.update_self]
    · rw [Function.update_of_ne hoo, List.erase_of_not_mem]
      intro hin
      rw [h.wait.mem, ho] at hin
      exact hoo (Option.some.inj hin).symm
  · exact relink_semaphores k o ((k.waiters o).erase t) t none i

theorem keepsOwners_relink (k : Kernel) (o : WaitObject) (l : List TaskId) (t : TaskId)
    (owner : Option WaitObject) (queue : List TaskId) :
    KeepsOwners k { k.relink o l t owner with delayQueue := queue } := by
  refine ⟨fun m => relink_mutexes k o l t owner m, fun u => ?_⟩
  by_cases hut : u = t <;> simp [hut]

/-- A task without a deadline only leaves the wait list. -/
theorem Inv.detached_relink_of_not_mem {o : WaitObject} (h : Inv cfg base stale k)
    (ho : k.waitOwners t = some o) (hn : t ∉ k.delayQueue) :
    Detached k (k.relink o ((k.waiters o).erase t) t none) t := by
  have hdet := h.detached_relink ho
  rw [List.erase_of_not_mem hn] at hdet
  exact hdet

theorem wp_releaseTask {Q : Unit → Kernel → Prop} {site : Site} {R : TaskId → Prop}
    (h : ReadyOk cfg k.readySet k.edfReady k.prio R) (ht : ¬ R t)
    (hp : k.prio t < cfg.priorityCount)
    (hQ : ∀ rs er sequence task,
      (Tcb.wakeWith cfg result (k.currentTask = some t) (k.tasks t)).SameButRelease task →
      ReadyOk cfg rs er k.prio (fun u => R u ∨ u = t) → InTurn k.prio k.prio k.readySet rs →
      Q () (k.requeue t rs er sequence task)) :
    wp (releaseTask cfg site t result) Q E k := by
  set woken := Tcb.wakeWith cfg result (k.currentTask = some t) (k.tasks t) with hwoken
  set k₁ := k.updateTask t (Tcb.wakeWith cfg result (k.currentTask = some t)) with hk₁
  have htask : k₁.tasks t = woken := by simp [hk₁, hwoken]
  have hprio : k₁.prio = k.prio := prio_update rfl
  unfold releaseTask
  rw [wp_bind, wp_modify, wp_bind]
  refine wp_policyInsert (k := k₁) (R := R) (by rw [hprio]; exact h) ht (by rwa [hprio])
    (fun _ => .inl ?_) fun rs er sequence task hsame hready hturns => ?_
  · rw [htask, hwoken]
    unfold Tcb.wakeWith
    dsimp only
    split <;> simp
  · rw [htask] at hsame
    rw [hprio] at hready hturns
    rw [wp_bind, wp_fatalUnless_of rfl, wp_modify]
    have heq : ((k₁.requeue t rs er sequence task).updateTask t fun task =>
        { task with diagnosticWakeCount := diagnosticCounterIncrement task.diagnosticWakeCount }) =
        k.requeue t rs er sequence
          { task with
            diagnosticWakeCount := diagnosticCounterIncrement task.diagnosticWakeCount } := by
      simp [Kernel.requeue, Kernel.updateTask, hk₁]
    rw [heq]
    exact hQ _ _ _ _ (hsame.trans rfl) hready hturns

theorem Detached.wp_releaseTask {Q : Unit → Kernel → Prop} {site : Site} (hdet : Detached k k' t)
    (h : Inv cfg base stale k) (hb : (k.tasks t).state = .blocked)
    (hQ : ∀ k'', Wakes cfg k k'' t result → KeepsOwners k' k'' → Q () k'') :
    wp (releaseTask cfg site t result) Q E k' := by
  have hprio : k'.prio = k.prio := by
    funext u
    by_cases hut : u = t
    · subst hut
      simp only [Kernel.prio]
      rw [hdet.task]
    · simp only [Kernel.prio]
      rw [(hdet.others u hut).1]
  have hready : ReadyOk cfg k'.readySet k'.edfReady k'.prio fun u => (k.tasks u).Runnable := by
    rw [hdet.readySet, hdet.edfReady, hprio]
    exact h.ready
  refine RtsKernel.wp_releaseTask hready (Tcb.not_runnable_of_blocked hb) ?_
    fun rs er sequence task hsame hr hturns => hQ _ ?_ ?_
  · rw [hprio]
    exact ((h.tasks t).valid (by simp [hb])).prio_lt
  · rw [hdet.currentTask] at hsame
    have hstate : task.state = if k.currentTask = some t then .running else .ready := by
      rw [hsame]
      simp [Tcb.wakeWith]
    refine ⟨hdet.rest, hdet.currentTask, hdet.switchPlan, hdet.requests, ?_, ?_, ?_, ?_,
      fun u hu => ?_, ?_, hdet.delayQueue, hdet.waiters, hdet.semaphores, ?_⟩
    · simp only [Kernel.requeue_tasks, Function.update_self]
      unfold Tcb.SameButBooks
      rw [hsame]
      unfold Tcb.wakeWith
      rw [hdet.task]
    · simp only [Kernel.requeue_tasks, Function.update_self]
      rw [hsame]
      exact ⟨rfl, rfl, rfl, rfl⟩
    · simp only [Kernel.requeue_tasks, Function.update_self, hstate]
      split <;> simp_all
    · intro _ hcur
      simp [hstate, hcur]
    · simp only [Kernel.requeue_tasks, Function.update_of_ne hu]
      exact hdet.others u hu
    · rw [hprio] at hr
      exact hr
    · rw [hprio, hdet.readySet] at hturns
      have htask : task.priority = (k'.tasks t).priority := by
        rw [hsame]
        rfl
      rw [KeepsTurns, show (k'.requeue t rs er sequence task).prio = k'.prio from prio_update htask,
        hprio]
      exact hturns
  · refine ⟨fun m => rfl, fun u => ?_⟩
    by_cases hut : u = t
    · subst hut
      simp only [Kernel.requeue_tasks, Function.update_self]
      rw [hsame]
      exact ⟨rfl, rfl, rfl⟩
    · simp [hut]

theorem Wakes.count (h : Wakes cfg k k' t result) (f : RuntimeCounters → RuntimeCounters) :
    Wakes cfg k (k'.count f) t result :=
  ⟨h.rest, h.currentTask, h.switchPlan, h.requests, h.task, h.wait, h.state, h.executing, h.others,
    h.ready, h.delayQueue, h.waiters, h.semaphores, h.turns⟩

theorem KeepsOwners.trans {k'' : Kernel} (h : KeepsOwners k k') (h' : KeepsOwners k' k'') :
    KeepsOwners k k'' := by
  refine ⟨fun m => (h.mutexes m).trans (h'.mutexes m), fun u => ?_⟩
  obtain ⟨h1, h2, h3⟩ := h.tasks u
  obtain ⟨h1', h2', h3'⟩ := h'.tasks u
  exact ⟨h1'.trans h1, h2'.trans h2, h3'.trans h3⟩

theorem KeepsOwners.count (h : KeepsOwners k k') (f : RuntimeCounters → RuntimeCounters) :
    KeepsOwners k (k'.count f) := ⟨h.mutexes, h.tasks⟩

/-! ## Blocking -/

/-- Whether a wait ends at a deadline. -/
def Wait.Timed (wait : Wait) : Prop := wait.reason = .delay ∨ wait.timeoutActive = true

instance (wait : Wait) : Decidable wait.Timed := inferInstanceAs (Decidable (_ ∨ _))

/-- The control block of a task that waits. -/
def Tcb.waiting (task : Tcb) (wait : Wait) : Tcb :=
  { task with wait := wait, waitOwner := wait.object, state := .blocked }

/-- One task has begun to wait: it has left the ready queues and stands in the lists its wait
record names. -/
structure Blocks (cfg : Config) (k k' : Kernel) (c : TaskId) (wait : Wait) : Prop where
  rest : k'.rest = k.rest
  currentTask : k'.currentTask = k.currentTask
  switchPlan : k'.switchPlan = k.switchPlan
  requests : k'.rescheduleRequests = k.rescheduleRequests
  task : ((k.tasks c).waiting wait).SameButRelease (k'.tasks c)
  others : ∀ u, u ≠ c → k'.tasks u = k.tasks u
  ready : ReadyOk cfg k'.readySet k'.edfReady k.prio fun u => (k.tasks u).Runnable ∧ u ≠ c
  delayQueue : k'.delayQueue =
    if wait.Timed then k.delayQueue.orderedInsert (Earlier k'.wake) c else k.delayQueue
  waiters : ∀ o, k'.waiters o = if wait.object = some o then
    (k.waiters o).orderedInsert (Outranks k.prio) c else k.waiters o
  semaphores : ∀ i, (k.semaphores i).SameButWaiters (k'.semaphores i)
  mutexes : ∀ m, (k.mutexes m).SameButWaiters (k'.mutexes m)

namespace Blocks

theorem state_eq (h : Blocks cfg k k' c wait) : (k'.tasks c).state = .blocked := by
  rw [h.task]
  rfl

theorem wait_eq (h : Blocks cfg k k' c wait) : (k'.tasks c).wait = wait := by
  rw [h.task]
  rfl

theorem waitOwner_eq (h : Blocks cfg k k' c wait) : (k'.tasks c).waitOwner = wait.object := by
  rw [h.task]
  rfl

theorem sameBases (h : Blocks cfg k k' c wait) : SameBases k.tasks k'.tasks := by
  intro u
  by_cases huc : u = c
  · subst huc
    refine ⟨by rw [h.task]; rfl, by rw [h.task]; rfl, fun hd => ?_⟩
    simp [h.state_eq] at hd
  · rw [h.others u huc]
    exact ⟨rfl, rfl, id⟩

theorem keepsOwners (h : Blocks cfg k k' c wait) : KeepsOwners k k' := by
  refine ⟨h.mutexes, fun u => ?_⟩
  by_cases huc : u = c
  · subst huc
    rw [h.task]
    exact ⟨rfl, rfl, rfl⟩
  · rw [h.others u huc]
    exact ⟨rfl, rfl, rfl⟩

theorem runnable_iff (h : Blocks cfg k k' c wait) (u : TaskId) :
    (k'.tasks u).Runnable ↔ (k.tasks u).Runnable ∧ u ≠ c := by
  by_cases huc : u = c
  · simp [huc, Tcb.not_runnable_of_blocked h.state_eq]
  · simp [h.others u huc, huc]

theorem mem_waiters (h : Blocks cfg k k' c wait) (o : WaitObject) (u : TaskId) :
    u ∈ k'.waiters o ↔ u ∈ k.waiters o ∨ wait.object = some o ∧ u = c := by
  rw [h.waiters]
  split <;> rename_i ho
  · rw [Ordered.mem_orderedInsert]
    simp [ho, or_comm]
  · simp [ho]

end Blocks

/-- Blocking keeps the invariant, whatever is known of the owners afterwards. -/
theorem Inv.blocks (h : Inv cfg base stale k) (hl : k.lifecycle = .running)
    (hr : (k.tasks c).Runnable) (hci : c ≠ .idle) (hbl : Blocks cfg k k' c wait)
    (hres : wait.result = .none) (hwaits : ((k.tasks c).waiting wait).Waits cfg c)
    (hwin : wait.Timed → InWindow base wait.wakeTick)
    (hsem : ∀ i, wait.object = some (.semaphore i) →
      (k.semaphores i).initialized = true ∧ (k.semaphores i).count = 0)
    (hlocks : Locks cfg stale' k'.mutexes k'.tasks k.currentTask) :
    Inv cfg base stale' k' := by
  have hd := hr.not_dormant
  have hprio : k'.prio = k.prio := funext fun u => (hbl.sameBases u).2.1
  have hnone : k.waitOwners c = none := ((h.tasks c).free hr.not_blocked).2.2.2
  refine ⟨fun u => ?_, ?_, ?_, ?_, hbl.currentTask ▸ hlocks, fun i => ?_, fun u hu => ?_, ?_, ?_⟩
  · by_cases huc : u = c
    · subst huc
      have hv := (h.tasks u).valid hd
      have hok : TaskOk cfg u ((k.tasks u).waiting wait) := by
        refine ⟨fun hc => ?_, fun _ => ?_, fun hc => absurd rfl hc, fun _ => ⟨hres, hwaits⟩⟩
        · simp [Tcb.waiting] at hc
        · exact ⟨hv.allocated, hv.context, hv.magic, hv.known, hv.base_le, hv.prio_lt,
            hv.base_zero, hv.period⟩
      refine hok.sameButBooks hbl.task.sameButBooks fun _ => ?_
      rw [hbl.task]
    · rw [hbl.others u huc]
      exact h.tasks u
  · rw [hprio]
    exact hbl.ready.congr hbl.runnable_iff fun _ => rfl
  · have hwake : ∀ u, (k.tasks u).Timed → k'.wake u = k.wake u := by
      intro u hu
      have huc : u ≠ c := by
        rintro rfl
        exact hr.not_timed hu
      simp only [Kernel.wake, hbl.others u huc]
    have hold : DelayOk base k.delayQueue k'.wake fun u => (k.tasks u).Timed :=
      h.delay.congr (fun _ => Iff.rfl) hwake
    have htimed : (k'.tasks c).Timed ↔ wait.Timed := by
      simp [Tcb.Timed, Wait.Timed, hbl.state_eq, hbl.wait_eq]
    rw [hbl.delayQueue]
    split <;> rename_i ht
    · have hw : InWindow base (k'.wake c) := by
        simp only [Kernel.wake, hbl.wait_eq]
        exact hwin ht
      refine (hold.insert hr.not_timed hw).congr (fun u => ?_) fun _ _ => rfl
      by_cases huc : u = c
      · simp [huc, htimed, ht]
      · simp [huc, hbl.others u huc]
    · refine hold.congr (fun u => ?_) fun _ _ => rfl
      by_cases huc : u = c
      · subst huc
        simp [htimed, ht, hr.not_timed]
      · rw [hbl.others u huc]
  · rw [hprio]
    have howners : ∀ u, k'.waitOwners u = Function.update k.waitOwners c wait.object u := by
      intro u
      by_cases huc : u = c
      · subst huc
        simp [Kernel.waitOwners, hbl.waitOwner_eq]
      · simp [Kernel.waitOwners, hbl.others u huc, huc]
    cases ho : wait.object with
    | none =>
      have hlists : k'.waiters = k.waiters := by
        funext o
        simp [hbl.waiters, ho]
      rw [hlists]
      refine h.wait.congr (fun u => ?_) fun _ _ => rfl
      rw [howners, ho, ← hnone, Function.update_eq_self]
    | some o =>
      have happ : c.IsApplication cfg := by
        cases hwaits with
        | delay happ => exact happ
        | semaphore _ happ => exact happ
        | mutex _ happ => exact happ
        | service _ _ hobj => simp [Tcb.waiting, ho] at hobj
      have hlists : k'.waiters =
          Function.update k.waiters o ((k.waiters o).orderedInsert (Outranks k.prio) c) := by
        funext o'
        rw [hbl.waiters, ho]
        by_cases hoo : o' = o
        · subst hoo
          simp
        · simp [hoo, Ne.symm hoo]
      rw [hlists]
      refine (h.wait.insert hnone happ).congr (fun u => ?_) fun _ _ => rfl
      rw [howners, ho]
  · obtain ⟨h1, h2, h3⟩ := h.semaphores i
    have hlist := hbl.waiters (.semaphore i)
    by_cases ho : wait.object = some (.semaphore i)
    · obtain ⟨hi, hcount⟩ := hsem i ho
      rw [hbl.semaphores i]
      exact ⟨h1, fun hc => by simp [hi] at hc, fun hc => by simp [hcount] at hc⟩
    · rw [if_neg ho] at hlist
      rw [hbl.semaphores i]
      exact ⟨h1, fun hc => hlist.trans (h2 hc), fun hc => hlist.trans (h3 hc)⟩
  · rw [hbl.currentTask]
    by_cases huc : u = c
    · simp [huc, hbl.state_eq] at hu
    · rw [hbl.others u huc] at hu
      exact h.running u hu
  · refine h.phase.congr hbl.rest hbl.currentTask (fun hc => absurd hl hc) (fun u => ?_)
      fun hi => ?_
    · by_cases huc : u = c
      · subst huc
        simp [hd, hbl.state_eq]
      · rw [hbl.others u huc]
    · exact (hbl.runnable_iff _).mpr ⟨hi, Ne.symm hci⟩
  · rw [hbl.currentTask, hbl.switchPlan]
    exact h.plan

/-- A wait for time or for a semaphore concerns no owner. -/
theorem Blocks.locks (hbl : Blocks cfg k k' c wait) (h : Inv cfg base stale k)
    (hr : (k.tasks c).Runnable) (hreason : wait.reason ≠ .mutex)
    (hobj : ∀ m, wait.object ≠ some (.mutex m)) :
    Locks cfg stale k'.mutexes k'.tasks k.currentTask := by
  refine h.locks.congr (fun u => ?_) (fun m => ?_) (fun _ => id) id
  · obtain ⟨h1, h2, h3⟩ := hbl.sameBases u
    obtain ⟨h4, h5, h6⟩ := hbl.keepsOwners.tasks u
    refine ⟨h1, h2, h4, h5, h6, h3, ?_⟩
    by_cases huc : u = c
    · subst huc
      rw [Tcb.awaited_of_reason (by rwa [hbl.wait_eq]), Tcb.awaited_of_state hr.not_blocked]
    · rw [hbl.others u huc]
  · have hin := fun u => hbl.mem_waiters (.mutex m) u
    simp only [hobj, false_and, or_false] at hin
    rw [hbl.mutexes m]
    exact ⟨rfl, rfl, rfl, id, hin⟩

/-- A wait for a mutex whose owner does not wait for the task leaves that owner stale. -/
theorem Blocks.locks_mutex {owner : TaskId} (hbl : Blocks cfg k k' c wait)
    (h : Inv cfg base stale k) (hr : (k.tasks c).Runnable) (hreason : wait.reason = .mutex)
    (hobj : wait.object = some (.mutex m)) (ho : (k.mutexes m).owner = some owner)
    (hcycle : ¬ Reaches (awaits k.mutexes k.tasks) owner c) (hcur : k.currentTask ≠ some .idle) :
    Locks cfg (fun u => stale u ∨ u = owner) k'.mutexes k'.tasks k.currentTask := by
  refine h.locks.block (hbl.keepsOwners.owned h.locks.owned) hbl.sameBases ho
    (Tcb.awaited_of_state hr.not_blocked) hcycle hcur (fun u => ?_) hbl.keepsOwners.owner
    (fun n => by rw [hbl.mutexes n]) fun n u => ?_
  · split <;> rename_i huc
    · rw [huc]
      refine Tcb.awaited_eq_some.mpr ⟨hbl.state_eq, ?_, ?_⟩ <;> rw [hbl.wait_eq] <;> assumption
    · rw [hbl.others u huc]
  · have hin := hbl.mem_waiters (.mutex n) u
    rw [hobj] at hin
    refine hin.trans (or_congr_right (and_congr_left fun _ => ?_))
    simp [eq_comm]

/-- The current task out of the ready queues, with a new wait record. -/
def suspended (cfg : Config) (k : Kernel) (c : TaskId) (wait : Wait) : Kernel :=
  (k.removeReady c).updateTask c (Tcb.blockOn cfg wait)

theorem wp_suspendCurrent {Q : Unit → Kernel → Prop} {site : Site} (h : Inv cfg base stale k)
    (hr : (k.tasks c).Runnable) (hQ : Q () (suspended cfg k c wait)) :
    wp (suspendCurrent cfg site c wait) Q E k := by
  unfold suspendCurrent
  rw [wp_bind]
  refine wp_policyRemove h.ready hr ?_
  rw [wp_bind, wp_fatalUnless_of rfl, wp_modify]
  exact hQ

theorem wp_enqueueWaiter {Q : Unit → Kernel → Prop} {o : WaitObject} {timeout : Tick}
    {f : RuntimeCounters → RuntimeCounters} (h : Inv cfg base stale k) (hr : (k.tasks c).Runnable)
    (happ : c.IsApplication cfg) (hobj : wait.object = some o)
    (htimed : wait.Timed ↔ timeout ≠ waitForever) (hwin : wait.Timed → InWindow base wait.wakeTick)
    (hQ : ∀ k', Blocks cfg k k' c wait → Q () k') :
    wp (enqueueWaiter cfg o c timeout) Q E ((suspended cfg k c wait).count f) := by
  set k₁ := (suspended cfg k c wait).count f with hk₁
  have htask : k₁.tasks c = Tcb.blockOn cfg wait (k.tasks c) := by simp [hk₁, suspended]
  have hothers : ∀ u, u ≠ c → k₁.tasks u = k.tasks u := fun u hu => by
    simp [hk₁, suspended, hu]
  have hprio : k₁.prio = k.prio := by
    funext u
    by_cases huc : u = c
    · subst huc
      simp only [Kernel.prio, htask]
      rfl
    · simp only [Kernel.prio, hothers u huc]
  have howners : k₁.waitOwners = k.waitOwners := by
    funext u
    by_cases huc : u = c
    · subst huc
      simp only [Kernel.waitOwners, htask]
      rfl
    · simp only [Kernel.waitOwners, hothers u huc]
  have hnone : k.waitOwners c = none := ((h.tasks c).free hr.not_blocked).2.2.2
  have hwait : WaitOk cfg k₁.waiters k₁.prio k₁.waitOwners none := by
    rw [hprio, howners]
    exact h.wait
  unfold enqueueWaiter
  rw [wp_bind]
  refine wp_waitObjectInsert hwait (by rw [howners, hnone]) happ ?_
  rw [hprio]
  set k₂ := k₁.relink o ((k₁.waiters o).orderedInsert (Outranks k.prio) c) c (some o) with hk₂
  have htask₂ : k₂.tasks c = { k₁.tasks c with waitOwner := some o } := by simp [hk₂]
  have hothers₂ : ∀ u, u ≠ c → k₂.tasks u = k.tasks u := fun u hu => by
    simp [hk₂, hu, hothers u hu]
  have hfin : ∀ queue, (queue = if wait.Timed then
        k.delayQueue.orderedInsert (Earlier k₂.wake) c else k.delayQueue) →
      Blocks cfg k { k₂ with delayQueue := queue } c wait := by
    intro queue hqueue
    refine ⟨rfl, rfl, rfl, rfl, ?_, hothers₂, h.ready.remove c, hqueue, fun o' => ?_, fun i => ?_,
      fun m => ?_⟩
    · simp only [htask₂, htask]
      unfold Tcb.waiting
      rw [hobj]
      rfl
    · change k₂.waiters o' = _
      rw [hk₂, waiters_relink, hobj]
      by_cases hoo : o' = o
      · subst hoo
        simp only [Function.update_self, if_true]
        rfl
      · rw [Function.update_of_ne hoo, if_neg (by simpa using Ne.symm hoo)]
        rfl
    · exact relink_semaphores k₁ o _ c (some o) i
    · exact relink_mutexes k₁ o _ c (some o) m
  rw [wp_ite]
  split <;> rename_i hto
  · have ht := htimed.mpr hto
    have hwake : k₂.wake c = wait.wakeTick := by
      simp only [Kernel.wake, htask₂, htask]
      rfl
    have hdelay : DelayOk base k₂.delayQueue k₂.wake fun u => (k.tasks u).Timed := by
      refine h.delay.congr (fun _ => Iff.rfl) fun u hu => ?_
      have huc : u ≠ c := by
        rintro rfl
        exact hr.not_timed hu
      simp only [Kernel.wake, hothers₂ u huc]
    refine wp_delayInsert hdelay hr.not_timed (by rw [hwake]; exact hwin ht) ?_
    exact hQ _ (hfin _ (by rw [if_pos ht]; rfl))
  · rw [wp_pure]
    exact hQ _ (hfin k₂.delayQueue (by rw [if_neg fun ht => hto (htimed.mp ht)]; rfl))

theorem wp_delayInsert_suspended {Q : Unit → Kernel → Prop} {f : RuntimeCounters → RuntimeCounters}
    (h : Inv cfg base stale k) (hr : (k.tasks c).Runnable) (hobj : wait.object = none)
    (ht : wait.Timed) (hwin : InWindow base wait.wakeTick)
    (hQ : ∀ k', Blocks cfg k k' c wait → Q () k') :
    wp (delayInsert cfg c) Q E ((suspended cfg k c wait).count f) := by
  set k₁ := (suspended cfg k c wait).count f with hk₁
  have htask : k₁.tasks c = Tcb.blockOn cfg wait (k.tasks c) := by simp [hk₁, suspended]
  have hothers : ∀ u, u ≠ c → k₁.tasks u = k.tasks u := fun u hu => by
    simp [hk₁, suspended, hu]
  have hnone : (k.tasks c).waitOwner = none := ((h.tasks c).free hr.not_blocked).2.2.2
  have hdelay : DelayOk base k₁.delayQueue k₁.wake fun u => (k.tasks u).Timed := by
    refine h.delay.congr (fun _ => Iff.rfl) fun u hu => ?_
    have huc : u ≠ c := by
      rintro rfl
      exact hr.not_timed hu
    simp only [Kernel.wake, hothers u huc]
  refine wp_delayInsert hdelay hr.not_timed ?_ (hQ _ ?_)
  · simp only [Kernel.wake, htask]
    exact hwin
  · refine ⟨rfl, rfl, rfl, rfl, ?_, hothers, h.ready.remove c, ?_, fun o => ?_, fun i => rfl,
      fun m => rfl⟩
    · simp only [htask]
      unfold Tcb.waiting
      rw [hobj, ← hnone]
      rfl
    · rw [if_pos ht]
      rfl
    · rw [hobj]
      rfl

end RtsKernel
