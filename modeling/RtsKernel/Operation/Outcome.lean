import RtsKernel.Operation.Plan

/-!
# What an operation leaves behind

Between operations the kernel satisfies the invariant with no priority stale, and a current task
that has blocked is on its way out (`KernelOk`). `Scheduled` is what every operation that only
schedules guarantees; `SameWaits` is what it leaves alone unless it blocks or wakes a task.
-/

namespace RtsKernel

open Halting Prog

variable {cfg : Config} {base : Tick} {stale : TaskId → Prop} {k k' k'' : Kernel}
  {t u c p : TaskId} {b : Bool} {result : WaitResult} {wait : Wait}

/-! ## The plan between operations -/

/-- A current task that has blocked is on its way out. -/
def Kernel.Parked (k : Kernel) : Prop :=
  ∀ c, k.currentTask = some c → (k.tasks c).state = .blocked →
    k.switchPlan.pending = true ∨ k.switchPlan.active = true

/-- The plan leads from the current task to the pick of the policy, or there is none when they are
the same; an active switch leads to the pick unless its target has been withdrawn. Nothing is said
while a reselection is due. -/
structure Kernel.Agrees (cfg : Config) (k : Kernel) : Prop where
  settled : ∀ c p, k.currentTask = some c → policyPickNext cfg k = some p →
    k.switchPlan.active = false → k.switchPlan.reselectionRequired = false →
    (p ≠ c → k.switchPlan.pending = true ∧ k.switchPlan.fromTask = some c ∧
      k.switchPlan.toTask = some p) ∧ (p = c → k.switchPlan.pending = false)
  switching : ∀ d, k.switchPlan.active = true → k.switchPlan.reselectionRequired = false →
    k.switchPlan.toTask = some d → policyPickNext cfg k = some d ∨ (k.tasks d).state ≠ .ready

/-- What holds between operations. -/
structure KernelOk (cfg : Config) (k : Kernel) : Prop where
  inv : Inv cfg k.currentTick noneStale k
  parked : k.Parked

theorem Replanned.pick (h : Replanned k k') : policyPickNext cfg k' = policyPickNext cfg k := by
  rw [h]
  rfl

theorem Replanned.currentReady (h : Replanned k k') : k'.CurrentReady ↔ k.CurrentReady := by
  unfold Kernel.CurrentReady
  rw [h]

theorem Planned.parked (hp : Planned cfg k k' b) (h : Inv cfg base stale k) : k'.Parked := by
  intro c hc hb
  have hcur : k'.currentTask = k.currentTask := by rw [hp.replanned]
  have htasks : k'.tasks = k.tasks := by rw [hp.replanned]
  rw [hcur] at hc
  rw [htasks] at hb
  cases hp with
  | rejected ready =>
    obtain ⟨c', hc', hready⟩ := ready
    obtain rfl : c = c' := Option.some.inj (hc.symm.trans hc')
    simp [hb] at hready
  | prepared c' p hc' _ hpick _ plan =>
    obtain rfl : c = c' := Option.some.inj (hc.symm.trans hc')
    by_cases ha : k.switchPlan.active = true
    · exact .inr (plan.active.trans ha)
    · rw [Bool.not_eq_true] at ha
      have hpc : p ≠ c := by
        rintro rfl
        exact Tcb.not_runnable_of_blocked hb (h.pick_runnable hpick)
      exact .inl (plan.planned ha hpc).1

theorem Planned.agrees (hp : Planned cfg k k' b) (hr : ¬ k'.CurrentReady) : k'.Agrees cfg := by
  have hpick : policyPickNext cfg k' = policyPickNext cfg k := hp.replanned.pick
  have hcur : k'.currentTask = k.currentTask := by rw [hp.replanned]
  cases hp with
  | rejected ready => exact absurd ready hr
  | prepared c p hc _ hp _ plan =>
    refine ⟨fun c' p' hc' hp' ha hres => ?_, fun d ha hres hd => ?_⟩
    · obtain rfl : c = c' := Option.some.inj (hc.symm.trans (hcur.symm.trans hc'))
      obtain rfl : p = p' := Option.some.inj (hp.symm.trans (hpick.symm.trans hp'))
      have ha' : k.switchPlan.active = false := plan.active.symm.trans ha
      exact ⟨plan.planned ha', plan.cancelled ha'⟩
    · rw [plan.deferred (plan.active.symm.trans ha)] at hres
      simp at hres

/-! ## News for the port -/

/-- A planned switch leads to a task that is `READY`. -/
def Kernel.TargetReady (k : Kernel) : Prop :=
  k.switchPlan.pending = true →
    ∃ d, k.switchPlan.toTask = some d ∧ (k.tasks d).state = .ready

/-- A plan that was not pending before. -/
def Kernel.Turns (k k' : Kernel) : Prop :=
  k.switchPlan.pending = false ∧ k'.switchPlan.pending = true

instance (k k' : Kernel) : Decidable (k.Turns k') := by
  delta Kernel.Turns
  infer_instance

/-- What an operation other than a context switch does to the plan: one that is being executed only
ever hears of a reselection. -/
structure Replans (k k' : Kernel) : Prop where
  executing : k.switchPlan.active = true → k'.switchPlan = k.switchPlan ∨
    k'.switchPlan = { k.switchPlan with reselectionRequired := true }
  idle : k.switchPlan.active = false → k'.switchPlan.active = false
  target : k.TargetReady → k'.TargetReady

/-- The port hears exactly of a plan that is new. -/
def Notifies (k k' : Kernel) : Prop :=
  k'.rescheduleRequests = k.rescheduleRequests + if k.Turns k' then 1 else 0

/-- No task that was `READY` has changed its state. -/
def KeepsReady (k k' : Kernel) : Prop :=
  ∀ t, (k.tasks t).state = .ready → (k'.tasks t).state = .ready

theorem KeepsReady.trans (h : KeepsReady k k') (h' : KeepsReady k' k'') : KeepsReady k k'' :=
  fun t ht => h' t (h t ht)

theorem KeepsReady.targetReady (h : KeepsReady k k') (hplan : k'.switchPlan = k.switchPlan)
    (ht : k.TargetReady) : k'.TargetReady := by
  unfold Kernel.TargetReady
  rw [hplan]
  intro hpend
  obtain ⟨d, hd, hst⟩ := ht hpend
  exact ⟨d, hd, h d hst⟩

theorem Replans.of_same (hplan : k'.switchPlan = k.switchPlan) (hkeep : KeepsReady k k') :
    Replans k k' :=
  ⟨fun _ => .inl hplan, fun hi => hplan ▸ hi, hkeep.targetReady hplan⟩

theorem Replans.refl (k : Kernel) : Replans k k := .of_same rfl fun _ => id

theorem Notifies.of_same (hplan : k'.switchPlan.pending = true → k.switchPlan.pending = true)
    (hreq : k'.rescheduleRequests = k.rescheduleRequests) : Notifies k k' := by
  have hnot : ¬ k.Turns k' := fun ⟨hpend, hpend'⟩ => by simp [hplan hpend'] at hpend
  unfold Notifies
  rw [if_neg hnot, hreq, Nat.add_zero]

theorem Notifies.refl (k : Kernel) : Notifies k k := .of_same id rfl

theorem Planned.requests (h : Planned cfg k k' b) :
    k'.rescheduleRequests = k.rescheduleRequests := by
  cases h with
  | rejected => rfl
  | prepared _ _ _ _ _ _ plan => exact plan.requests

theorem Planned.reported (h : Planned cfg k k' b) : b = true ↔ k.Turns k' := by
  cases h with
  | rejected => simp [Kernel.Turns]
  | prepared _ _ _ _ _ _ plan => exact plan.reported

theorem Planned.executing (h : Planned cfg k k' b) (ha : k.switchPlan.active = true) :
    k'.switchPlan = k.switchPlan ∨
      k'.switchPlan = { k.switchPlan with reselectionRequired := true } := by
  cases h with
  | rejected => exact .inl rfl
  | prepared _ _ _ _ _ _ plan => exact .inr (plan.deferred ha)

theorem Planned.idle (h : Planned cfg k k' b) (ha : k.switchPlan.active = false) :
    k'.switchPlan.active = false := by
  cases h with
  | rejected => exact ha
  | prepared _ _ _ _ _ _ plan => exact plan.active.trans ha

theorem Planned.targetReady (h : Planned cfg k k' b) (ht : k.TargetReady) : k'.TargetReady := by
  have htasks : k'.tasks = k.tasks := by rw [h.replanned]
  cases h with
  | rejected => exact ht
  | prepared c p hc _ _ hrun plan =>
    intro hpend
    rw [htasks]
    cases ha : k.switchPlan.active with
    | true =>
      rw [plan.deferred ha] at hpend ⊢
      exact ht hpend
    | false =>
      have hpc : p ≠ c := fun hpc => by simp [plan.cancelled ha hpc] at hpend
      exact ⟨p, (plan.planned ha hpc).2.2, hrun.ready_of_ne hc hpc⟩

theorem Replans.of_planned (hplan : k'.switchPlan = k.switchPlan) (hkeep : KeepsReady k k')
    (hp : Planned cfg k' k'' b) : Replans k k'' where
  executing ha := hplan ▸ hp.executing (hplan ▸ ha)
  idle hi := hp.idle (hplan ▸ hi)
  target ht := hp.targetReady (hkeep.targetReady hplan ht)

theorem Notifies.of_report (hreq : k'.rescheduleRequests = k.rescheduleRequests)
    (hb : b = true ↔ k.Turns k') : Notifies k (k'.notify b) := by
  have hturns : k.Turns (k'.notify b) ↔ b = true := hb.symm
  unfold Notifies
  rw [if_congr hturns rfl rfl]
  change k'.rescheduleRequests + b.toNat = _
  rw [hreq]
  cases b <;> rfl

theorem Notifies.of_planned (hplan : k'.switchPlan = k.switchPlan)
    (hreq : k'.rescheduleRequests = k.rescheduleRequests) (hp : Planned cfg k' k'' b) :
    Notifies k (k''.notify b) := by
  refine .of_report (hp.requests.trans hreq) ?_
  rw [hp.reported]
  unfold Kernel.Turns
  rw [hplan]

/-! ## Scheduling operations -/

/-- Every operation keeps the kernel in order. Only a time advance can leave the current task
`READY`, and only a withdrawal of the timer service can lose the agreement of plan and policy. -/
structure Outcome (cfg : Config) (k k' : Kernel) : Prop where
  ok : KernelOk cfg k'
  ready : k'.CurrentReady → k.CurrentReady
  agrees : k.Agrees cfg → ¬ k'.CurrentReady → k'.Agrees cfg

/-- The outcome of an operation that does not touch time, timers and the timer service. -/
structure Scheduled (cfg : Config) (k k' : Kernel) : Prop extends Outcome cfg k k' where
  rest : k'.rest = k.rest
  currentTask : k'.currentTask = k.currentTask
  unstarted : k.lifecycle ≠ .running → k'.tasks = k.tasks
  service : (k'.tasks .timerService).state = .blocked ↔ (k.tasks .timerService).state = .blocked
  fifo : Fifo k k'
  replans : Replans k k'

theorem Fifo.refl (k : Kernel) : Fifo k k := .of_sublist (fun _ => .refl _) rfl

theorem Outcome.refl (h : KernelOk cfg k) : Outcome cfg k k := ⟨h, id, fun ha _ => ha⟩

theorem Scheduled.refl (h : KernelOk cfg k) : Scheduled cfg k k :=
  ⟨.refl h, rfl, rfl, fun _ => rfl, Iff.rfl, .refl k, .refl k⟩

/-- What selection and planning read is unchanged. -/
structure SameSchedule (k k' : Kernel) : Prop where
  currentTask : k'.currentTask = k.currentTask
  switchPlan : k'.switchPlan = k.switchPlan
  readySet : k'.readySet = k.readySet
  edfReady : k'.edfReady = k.edfReady
  state : ∀ t, (k'.tasks t).state = (k.tasks t).state

theorem policyPickNext_congr (hr : k'.readySet = k.readySet) (he : k'.edfReady = k.edfReady) :
    policyPickNext cfg k' = policyPickNext cfg k := by
  unfold policyPickNext readyPeekHighest
  rw [hr, he]

theorem SameSchedule.currentReady (hs : SameSchedule k k') (hr : k'.CurrentReady) :
    k.CurrentReady := by
  obtain ⟨c, hc, hst⟩ := hr
  exact ⟨c, hs.currentTask ▸ hc, hs.state c ▸ hst⟩

theorem SameSchedule.agrees (hs : SameSchedule k k') (ha : k.Agrees cfg) : k'.Agrees cfg := by
  obtain ⟨hcur, hplan, hready, hedf, hstate⟩ := hs
  have hpick : policyPickNext cfg k' = policyPickNext cfg k := policyPickNext_congr hready hedf
  refine ⟨?_, ?_⟩
  · rw [hcur, hpick, hplan]
    exact ha.settled
  · rw [hpick, hplan]
    intro d
    rw [hstate d]
    exact ha.switching d

/-- An operation that leaves the schedule alone. -/
theorem Outcome.of_sameSchedule (h : Inv cfg k'.currentTick noneStale k') (hp : k.Parked)
    (hs : SameSchedule k k') : Outcome cfg k k' := by
  refine ⟨⟨h, fun c hc hb => ?_⟩, hs.currentReady, fun ha _ => hs.agrees ha⟩
  rw [hs.switchPlan]
  exact hp c (hs.currentTask ▸ hc) (hs.state c ▸ hb)

/-- An operation that ends with a selection. -/
theorem Outcome.of_planned (h : Inv cfg k'.currentTick noneStale k') (hp : Planned cfg k' k'' b)
    (hready : k'.CurrentReady → k.CurrentReady) : Outcome cfg k k'' := by
  have hok : Inv cfg k''.currentTick noneStale k'' := by
    have htick : k''.currentTick = k'.currentTick := by rw [hp.replanned]
    rw [htick]
    exact hp.inv h
  exact ⟨⟨hok, hp.parked h⟩, fun hr => hready (hp.replanned.currentReady.mp hr),
    fun _ hr => hp.agrees hr⟩

/-! ## Waits, deadlines and owners -/

/-- No application task has begun or ended a wait, and no mutex has changed hands. -/
structure SameWaits (k k' : Kernel) : Prop where
  tick : k'.currentTick = k.currentTick
  tasks : ∀ t, t ≠ .timerService → (k'.tasks t).wait = (k.tasks t).wait ∧
    ((k'.tasks t).state = .blocked ↔ (k.tasks t).state = .blocked) ∧
    ((k.tasks t).Runnable → (k'.tasks t).Runnable)
  delayQueue : k'.delayQueue = k.delayQueue
  owners : ∀ m, (k'.mutexes m).owner = (k.mutexes m).owner
  semaphores : ∀ i, (k.semaphores i).SameButWaiters (k'.semaphores i)

theorem SameWaits.refl (k : Kernel) : SameWaits k k :=
  ⟨rfl, fun _ _ => ⟨rfl, Iff.rfl, id⟩, rfl, fun _ => rfl, fun _ => rfl⟩

theorem SameWaits.trans (h : SameWaits k k') (h' : SameWaits k' k'') : SameWaits k k'' where
  tick := h'.tick.trans h.tick
  tasks t ht := by
    obtain ⟨hwait, hblocked, hrun⟩ := h.tasks t ht
    obtain ⟨hwait', hblocked', hrun'⟩ := h'.tasks t ht
    exact ⟨hwait'.trans hwait, hblocked'.trans hblocked, hrun' ∘ hrun⟩
  delayQueue := h'.delayQueue.trans h.delayQueue
  owners m := (h'.owners m).trans (h.owners m)
  semaphores i := (h.semaphores i).trans (h'.semaphores i)

theorem Replanned.sameWaits (h : Replanned k k') : SameWaits k k' := by
  rw [h]
  exact ⟨rfl, fun _ _ => ⟨rfl, Iff.rfl, id⟩, rfl, fun _ => rfl, fun _ => rfl⟩

theorem Repriced.sameWaits {dir : Direction} (h : Repriced dir k k') : SameWaits k k' where
  tick := Kernel.of_rest Kernel.currentTick h.rest
  tasks t _ := by
    rw [h.tasks t]
    exact ⟨rfl, Iff.rfl, id⟩
  delayQueue := h.delayQueue
  owners m := by rw [h.mutexes m]
  semaphores i := h.semaphores i

theorem Switched.sameWaits {src dst : TaskId} (h : Switched cfg k k' src dst) : SameWaits k k' where
  tick := Kernel.of_rest Kernel.currentTick h.rest
  tasks t _ := ⟨by rw [h.task t], h.blocked_iff t, (h.runnable_iff t).mpr⟩
  delayQueue := h.delayQueue
  owners m := by rw [h.mutexes]
  semaphores i := by rw [h.semaphores]; rfl

/-! ## The current task and the queues along an operation -/

theorem Repriced.currentReady {dir : Direction} (h : Repriced dir k k') :
    k'.CurrentReady ↔ k.CurrentReady := by
  unfold Kernel.CurrentReady
  rw [h.currentTask]
  refine exists_congr fun c => and_congr_right fun _ => ?_
  rw [h.tasks c]

theorem Blocks.currentReady (h : Blocks cfg k k' c wait) (hr : k'.CurrentReady) :
    k.CurrentReady := by
  obtain ⟨c', hc', hst⟩ := hr
  rw [h.currentTask] at hc'
  have hne : c' ≠ c := by
    rintro rfl
    simp [h.state_eq] at hst
  rw [h.others c' hne] at hst
  exact ⟨c', hc', hst⟩

theorem Wakes.currentReady (h : Wakes cfg k k' t result) (ht : t ≠ .timerService)
    (hr : k'.CurrentReady) : k.CurrentReady := by
  obtain ⟨c, hc, hst⟩ := hr
  rw [h.currentTask] at hc
  have hne : c ≠ t := by
    rintro rfl
    simp [h.executing ht hc] at hst
  rw [(h.others c hne).1] at hst
  exact ⟨c, hc, hst⟩

theorem Wakes.prio_eq (h : Wakes cfg k k' t result) : k'.prio = k.prio :=
  funext fun u => (h.sameBases u).2.1

theorem Wakes.fifo (h : Wakes cfg k k' t result) : Fifo k k' := by
  refine .of_sublist (fun o => ?_) h.prio_eq
  rw [h.waiters]
  exact List.erase_sublist

theorem Blocks.prio_eq (h : Blocks cfg k k' c wait) : k'.prio = k.prio :=
  funext fun u => (h.sameBases u).2.1

/-- A task that begins to wait is queued behind its equals. -/
theorem Blocks.fifo (h : Blocks cfg k k' c wait) (hk : Inv cfg base stale k)
    (hr : (k.tasks c).Runnable) : Fifo k k' := by
  intro o a b hab heq
  rw [h.prio_eq] at heq
  have hnot : c ∉ k.waiters o := by
    rw [hk.wait.mem]
    simp [Kernel.waitOwners, ((hk.tasks c).free hr.not_blocked).2.2.2]
  rw [h.waiters] at hab
  split at hab
  · by_cases hbc : b = c
    · exact .inl (.inr (hbc ▸ hnot))
    · by_cases hac : a = c
      · subst hac
        have hlt : Outranks k.prio a b := by
          refine Ordered.rel_of_sublist_orderedInsert (hk.sorted o) hnot ?_ hab
          intro x _ y _ hax hxy
          exact lt_of_le_of_lt hxy hax
        unfold Outranks at hlt
        omega
      · refine .inr ⟨by rw [h.prio_eq], ?_⟩
        have herase := hab.erase c
        rw [List.erase_orderedInsert_of_notMem hnot] at herase
        rwa [List.erase_of_not_mem (by simp [Ne.symm hac, Ne.symm hbc])] at herase
  · exact .inr ⟨by rw [h.prio_eq], hab⟩

theorem Fifo.replanned (h : Fifo k k') (hk : Replanned k' k'') : Fifo k k'' := by
  have hw : k''.waiters = k'.waiters := by
    rw [hk]
    funext o
    cases o <;> rfl
  have hp : k''.prio = k'.prio := by rw [hk]
  unfold Fifo
  rw [hw, hp]
  exact h

theorem Repriced.keepsReady {dir : Direction} (h : Repriced dir k k') : KeepsReady k k' :=
  fun t ht => by rw [h.tasks t]; exact ht

theorem Blocks.keepsReady (h : Blocks cfg k k' c wait) (hc : (k.tasks c).state = .running) :
    KeepsReady k k' := by
  intro t ht
  have hne : t ≠ c := by
    rintro rfl
    simp [hc] at ht
  rw [h.others t hne]
  exact ht

/-- What happens to the schedule before the selection at the end of an operation. -/
structure Shifts (k k' : Kernel) : Prop where
  rest : k'.rest = k.rest
  running : k.lifecycle = .running
  currentTask : k'.currentTask = k.currentTask
  ready : k'.CurrentReady → k.CurrentReady
  service : (k'.tasks .timerService).state = .blocked ↔ (k.tasks .timerService).state = .blocked
  fifo : Fifo k k'
  plan : k'.switchPlan = k.switchPlan
  requests : k'.rescheduleRequests = k.rescheduleRequests
  keeps : KeepsReady k k'

/-- An operation on the schedule that ends with a selection. -/
theorem Shifts.scheduled (hs : Shifts k k') (h : Inv cfg k.currentTick noneStale k')
    (hp : Planned cfg k' k'' b) : Scheduled cfg k k'' := by
  have htick : k'.currentTick = k.currentTick := Kernel.of_rest Kernel.currentTick hs.rest
  have hrest' : k''.rest = k'.rest := by
    rw [hp.replanned]
    rfl
  have hcur : k''.currentTask = k'.currentTask := by rw [hp.replanned]
  refine ⟨.of_planned (htick ▸ h) hp hs.ready, hrest'.trans hs.rest, hcur.trans hs.currentTask,
    fun hl => absurd hs.running hl, ?_, hs.fifo.replanned hp.replanned,
    .of_planned hs.plan hs.keeps hp⟩
  rw [hp.replanned]
  exact hs.service

theorem Shifts.notifies (hs : Shifts k k') (hp : Planned cfg k' k'' b) :
    Notifies k (k''.notify b) := .of_planned hs.plan hs.requests hp

theorem Scheduled.notify (h : Scheduled cfg k k') (b : Bool) : Scheduled cfg k (k'.notify b) := by
  have hout : Outcome cfg k' (k'.notify b) :=
    .of_sameSchedule (h.ok.inv.sameTasks rfl) h.ok.parked ⟨rfl, rfl, rfl, rfl, fun _ => rfl⟩
  refine ⟨⟨hout.ok, fun hr => h.ready (hout.ready hr), fun ha hr => ?_⟩, h.rest, h.currentTask,
    h.unstarted, h.service, h.fifo.replanned (.notify k' b), h.replans.executing, h.replans.idle,
    h.replans.target⟩
  exact hout.agrees (h.agrees ha hr) hr

end RtsKernel
