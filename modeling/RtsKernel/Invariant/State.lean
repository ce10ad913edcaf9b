import RtsKernel.Invariant.Locks
import RtsKernel.Invariant.Queues
import RtsKernel.Model.Mutex
import RtsKernel.Model.Semaphore

/-!
# The kernel invariant

`Inv` says, for every task, that its control block is well formed and that it is linked exactly
where its state and wait record say, and ties the current task and the switch plan to the phase of
the kernel. It is kept by every operation; inside an operation it may hold with some priorities
stale and with the delay queue measured from an earlier tick.
-/

namespace RtsKernel

open Halting Prog

/-! ## Tasks -/

/-- `READY` or `RUNNING`. -/
def Tcb.Runnable (task : Tcb) : Prop := task.state = .ready ∨ task.state = .running

/-- Blocked until a deadline, or at most until one. -/
def Tcb.Timed (task : Tcb) : Prop :=
  task.state = .blocked ∧ (task.wait.reason = .delay ∨ task.wait.timeoutActive = true)

/-- The control block of a task that has been created. -/
structure Tcb.Valid (cfg : Config) (t : TaskId) (task : Tcb) : Prop where
  allocated : task.slotState = .allocated
  context : task.HasContext
  magic : task.MagicValid cfg
  known : t.IsApplication cfg ∨ t = .idle ∨ t = .timerService
  base_le : task.basePriority ≤ task.priority
  prio_lt : task.priority < cfg.priorityCount
  base_zero : task.basePriority = 0 ↔ t = .idle
  period : cfg.policy = .rms → t.IsApplication cfg → task.period ≠ 0

/-- What a blocked task waits for. Only application tasks wait for time, semaphores and mutexes;
a task waits for a mutex only while it may own one more. -/
inductive Tcb.Waits (cfg : Config) (t : TaskId) (task : Tcb) : Prop where
  | delay (app : t.IsApplication cfg) (reason : task.wait.reason = .delay)
      (object : task.wait.object = none) (timeout : task.wait.timeoutActive = false)
      (owner : task.waitOwner = none)
  | semaphore (i : Nat) (app : t.IsApplication cfg) (reason : task.wait.reason = .semaphore)
      (object : task.wait.object = some (.semaphore i))
      (owner : task.waitOwner = some (.semaphore i))
  | mutex (m : Nat) (app : t.IsApplication cfg) (reason : task.wait.reason = .mutex)
      (object : task.wait.object = some (.mutex m)) (owner : task.waitOwner = some (.mutex m))
      (capacity : task.ownedMutexCount < cfg.maxMutexesPerTask)
  | service (id : t = .timerService) (reason : task.wait.reason = .timerService)
      (object : task.wait.object = none) (timeout : task.wait.timeoutActive = false)
      (owner : task.waitOwner = none)

structure TaskOk (cfg : Config) (t : TaskId) (task : Tcb) : Prop where
  dormant : task.state = .dormant → task.slotState ≠ .allocated
  valid : task.state ≠ .dormant → task.Valid cfg t
  free : task.state ≠ .blocked → task.wait.reason = .none ∧ task.wait.object = none ∧
    task.wait.timeoutActive = false ∧ task.waitOwner = none
  waits : task.state = .blocked → task.wait.result = .none ∧ task.Waits cfg t

/-! ## Phase and plan -/

/-- What the lifecycle says of the private tasks, the current task and the mutexes. -/
structure PhaseOk (k : Kernel) : Prop where
  reset : k.lifecycle = .reset → ∀ t, (k.tasks t).state = .dormant
  idleTask : k.lifecycle ≠ .reset → k.idleTask = some .idle
  serviceTask : k.lifecycle ≠ .reset → k.timerServiceTask = some .timerService
  idle : k.lifecycle ≠ .reset → (k.tasks .idle).Runnable
  service : k.lifecycle ≠ .reset → (k.tasks .timerService).state ≠ .dormant
  still : k.lifecycle ≠ .running → k.currentTask = none ∧ k.switchPlan.pending = false ∧
    k.switchPlan.active = false ∧ ∀ m, (k.mutexes m).owner = none
  calm : k.lifecycle ≠ .running → ∀ t, (k.tasks t).wait.result = .none ∧
    ((k.tasks t).state ≠ .dormant → ((k.tasks t).state = .blocked ↔ t = .timerService))
  current : k.lifecycle = .running → ∃ c, k.currentTask = some c ∧ (k.tasks c).state ≠ .dormant

/-- The part of the kernel that scheduling does not touch. -/
def Kernel.rest (k : Kernel) : Kernel :=
  { k with
    tasks := fun _ => {}
    currentTask := none
    switchPlan := {}
    readySet := fun _ => []
    edfReady := []
    policyReleaseSequence := 0
    delayQueue := []
    semaphores := fun _ => {}
    mutexes := fun _ => {}
    counters := {}
    rescheduleRequests := 0 }

theorem Kernel.of_rest {α : Type} {k k' : Kernel} (f : Kernel → α) (h : k'.rest = k.rest) :
    f k'.rest = f k.rest := by rw [h]

/-- The lifecycle and the private tasks are out of reach of scheduling. -/
theorem PhaseOk.congr {k k' : Kernel} (h : PhaseOk k) (hrest : k'.rest = k.rest)
    (hcur : k'.currentTask = k.currentTask)
    (hstill : k.lifecycle ≠ .running → k'.switchPlan = k.switchPlan ∧
      (∀ m, (k'.mutexes m).owner = (k.mutexes m).owner) ∧
      ∀ t, (k'.tasks t).wait = (k.tasks t).wait ∧ (k'.tasks t).state = (k.tasks t).state)
    (hdorm : ∀ t, (k'.tasks t).state = .dormant ↔ (k.tasks t).state = .dormant)
    (hidle : (k.tasks .idle).Runnable → (k'.tasks .idle).Runnable) : PhaseOk k' := by
  have hlife : k'.lifecycle = k.lifecycle := Kernel.of_rest Kernel.lifecycle hrest
  obtain ⟨h1, h2, h3, h4, h5, h6, h6', h7⟩ := h
  rw [← hlife] at h1 h2 h3 h4 h5 h6 h6' h7 hstill
  refine ⟨?_, ?_, ?_, ?_, ?_, ?_, ?_, ?_⟩
  · exact fun hl t => (hdorm t).mpr (h1 hl t)
  · exact fun hl => (Kernel.of_rest Kernel.idleTask hrest).trans (h2 hl)
  · exact fun hl => (Kernel.of_rest Kernel.timerServiceTask hrest).trans (h3 hl)
  · exact fun hl => hidle (h4 hl)
  · exact fun hl hd => h5 hl ((hdorm _).mp hd)
  · intro hl
    obtain ⟨hc, hpend, hact, ho⟩ := h6 hl
    obtain ⟨hplan, howner, -⟩ := hstill hl
    exact ⟨hcur.trans hc, hplan ▸ hpend, hplan ▸ hact, fun m => (howner m).trans (ho m)⟩
  · intro hl t
    obtain ⟨hwait, hst⟩ := (hstill hl).2.2 t
    rw [hwait, hst]
    exact h6' hl t
  · intro hl
    obtain ⟨c, hc, hd⟩ := h7 hl
    exact ⟨c, hcur.trans hc, fun hd' => hd ((hdorm c).mp hd')⟩

/-- A pending or active plan leaves the current task for another one. -/
structure PlanOk (current : Option TaskId) (plan : SwitchPlan) : Prop where
  source : plan.pending = true ∨ plan.active = true → plan.fromTask = current
  target : plan.pending = true ∨ plan.active = true →
    ∃ d, plan.toTask = some d ∧ current ≠ some d
  exclusive : plan.pending = true → plan.active = false

/-- A semaphore hands out what it has before anyone waits for it. -/
structure SemaphoreOk (s : Semaphore) : Prop where
  initialized : s.initialized = true → 0 < s.maximumCount ∧ s.count ≤ s.maximumCount
  uninitialized : s.initialized = false → s.waiters = []
  available : 0 < s.count → s.waiters = []

/-! ## The invariant -/

structure Inv (cfg : Config) (base : Tick) (stale : TaskId → Prop) (k : Kernel) : Prop where
  tasks : ∀ t, TaskOk cfg t (k.tasks t)
  ready : ReadyOk cfg k.readySet k.edfReady k.prio fun t => (k.tasks t).Runnable
  delay : DelayOk base k.delayQueue k.wake fun t => (k.tasks t).Timed
  wait : WaitOk cfg k.waiters k.prio k.waitOwners none
  locks : Locks cfg stale k.mutexes k.tasks k.currentTask
  semaphores : ∀ i, SemaphoreOk (k.semaphores i)
  running : ∀ t, (k.tasks t).state = .running → k.currentTask = some t
  phase : PhaseOk k
  plan : PlanOk k.currentTask k.switchPlan

/-- No priority is stale. -/
abbrev noneStale : TaskId → Prop := fun _ => False

/-- Only the clock, the timers, the counters and the requests to the port have changed. -/
def SameTasks (k k' : Kernel) : Prop :=
  k' = { k with
    currentTick := k'.currentTick
    timers := k'.timers
    activeQueue := k'.activeQueue
    callbackQueue := k'.callbackQueue
    callbackQueueMaximumDepth := k'.callbackQueueMaximumDepth
    timerAllocatedCount := k'.timerAllocatedCount
    timerNextFreeHint := k'.timerNextFreeHint
    serviceWork := k'.serviceWork
    counters := k'.counters
    rescheduleRequests := k'.rescheduleRequests }

variable {cfg : Config} {base : Tick} {stale : TaskId → Prop} {k k' : Kernel} {t u c : TaskId}
  {m i : Nat} {task : Tcb}

theorem Inv.sameTasks (h : Inv cfg base stale k) (hk : SameTasks k k') : Inv cfg base stale k' := by
  obtain ⟨h1, h2, h3, h4, h5, h6, h7, ⟨p1, p2, p3, p4, p5, p6, p7, p8⟩, h9⟩ := h
  rw [hk]
  exact ⟨h1, h2, h3, h4, h5, h6, h7, ⟨p1, p2, p3, p4, p5, p6, p7, p8⟩, h9⟩

/-! ## What the invariant says of one task -/

theorem Tcb.Runnable.not_blocked (h : task.Runnable) : task.state ≠ .blocked := by
  obtain h | h := h <;> simp [h]

theorem Tcb.Runnable.not_dormant (h : task.Runnable) : task.state ≠ .dormant := by
  obtain h | h := h <;> simp [h]

theorem Tcb.Runnable.not_timed (h : task.Runnable) : ¬ task.Timed := fun hc => h.not_blocked hc.1

theorem Tcb.not_runnable_of_blocked (h : task.state = .blocked) : ¬ task.Runnable := by
  rintro (hc | hc) <;> simp [h] at hc

/-- The reason of a wait for an object. -/
def WaitObject.reason : WaitObject → WaitReason
  | .semaphore _ => .semaphore
  | .mutex _ => .mutex

/-- A task is linked in a wait list exactly while it waits for that object. -/
theorem TaskOk.waitOwner_eq_some {o : WaitObject} (h : TaskOk cfg t task) :
    task.waitOwner = some o ↔
      task.state = .blocked ∧ task.wait.reason = o.reason ∧ task.wait.object = some o := by
  by_cases hb : task.state = .blocked
  · cases (h.waits hb).2 with
    | delay _ hr hobj _ ho => cases o <;> simp [hr, hobj, ho]
    | semaphore i _ hr hobj ho => cases o <;> simp [hb, hr, hobj, ho, WaitObject.reason]
    | mutex m _ hr hobj ho => cases o <;> simp [hb, hr, hobj, ho, WaitObject.reason]
    | service _ hr hobj _ ho => cases o <;> simp [hr, hobj, ho]
  · simp [hb, (h.free hb).2.2.2]

/-- What a task waits for, by the reason it gives. -/
theorem TaskOk.exists_object (h : TaskOk cfg t task) (hb : task.state = .blocked)
    (hr : task.wait.reason = .semaphore ∨ task.wait.reason = .mutex) :
    ∃ o, task.waitOwner = some o ∧ task.wait.object = some o ∧ task.wait.reason = o.reason := by
  cases (h.waits hb).2 with
  | delay _ hr' => simp [hr'] at hr
  | semaphore i _ hr' hobj ho => exact ⟨_, ho, hobj, hr'⟩
  | mutex m _ hr' hobj ho => exact ⟨_, ho, hobj, hr'⟩
  | service _ hr' => simp [hr'] at hr

/-- Only application tasks wait for anything but timer work. -/
theorem TaskOk.isApplication (h : TaskOk cfg t task) (hb : task.state = .blocked)
    (hr : task.wait.reason ≠ .timerService) : t.IsApplication cfg := by
  cases (h.waits hb).2 with
  | delay happ => exact happ
  | semaphore _ happ => exact happ
  | mutex _ happ => exact happ
  | service _ hr' => exact absurd hr' hr

/-- A task waits for a mutex only while it may own one more. -/
theorem TaskOk.capacity (h : TaskOk cfg t task) (hb : task.state = .blocked)
    (hr : task.wait.reason = .mutex) : task.ownedMutexCount < cfg.maxMutexesPerTask := by
  cases (h.waits hb).2 with
  | delay _ hr' => simp [hr] at hr'
  | semaphore _ _ hr' => simp [hr] at hr'
  | mutex _ _ _ _ _ hcap => exact hcap
  | service _ hr' => simp [hr] at hr'

namespace Inv

theorem lifecycle_of_state (h : Inv cfg base stale k) (ht : (k.tasks t).state ≠ .dormant) :
    k.lifecycle ≠ .reset := fun hr => ht (h.phase.reset hr t)

theorem not_dormant_of_current (h : Inv cfg base stale k) (hc : k.currentTask = some c) :
    (k.tasks c).state ≠ .dormant := by
  by_cases hl : k.lifecycle = .running
  · obtain ⟨c', hc', hd⟩ := h.phase.current hl
    rw [hc] at hc'
    exact Option.some.inj hc' ▸ hd
  · simp [(h.phase.still hl).1] at hc

theorem running_of_current (h : Inv cfg base stale k) (hc : k.currentTask = some c) :
    k.lifecycle = .running := by
  by_contra hl
  simp [(h.phase.still hl).1] at hc

theorem policyContains_iff (h : Inv cfg base stale k) :
    PolicyContains cfg k t ↔ (k.tasks t).Runnable := RtsKernel.policyContains_iff h.ready

theorem mem_delayQueue (h : Inv cfg base stale k) : t ∈ k.delayQueue ↔ (k.tasks t).Timed :=
  h.delay.mem t

/-- A task of priority zero is the idle task. -/
theorem eq_idle_of_prio (h : Inv cfg base stale k) (hd : (k.tasks t).state ≠ .dormant)
    (hp : (k.tasks t).priority = 0) : t = .idle := by
  have hv := (h.tasks t).valid hd
  have := hv.base_le
  exact hv.base_zero.mp (by omega)

theorem prio_pos (h : Inv cfg base stale k) (hd : (k.tasks t).state ≠ .dormant) (ht : t ≠ .idle) :
    0 < (k.tasks t).priority :=
  Nat.pos_of_ne_zero fun hp => ht (h.eq_idle_of_prio hd hp)

theorem policyValidate (h : Inv cfg base stale k) (hd : (k.tasks t).state ≠ .dormant)
    {b : Bool} (hb : (k.tasks t).Runnable ↔ b = true) : PolicyValidate cfg k t b := by
  refine ⟨h.policyContains_iff.trans hb, fun hrms => ?_⟩
  have hl := h.lifecycle_of_state hd
  obtain happ | rfl | rfl := ((h.tasks t).valid hd).known
  · exact .inr (.inr (((h.tasks t).valid hd).period hrms happ))
  · exact .inl (h.phase.idleTask hl)
  · exact .inr (.inl (h.phase.serviceTask hl))

theorem policyValidate_true_iff (h : Inv cfg base stale k) (hd : (k.tasks t).state ≠ .dormant) :
    PolicyValidate cfg k t true ↔ (k.tasks t).Runnable :=
  ⟨fun hv => h.policyContains_iff.mp (hv.1.mpr rfl), fun hr => h.policyValidate hd (by simp [hr])⟩

/-- `rts_scheduler_task_is_runnable` accepts exactly the runnable tasks, except a boosted idle
task. -/
theorem taskIsRunnable_iff (h : Inv cfg base stale k) : TaskIsRunnable cfg k t ↔
    (k.tasks t).Runnable ∧ (t = .idle → (k.tasks t).priority = 0) := by
  constructor
  · rintro ⟨-, -, -, -, -, -, -, -, -, hid, hst, -, -⟩
    refine ⟨hst.imp id And.right, ?_⟩
    rintro rfl
    by_contra hp
    rw [IdentityIsValid, if_neg hp] at hid
    obtain happ | ⟨-, hsvc⟩ := hid.2
    · exact happ
    · simp at hsvc
  · rintro ⟨hr, hidle⟩
    have hd := hr.not_dormant
    have hl := h.lifecycle_of_state hd
    have hv := (h.tasks t).valid hd
    obtain ⟨hreason, hobj, hto, hwo⟩ := (h.tasks t).free hr.not_blocked
    refine ⟨hv.context, hreason, hobj, hto, hwo, fun hm => hr.not_timed (h.mem_delayQueue.mp hm),
      h.policyValidate hd (by simp [hr]), hv.base_le, lt_of_le_of_lt hv.base_le hv.prio_lt, ?_, ?_,
      hv.allocated, hv.magic⟩
    · unfold IdentityIsValid
      split <;> rename_i hp
      · have hti := h.eq_idle_of_prio hd hp
        exact ⟨hti ▸ h.phase.idleTask hl, hti⟩
      · refine ⟨hv.prio_lt, ?_⟩
        obtain happ | rfl | rfl := hv.known
        · exact .inl happ
        · exact absurd (hidle rfl) hp
        · exact .inr ⟨h.phase.serviceTask hl, rfl⟩
    · exact hr.imp id fun hrun => ⟨h.running t hrun, hrun⟩

theorem idle_not_blocked (h : Inv cfg base stale k) : (k.tasks .idle).state ≠ .blocked := by
  intro hb
  have hl := h.lifecycle_of_state (t := .idle) (by simp [hb])
  exact (h.phase.idle hl).not_blocked hb

/-- A blocked application task satisfies one of the two checks on blocked tasks, and the timer
service satisfies the second. -/
theorem taskIsBlocked (h : Inv cfg base stale k) (hb : (k.tasks t).state = .blocked) :
    (k.tasks t).wait.reason = .delay ∧ TaskIsBlockedDelay cfg k t ∨
    (k.tasks t).wait.reason ≠ .delay ∧ TaskIsBlockedWait cfg k t := by
  have hd : (k.tasks t).state ≠ .dormant := by simp [hb]
  have hl := h.lifecycle_of_state hd
  have hv := (h.tasks t).valid hd
  have hni : t ≠ .idle := by
    rintro rfl
    exact h.idle_not_blocked hb
  have hidle : k.idleTask ≠ some t := by
    rw [h.phase.idleTask hl]
    simpa using Ne.symm hni
  have hval : PolicyValidate cfg k t false :=
    h.policyValidate hd (by simp [Tcb.not_runnable_of_blocked hb])
  have hpos := h.prio_pos hd hni
  obtain ⟨hres, hw⟩ := (h.tasks t).waits hb
  have hservice : t.IsApplication cfg → ¬ TaskIsTimerService k t := by
    rintro happ ⟨-, rfl⟩
    exact happ
  cases hw with
  | delay happ hreason hobj hto hwo =>
    exact .inl ⟨hreason, hidle, happ, hv.allocated, hb, hreason, hobj, hto, hwo, hv.context, hpos,
      hv.prio_lt, hval, h.mem_delayQueue.mpr ⟨hb, .inl hreason⟩, hv.magic⟩
  | semaphore i happ hreason hobj hwo =>
    refine .inr ⟨by simp [hreason], hidle, ?_⟩
    rw [if_neg (hservice happ)]
    refine ⟨happ, hv.allocated, hb, hres, ?_, hv.context, hpos, hv.prio_lt, hval, ?_, hv.magic⟩
    · simp [Wait.Waiters, hreason, hobj, hwo]
    · rw [h.mem_delayQueue]
      simp [Tcb.Timed, hb, hreason]
  | mutex m happ hreason hobj hwo _ =>
    refine .inr ⟨by simp [hreason], hidle, ?_⟩
    rw [if_neg (hservice happ)]
    refine ⟨happ, hv.allocated, hb, hres, ?_, hv.context, hpos, hv.prio_lt, hval, ?_, hv.magic⟩
    · simp [Wait.Waiters, hreason, hobj, hwo]
    · rw [h.mem_delayQueue]
      simp [Tcb.Timed, hb, hreason]
  | service hid hreason hobj hto hwo =>
    refine .inr ⟨by simp [hreason], hidle, ?_⟩
    rw [if_pos ⟨hid ▸ h.phase.serviceTask hl, hid⟩]
    refine ⟨hv.allocated, hb, hreason, hres, hobj, hto, hwo, ?_, hval, hv.magic⟩
    rw [h.mem_delayQueue]
    simp [Tcb.Timed, hreason, hto]

/-- Boosting concerns the idle task only while it is not the current one. -/
theorem idle_prio (h : Inv cfg base stale k) (hs : ¬ stale .idle)
    (hc : k.currentTask = some .idle) : (k.tasks .idle).priority = 0 := by
  have hv := (h.tasks .idle).valid (h.not_dormant_of_current hc)
  obtain hbase | ⟨m, u, hm, hu, -⟩ := (h.locks.inherits .idle hs).1
  · rw [hbase, hv.base_zero]
  · rw [h.locks.idle hc m hm] at hu
    simp at hu

/-- The current task is a valid outgoing task unless it is `READY`. -/
theorem switchOutgoingIsValid_iff (h : Inv cfg base stale k) (hs : ¬ stale .idle)
    (hc : k.currentTask = some c) :
    SwitchOutgoingIsValid cfg k c ↔ (k.tasks c).state ≠ .ready := by
  constructor
  · rintro ⟨-, ⟨hst, -⟩ | ⟨hst, -⟩⟩ <;> simp [hst]
  · intro hnr
    refine ⟨hc, ?_⟩
    have hd := h.not_dormant_of_current hc
    cases hst : (k.tasks c).state with
    | dormant => exact absurd hst hd
    | ready => exact absurd hst hnr
    | running =>
      refine .inl ⟨rfl, h.taskIsRunnable_iff.mpr ⟨.inr hst, ?_⟩⟩
      rintro rfl
      exact h.idle_prio hs hc
    | blocked => exact .inr ⟨rfl, (h.taskIsBlocked hst).imp And.right And.right⟩

theorem currentIsValid (h : Inv cfg base stale k) (hs : ¬ stale .idle)
    (hc : k.currentTask = some c) (hrun : (k.tasks c).state = .running) : CurrentIsValid cfg k := by
  unfold CurrentIsValid
  rw [hc]
  refine ⟨.inr (h.running_of_current hc), hrun, h.taskIsRunnable_iff.mpr ⟨.inr hrun, ?_⟩⟩
  rintro rfl
  exact h.idle_prio hs hc

/-! ## What it says of the objects -/

theorem mutexIsValid (h : Inv cfg base stale k) (hm : (k.mutexes m).initialized = true) :
    MutexIsValid cfg k m := by
  refine ⟨hm, h.wait.validate _, ?_⟩
  obtain ⟨owned, hown⟩ := h.locks.owned
  split <;> rename_i ho
  · exact ⟨(hown.free m ho).1, (hown.free m ho).2, h.locks.unowned m ho⟩
  · exact (hown.isList _).head_or_prev ((hown.mem _ m).mpr ho)

theorem semaphoreIsValid (h : Inv cfg base stale k) (hi : (k.semaphores i).initialized = true) :
    SemaphoreIsValid cfg k i :=
  ⟨hi, ((h.semaphores i).initialized hi).1, ((h.semaphores i).initialized hi).2,
    h.wait.validate _⟩

end Inv

end RtsKernel
