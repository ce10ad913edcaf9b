import RtsKernel.Model.System
import RtsKernel.Operation.Outcome

/-!
# Effects

What a step does to the waits of the application tasks, to the deadlines they wait for and to the
owners of the mutexes: it begins one wait, ends one by a grant, ends those that have expired, moves
one mutex, or does nothing of the kind.
-/

namespace RtsKernel

variable {cfg : Config} {base : Tick} {stale : TaskId → Prop} {k k' : Kernel}
  {t u c : TaskId} {m i : Nat}

/-! ## Single effects -/

/-- The running task begins to wait. -/
structure Suspends (cfg : Config) (k k' : Kernel) (c : TaskId) (wait : Wait) : Prop where
  blocks : Blocks cfg k k' c wait
  current : k.currentTask = some c
  running : (k.tasks c).state = .running
  result : (k.tasks c).wait.result = .none
  application : c.IsApplication cfg

/-- The owner of a mutex passes it to the first waiter. -/
structure HandsOff (cfg : Config) (k k' : Kernel) (m : Nat) (former waiter : TaskId) : Prop where
  wakes : Wakes cfg k k' waiter .acquired
  current : k.currentTask = some former
  owner : (k.mutexes m).owner = some former
  head : (k.mutexes m).waiters.head? = some waiter
  mutexes : ∀ n, (k'.mutexes n).initialized = (k.mutexes n).initialized ∧
    (k'.mutexes n).owner = if n = m then some waiter else (k.mutexes n).owner

/-- The result a wait ends with when its deadline is reached. -/
def Wait.expiryResult (wait : Wait) : WaitResult := if wait.reason = .delay then .none else .timeout

/-- The waits of the first tasks of the delay queue have expired, in its order. -/
structure Expired (cfg : Config) (k k' : Kernel) (woken : List TaskId) : Prop where
  rest : k'.rest = k.rest
  currentTask : k'.currentTask = k.currentTask
  switchPlan : k'.switchPlan = k.switchPlan
  requests : k'.rescheduleRequests = k.rescheduleRequests
  delayQueue : k.delayQueue = woken ++ k'.delayQueue
  ended : ∀ t ∈ woken, (k'.tasks t).Runnable ∧
    (k'.tasks t).wait.result = (k.tasks t).wait.expiryResult
  executing : ∀ t ∈ woken, k.currentTask = some t → (k'.tasks t).state = .running
  kept : ∀ t, t ∉ woken → (k'.tasks t).wait = (k.tasks t).wait ∧
    (k'.tasks t).state = (k.tasks t).state
  owners : ∀ m, (k'.mutexes m).owner = (k.mutexes m).owner
  semaphores : ∀ i, (k.semaphores i).SameButWaiters (k'.semaphores i)
  waiters : ∀ o u, u ∈ k'.waiters o ↔ u ∈ k.waiters o ∧ u ∉ woken
  prio_le : ∀ u, k'.prio u ≤ k.prio u
  fifo : Fifo k k'
  turns : KeepsTurns k k'

/-- No application task waits or has a result to consume, and no mutex has an owner. -/
structure Kernel.Calm (k : Kernel) : Prop where
  tasks : ∀ t, (k.tasks t).wait.result = .none ∧ ((k.tasks t).state = .blocked → t = .timerService)
  delayQueue : k.delayQueue = []
  owners : ∀ m, (k.mutexes m).owner = none

/-- The clock has moved. -/
def Kernel.elapse (k : Kernel) (elapsed : Tick) : Kernel :=
  { k with currentTick := k.currentTick + elapsed }

/-- The ticks an event advances the clock by. -/
def Event.elapsed (cfg : Config) (k : Kernel) : Event → Tick
  | .tick isr elapsed => if AdvanceIsValid k isr elapsed then elapsed else 0
  | .skip isr elapsed => if AdvanceIsValid k (!isr) elapsed then elapsed else 0
  | .powerIdle isr result =>
    match powerPlanCompute cfg k isr with
    | some sleepTicks =>
      if result.ok = true ∧ result.elapsedTicks ≤ sleepTicks ∧ result.sourceIsValid = true ∧
        AdvanceIsValid k (!isr) result.elapsedTicks then result.elapsedTicks else 0
    | none => 0
  | _ => 0

/-! ## The effect of an event -/

inductive Effect (cfg : Config) (k k' : Kernel) : Event → Prop where
  | quiet {ev : Event} (same : SameWaits k k') (still : ev.elapsed cfg k = 0) : Effect cfg k k' ev
  | startup {ev : Event} (before : k.Calm) (after : k'.Calm)
      (semaphores : k'.semaphores = k.semaphores)
      (still : ev.elapsed cfg k = 0) : Effect cfg k k' ev
  | initialises {isr : Bool} {i n max : Nat} (fresh : (k.semaphores i).initialized = false)
      (same : SameWaits (k.updateSemaphore i fun _ => ⟨n, max, [], true⟩) k') :
      Effect cfg k k' (.semaphoreInit isr (some i) n max)
  | delays {isr : Bool} {d : Tick} {c : TaskId} {k₁ : Kernel} (positive : d ≠ 0)
      (range : d ≤ delayMax)
      (blocks : Suspends cfg k k₁ c (delayWait (k.currentTick + d))) (same : SameWaits k₁ k') :
      Effect cfg k k' (.delay isr d)
  | taken {isr : Bool} {i : Nat} {timeout : Tick} (available : 0 < (k.semaphores i).count)
      (same : SameWaits (k.updateSemaphore i fun s => { s with count := s.count - 1 }) k') :
      Effect cfg k k' (.take isr (some i) timeout)
  | takes {isr : Bool} {i : Nat} {timeout : Tick} {c : TaskId} {k₁ : Kernel}
      (positive : timeout ≠ 0)
      (range : timeout ≤ delayMax ∨ timeout = waitForever)
      (blocks : Suspends cfg k k₁ c
        (objectWait .semaphore (.semaphore i) k.currentTick timeout)) (same : SameWaits k₁ k') :
      Effect cfg k k' (.take isr (some i) timeout)
  | given {ev : Event} {i : Nat}
      (event : ∃ isr, ev = .give isr (some i) ∨ ev = .giveFromIsr isr (some i))
      (nobody : (k.semaphores i).waiters = [])
      (same : SameWaits (k.updateSemaphore i fun s => { s with count := s.count + 1 }) k') :
      Effect cfg k k' ev
  | grants {ev : Event} {i : Nat} {t : TaskId} {k₁ : Kernel}
      (event : ∃ isr, ev = .give isr (some i) ∨ ev = .giveFromIsr isr (some i))
      (head : (k.semaphores i).waiters.head? = some t) (wakes : Wakes cfg k k₁ t .acquired)
      (owners : KeepsOwners k k₁) (same : SameWaits k₁ k') : Effect cfg k k' ev
  | owns {isr : Bool} {m : Nat} {timeout : Tick} {c : TaskId} {k₁ : Kernel}
      (free : (k.mutexes m).owner = none) (current : k.currentTask = some c)
      (change : OwnerChanged k k₁ m (some c)) (same : SameWaits k₁ k') :
      Effect cfg k k' (.lock isr (some m) timeout)
  | locks {isr : Bool} {m : Nat} {timeout : Tick} {c : TaskId} {k₁ : Kernel}
      (positive : timeout ≠ 0)
      (range : timeout ≤ delayMax ∨ timeout = waitForever)
      (blocks : Suspends cfg k k₁ c (objectWait .mutex (.mutex m) k.currentTick timeout))
      (same : SameWaits k₁ k') : Effect cfg k k' (.lock isr (some m) timeout)
  | disowns {isr : Bool} {m : Nat} {c : TaskId} {k₁ : Kernel} (owner : (k.mutexes m).owner = some c)
      (current : k.currentTask = some c) (nobody : (k.mutexes m).waiters = [])
      (change : OwnerChanged k k₁ m none) (same : SameWaits k₁ k') :
      Effect cfg k k' (.unlock isr (some m))
  | handsOff {isr : Bool} {m : Nat} {former waiter : TaskId} {k₁ : Kernel}
      (change : HandsOff cfg k k₁ m former waiter) (same : SameWaits k₁ k') :
      Effect cfg k k' (.unlock isr (some m))
  | consumes {c : TaskId} (current : k.currentTask = some c)
      (same : SameWaits (k.updateTask c fun task =>
        { task with wait := { task.wait with result := .none } }) k') :
      Effect cfg k k' .consume
  | expires {ev : Event} {woken : List TaskId} {k₁ : Kernel} (moved : ev.elapsed cfg k ≠ 0)
      (range : ev.elapsed cfg k ≤ delayMax)
      (expired : Expired cfg (k.elapse (ev.elapsed cfg k)) k₁ woken)
      (exact : ∀ t ∈ k.delayQueue,
        t ∈ woken ↔ distance k.currentTick (k.wake t) ≤ (ev.elapsed cfg k).toNat)
      (same : SameWaits k₁ k') : Effect cfg k k' ev

/-! ## Operations that block or wake one task -/

theorem Inv.running_of_blocked (h : Inv cfg base stale k) (hb : (k.tasks t).state = .blocked)
    (ht : t ≠ .timerService) : k.lifecycle = .running := by
  by_contra hl
  exact ht (((h.phase.calm hl t).2 (by simp [hb])).mp hb)

theorem Inv.isApplication (h : Inv cfg base stale k) (hd : (k.tasks t).state ≠ .dormant)
    (hi : ¬ TaskIsIdle k t) (hs : ¬ TaskIsTimerService k t) : t.IsApplication cfg := by
  have hl := h.lifecycle_of_state hd
  obtain happ | rfl | rfl := ((h.tasks t).valid hd).known
  · exact happ
  · exact absurd ⟨h.phase.idleTask hl, rfl⟩ hi
  · exact absurd ⟨h.phase.serviceTask hl, rfl⟩ hs

theorem TaskId.IsApplication.ne_timerService (h : t.IsApplication cfg) : t ≠ .timerService := by
  rintro rfl
  exact h

theorem TaskId.IsApplication.ne_idle (h : t.IsApplication cfg) : t ≠ .idle := by
  rintro rfl
  exact h

theorem inWindow_add {now d : Tick} (h0 : d ≠ 0) (hd : d ≤ delayMax) : InWindow now (now + d) := by
  have hpos : d.toNat ≠ 0 := fun hz => h0 (BitVec.eq_of_toNat_eq (by simpa using hz))
  rw [InWindow, distance_of_add]
  exact ⟨by omega, toNat_le_of_le_delayMax hd⟩

theorem objectWait_timed {reason : WaitReason} {o : WaitObject} {now timeout : Tick}
    (hr : reason ≠ .delay) : (objectWait reason o now timeout).Timed ↔ timeout ≠ waitForever := by
  simp [Wait.Timed, objectWait, hr]

theorem objectWait_inWindow {reason : WaitReason} {o : WaitObject} {now timeout : Tick}
    (hr : reason ≠ .delay) (h0 : timeout ≠ 0) (hrange : timeout ≤ delayMax ∨ timeout = waitForever)
    (ht : (objectWait reason o now timeout).Timed) :
    InWindow now (objectWait reason o now timeout).wakeTick := by
  have hne := (objectWait_timed hr).mp ht
  simp only [objectWait, if_pos hne]
  exact inWindow_add h0 (hrange.resolve_right hne)

theorem CurrentCanBlock.suspends {k₁ : Kernel} {wait : Wait} (hcan : CurrentCanBlock cfg k c)
    (happ : c.IsApplication cfg) (hbl : Blocks cfg k k₁ c wait) : Suspends cfg k k₁ c wait :=
  ⟨hbl, hcan.1, hcan.2.1, hcan.2.2.2.2.2.2.1, happ⟩

theorem tolerated_selectRunnable (ready owns : Prop) (k : Kernel) :
    Tolerated ready owns (.assertion .selectRunnable) k :=
  ⟨by simp [Site.Excluded], by simp [Site.Outgoing]⟩

theorem tolerated_prepareOutgoing {ready owns : Prop} (h : ready) (k : Kernel) :
    Tolerated ready owns (.assertion .prepareOutgoing) k := ⟨by simp [Site.Excluded], fun _ => h⟩

theorem Blocks.shifts {wait : Wait} (h : Blocks cfg k k' c wait) (hk : Inv cfg base stale k)
    (hc : (k.tasks c).state = .running) (hservice : c ≠ .timerService) : Shifts k k' where
  rest := h.rest
  running := hk.running_of_current (hk.running c hc)
  currentTask := h.currentTask
  ready := h.currentReady
  service := by rw [h.others _ hservice.symm]
  fifo := h.fifo hk (.inr hc)
  plan := h.switchPlan
  requests := h.requests
  keeps := h.keepsReady hc

theorem Wakes.shifts {result : WaitResult} (h : Wakes cfg k k' t result)
    (hk : Inv cfg base stale k) (hb : (k.tasks t).state = .blocked) (ht : t ≠ .timerService) :
    Shifts k k' where
  rest := h.rest
  running := hk.running_of_blocked hb ht
  currentTask := h.currentTask
  ready := h.currentReady ht
  service := by rw [(h.others _ ht.symm).1]
  fifo := h.fifo
  plan := h.switchPlan
  requests := h.requests
  keeps := by
    intro u hu
    have hne : u ≠ t := by
      rintro rfl
      simp [hb] at hu
    rw [(h.others u hne).1]
    exact hu

/-- Boosts after an operation that leaves the priorities alone, or the other way around. -/
theorem Shifts.repriced {dir : Direction} {k₁ k₂ : Kernel} (h : Shifts k k₁)
    (hr : Repriced dir k₁ k₂) (hprio : k₁.prio = k.prio) : Shifts k k₂ where
  rest := hr.rest.trans h.rest
  running := h.running
  currentTask := hr.currentTask.trans h.currentTask
  ready hrdy := h.ready (hr.currentReady.mp hrdy)
  service := by
    rw [hr.tasks]
    exact h.service
  fifo := by
    refine h.fifo.trans hr.fifo (fun u => ?_) hr.direction
      fun o b hb hnot => absurd ((hr.waiters o b).mp hb) hnot
    rw [hprio]
    exact .refl _ _
  plan := hr.switchPlan.trans h.plan
  requests := hr.requests.trans h.requests
  keeps := h.keeps.trans hr.keepsReady

/-! ## The outcome of a call -/

/-- What every call that can schedule leaves behind, with the status it returns: it may fail only
without a trace. -/
structure Served (cfg : Config) (k : Kernel) (ev : Event) (status : Status) (k' : Kernel) :
    Prop where
  scheduled : Scheduled cfg k k'
  effect : Effect cfg k k' ev
  notifies : Notifies k k'
  failed : status ≠ .ok → k' = k

theorem Served.quiet {ev : Event} {status : Status} (h : KernelOk cfg k)
    (hev : ev.elapsed cfg k = 0) : Served cfg k ev status k :=
  ⟨.refl h, .quiet (.refl k) hev, .refl k, fun _ => rfl⟩

/-- The end of a blocking call, after the boosts it has caused. -/
theorem Suspends.scheduled {k₁ k₂ k₃ : Kernel} {wait : Wait} {b : Bool}
    (hs : Suspends cfg k k₁ c wait) (h : KernelOk cfg k) (hr : Repriced .up k₁ k₂)
    (h₂ : Inv cfg k.currentTick noneStale k₂) (hp : Planned cfg k₂ k₃ b) :
    Scheduled cfg k (k₃.notify b) ∧ SameWaits k₁ (k₃.notify b) ∧ Notifies k (k₃.notify b) := by
  have hshift : Shifts k k₂ := (hs.blocks.shifts h.inv hs.running
    hs.application.ne_timerService).repriced hr hs.blocks.prio_eq
  exact ⟨(hshift.scheduled h₂ hp).notify b,
    hr.sameWaits.trans (hp.replanned.trans (.notify k₃ b)).sameWaits, hshift.notifies hp⟩

end RtsKernel
