import RtsKernel.Invariant.Ranking
import RtsKernel.Operation.Time

/-!
# Startup

Before the scheduler runs nobody waits, no mutex has an owner and every priority is a base priority,
so the invariant comes down to the control blocks and the ready queues (`Unstarted`). The task pool
fills from its first slot on, and the slots that are left have never been written (`Pool`).
-/

namespace RtsKernel

open Halting Prog

variable {cfg : Config} {base : Tick} {stale : TaskId → Prop} {k k₁ k' : Kernel} {t u c : TaskId}
  {i : Nat} {E : Fatal → Kernel → Prop}

/-! ## Before the scheduler runs -/

/-- The task waits for nothing it has been granted, owns nothing and has not been boosted. -/
structure Tcb.Plain (task : Tcb) : Prop where
  result : task.wait.result = .none
  head : task.ownedMutexHead = none
  tail : task.ownedMutexTail = none
  count : task.ownedMutexCount = 0
  priority : task.priority = task.basePriority

/-- What the invariant says before the scheduler runs. -/
structure Unstarted (cfg : Config) (k : Kernel) : Prop where
  lifecycle : k.lifecycle ≠ .running
  tasks : ∀ t, TaskOk cfg t (k.tasks t)
  plain : ∀ t, (k.tasks t).Plain
  state : ∀ t, (k.tasks t).state = .dormant ∨
    (k.tasks t).state = if t = .timerService then .blocked else .ready
  ready : ReadyOk cfg k.readySet k.edfReady k.prio fun t => (k.tasks t).Runnable
  reset : k.lifecycle = .reset → ∀ t, (k.tasks t).state = .dormant
  named : k.lifecycle ≠ .reset → k.idleTask = some .idle ∧ k.timerServiceTask = some .timerService ∧
    (k.tasks .idle).state ≠ .dormant ∧ (k.tasks .timerService).state ≠ .dormant
  still : k.currentTask = none ∧ k.switchPlan.pending = false ∧ k.switchPlan.active = false
  delayQueue : k.delayQueue = []
  semaphores : ∀ i, SemaphoreOk (k.semaphores i) ∧ (k.semaphores i).waiters = []
  mutexes : ∀ m, (k.mutexes m).owner = none ∧ (k.mutexes m).waiters = [] ∧
    (k.mutexes m).ownedPrevious = none ∧ (k.mutexes m).ownedNext = none

theorem Inv.unstarted (h : Inv cfg base noneStale k) (hl : k.lifecycle ≠ .running) :
    Unstarted cfg k := by
  obtain ⟨hcur, hpend, hact, howner⟩ := h.phase.still hl
  have hcalm := h.phase.calm hl
  have hnotRunning : ∀ t, (k.tasks t).state ≠ .running := by
    intro t ht
    have := h.running t ht
    simp [hcur] at this
  have hwaiting : ∀ t, (k.tasks t).state = .blocked → t = .timerService := fun t hb =>
    ((hcalm t).2 (by simp [hb])).mp hb
  have hnil : ∀ o, k.waiters o = [] := by
    intro o
    rw [List.eq_nil_iff_forall_not_mem]
    intro t ht
    obtain ⟨hb, -⟩ := (h.tasks t).waitOwner_eq_some.mp ((h.wait.mem o t).mp ht)
    obtain rfl := hwaiting t hb
    exact h.service_unlinked.2 o ht
  obtain ⟨owned, hown⟩ := h.locks.owned
  have hempty : ∀ t, owned t = [] := by
    intro t
    rw [List.eq_nil_iff_forall_not_mem]
    intro m hm
    simpa [howner] using (hown.mem t m).mp hm
  constructor
  · exact hl
  · exact h.tasks
  · intro t
    have hlist := hown.isList t
    have hlen := hown.length t
    rw [hempty t] at hlist hlen
    refine ⟨(hcalm t).1, hlist.head_eq, hlist.tail_eq, hlen.symm, ?_⟩
    obtain hp | ⟨m, u, hm, -⟩ := (h.locks.inherits t not_false).1
    · exact hp
    · simp [howner] at hm
  · intro t
    cases hst : (k.tasks t).state with
    | dormant => exact .inl rfl
    | ready =>
      have hne : t ≠ .timerService := by
        rintro rfl
        have := ((hcalm .timerService).2 (by simp [hst])).mpr rfl
        simp [hst] at this
      simp [hne]
    | running => exact absurd hst (hnotRunning t)
    | blocked => simp [hwaiting t hst]
  · exact h.ready
  · exact h.phase.reset
  · intro hr
    exact ⟨h.phase.idleTask hr, h.phase.serviceTask hr, (h.phase.idle hr).not_dormant,
      h.phase.service hr⟩
  · exact ⟨hcur, hpend, hact⟩
  · rw [List.eq_nil_iff_forall_not_mem]
    intro t ht
    obtain ⟨hb, -⟩ := h.mem_delayQueue.mp ht
    obtain rfl := hwaiting t hb
    exact h.service_unlinked.1 ht
  · exact fun i => ⟨h.semaphores i, hnil (.semaphore i)⟩
  · exact fun m => ⟨howner m, hnil (.mutex m), hown.free m (howner m)⟩

namespace Unstarted

theorem runnable_iff (h : Unstarted cfg k) : (k.tasks t).Runnable ↔ (k.tasks t).state = .ready := by
  unfold Tcb.Runnable
  rcases h.state t with hst | hst
  · simp [hst]
  · rw [hst]
    split <;> simp

theorem waiters (h : Unstarted cfg k) (o : WaitObject) : k.waiters o = [] := by
  cases o with
  | semaphore i => exact (h.semaphores i).2
  | mutex m => exact (h.mutexes m).2.1

theorem not_timed (h : Unstarted cfg k) (t : TaskId) : ¬ (k.tasks t).Timed := by
  rintro ⟨hb, htimed⟩
  rcases h.state t with hst | hst
  · simp [hb] at hst
  · rw [hb] at hst
    split at hst <;> rename_i ht
    · subst ht
      cases ((h.tasks _).waits hb).2 with
      | delay happ => exact happ.elim
      | semaphore _ happ => exact happ.elim
      | mutex _ happ => exact happ.elim
      | service _ hr _ hto => simp [hr, hto] at htimed
    · simp at hst

theorem waitOwner (h : Unstarted cfg k) (t : TaskId) : (k.tasks t).waitOwner = none := by
  by_cases hb : (k.tasks t).state = .blocked
  · have ht : t = .timerService := by
      rcases h.state t with hst | hst
      · simp [hb] at hst
      · rw [hb] at hst
        by_contra hne
        simp [hne] at hst
    subst ht
    cases ((h.tasks _).waits hb).2 with
    | delay happ => exact happ.elim
    | semaphore _ happ => exact happ.elim
    | mutex _ happ => exact happ.elim
    | service _ _ _ _ howner => exact howner
  · exact ((h.tasks t).free hb).2.2.2

theorem locks (h : Unstarted cfg k) : Locks cfg stale k.mutexes k.tasks k.currentTask := by
  have hnone : ∀ t, awaits k.mutexes k.tasks t = none := by
    intro t
    unfold awaits
    cases (k.tasks t).awaited with
    | none => rfl
    | some m => exact (h.mutexes m).1
  constructor
  · refine ⟨fun _ => [], ⟨fun t => ?_, fun t => ?_, fun t => ?_, fun t m => ?_, fun m _ => ?_⟩⟩
    · rw [(h.plain t).head, (h.plain t).tail]
      exact ⟨trivial, rfl, rfl, List.nodup_nil⟩
    · simp [(h.plain t).count]
    · simp [(h.plain t).count]
    · simp [(h.mutexes m).1]
    · exact (h.mutexes m).2.2
  · exact fun m _ => (h.mutexes m).2.1
  · exact fun m t hm => by simp [(h.mutexes m).1] at hm
  · exact fun m _ => (h.mutexes m).1
  · intro m t
    have hnot : (k.tasks t).awaited ≠ some m := by
      intro hm
      obtain ⟨hb, hr, hobj⟩ := Tcb.awaited_eq_some.mp hm
      have howner : (k.tasks t).waitOwner = some (.mutex m) :=
        (h.tasks t).waitOwner_eq_some.mpr ⟨hb, hr, hobj⟩
      simp [h.waitOwner t] at howner
    simp [(h.mutexes m).2.1, hnot]
  · intro t ht
    obtain ⟨u, hs, -⟩ := Relation.TransGen.head'_iff.mp ht
    simp [Chain.Edge, hnone] at hs
  · intro t _
    refine ⟨.inl (h.plain t).priority, ?_⟩
    rintro p (rfl | ⟨m, u, hm, -⟩)
    · exact (h.plain t).priority.ge
    · simp [(h.mutexes m).1] at hm
  · exact fun _ m _ => (h.mutexes m).2.1

theorem phase (h : Unstarted cfg k) : PhaseOk k := by
  refine ⟨h.reset, fun hr => (h.named hr).1, fun hr => (h.named hr).2.1, fun hr => ?_,
    fun hr => (h.named hr).2.2.2, fun _ => ?_, fun _ t => ⟨(h.plain t).result, fun hd => ?_⟩,
    fun hl => absurd hl h.lifecycle⟩
  · exact .inl ((h.state .idle).resolve_left (h.named hr).2.2.1)
  · exact ⟨h.still.1, h.still.2.1, h.still.2.2, fun m => (h.mutexes m).1⟩
  · rw [(h.state t).resolve_left hd]
    split <;> simp_all

theorem inv (h : Unstarted cfg k) : Inv cfg base stale k := by
  have hplan : PlanOk k.currentTask k.switchPlan := by
    obtain ⟨-, hpend, hact⟩ := h.still
    refine ⟨?_, ?_, ?_⟩ <;> simp [hpend, hact]
  refine ⟨h.tasks, h.ready, ?_, ?_, h.locks, fun i => (h.semaphores i).1, fun t ht => ?_, h.phase,
    hplan⟩
  · rw [h.delayQueue]
    exact ⟨List.nodup_nil, fun t => by simp [h.not_timed t], fun t ht => absurd ht (h.not_timed t),
      .nil⟩
  · refine ⟨fun o => ?_, fun o t => ?_, fun o => ?_, fun t ht => ?_⟩
    · simp [h.waiters]
    · simp [h.waiters, Kernel.waitOwners, h.waitOwner]
    · simp [h.waiters]
    · simp [Kernel.waitOwners, h.waitOwner] at ht
  · rcases h.state t with hst | hst
    · simp [ht] at hst
    · rw [ht] at hst
      split at hst <;> simp at hst

theorem kernelOk (h : Unstarted cfg k) : KernelOk cfg k :=
  ⟨h.inv, fun c hc => by simp [h.still.1] at hc⟩

theorem calm (h : Unstarted cfg k) : k.Calm := by
  refine ⟨fun t => ⟨(h.plain t).result, fun hb => ?_⟩, h.delayQueue, fun m => (h.mutexes m).1⟩
  rcases h.state t with hst | hst
  · simp [hb] at hst
  · rw [hb] at hst
    by_contra hne
    simp [hne] at hst

theorem agrees (h : Unstarted cfg k) : k.Agrees cfg :=
  ⟨fun c p hc => by simp [h.still.1] at hc, fun d ha => by simp [h.still.2.2] at ha⟩

theorem not_currentReady (h : Unstarted cfg k) : ¬ k.CurrentReady := by
  rintro ⟨c, hc, -⟩
  simp [h.still.1] at hc

end Unstarted

/-- The task pool before the scheduler runs: the first slots are taken, the others are untouched,
and no task has used up a part of its time slice. -/
structure Pool (cfg : Config) (k : Kernel) : Prop where
  fresh : ∀ t, (k.tasks t).state = .dormant → k.tasks t = {}
  taken : ∀ i, (k.tasks (.slot i)).state ≠ .dormant ↔ i < k.allocatedCount
  count_le : k.allocatedCount ≤ cfg.maxTasks
  hint : k.nextFreeHint = if k.allocatedCount = cfg.maxTasks then 0 else k.allocatedCount
  slice : ∀ t, (k.tasks t).state ≠ .dormant → (k.tasks t).sliceRemaining = cfg.timeSliceTicks

theorem Pool.priority_lt (h : Pool cfg k) (hk : Unstarted cfg k) (t : TaskId) :
    (k.tasks t).priority < cfg.priorityCount := by
  by_cases hd : (k.tasks t).state = .dormant
  · rw [h.fresh t hd]
    exact Nat.lt_of_lt_of_le Nat.two_pos cfg.priorityCount_range.1
  · exact ((hk.tasks t).valid hd).prio_lt

/-- What an operation of the startup phase leaves behind. -/
structure Starts (cfg : Config) (k k' : Kernel) : Prop where
  before : k.lifecycle ≠ .running
  ok : KernelOk cfg k'
  timersOk : TimersOk cfg k'
  pool : k'.lifecycle ≠ .running → Pool cfg k'
  calm : k'.Calm
  semaphores : k'.semaphores = k.semaphores
  waiters : ∀ o, k'.waiters o = []
  requests : k'.rescheduleRequests = k.rescheduleRequests
  timers : k'.timers = k.timers
  tick : k.lifecycle ≠ .reset → k'.currentTick = k.currentTick
  ahead : k.Ahead → k'.Ahead
  service : (k'.tasks .timerService).state = .blocked →
    (k.tasks .timerService).state = .blocked ∨ k.lifecycle = .reset
  notReady : ¬ k'.CurrentReady
  agrees : k'.Agrees cfg
  still : k'.switchPlan.pending = false ∧ k'.switchPlan.active = false

/-! ## `rts_init` -/

theorem tolerated_startup (ready owns : Prop) (k : Kernel) :
    Tolerated ready owns (.assertion .startup) k :=
  ⟨by simp [Site.Excluded], by simp [Site.Outgoing]⟩

/-- The timer manager as it is after a reset. -/
structure Kernel.TimersReset (k : Kernel) : Prop where
  timers : k.timers = fun i => { slotIndex := i }
  activeQueue : k.activeQueue = []
  callbackQueue : k.callbackQueue = []
  depth : k.callbackQueueMaximumDepth = 0
  serviceWork : k.serviceWork = none
  hint : k.timerNextFreeHint = 0
  count : k.timerAllocatedCount = 0

theorem Kernel.TimersReset.timersOk (h : k.TimersReset) : TimersOk cfg k := by
  constructor
  · intro i
    rw [h.timers]
    exact .unused rfl
  · exact fun _ i => by rw [h.timers]
  · simp [h.activeQueue]
  · simp [h.activeQueue, h.timers]
  · simp [timerCallbackQueueCountFor, h.callbackQueue, h.timers]
  · simp [h.callbackQueue]
  · simp [h.timers, Kernel.Serves, h.serviceWork]
  · exact fun _ => h.callbackQueue
  · simp [h.callbackQueue, h.depth]
  · rw [h.hint]
    exact cfg.maxTimers_pos
  · rw [h.count, Kernel.timersInUse]
    simp [h.timers]

theorem Kernel.TimersReset.ahead (h : k.TimersReset) : k.Ahead := by
  constructor <;> simp [h.activeQueue]

theorem TaskOk.default (t : TaskId) : TaskOk cfg t {} :=
  ⟨fun _ => by simp, fun hd => absurd rfl hd, fun _ => ⟨rfl, rfl, rfl, rfl⟩,
    fun hb => by simp at hb⟩

theorem Tcb.Plain.default : ({} : Tcb).Plain := ⟨rfl, rfl, rfl, rfl, rfl⟩

theorem ReadyOk.empty {prio : TaskId → Nat} {R : TaskId → Prop} (hR : ∀ t, ¬ R t) :
    ReadyOk cfg (fun _ => []) [] prio R := by
  constructor <;> simp [hR]

/-- A reset in the reset state keeps what belongs to the callers. -/
theorem Unstarted.restoreReset (h : Unstarted cfg k) : Unstarted cfg (kernelRestoreReset k) where
  lifecycle := by simp [kernelRestoreReset]
  tasks t := .default t
  plain _ := .default
  state _ := .inl rfl
  ready := .empty fun t ht => by simp [kernelRestoreReset, Tcb.Runnable] at ht
  reset _ _ := rfl
  named hr := by simp [kernelRestoreReset] at hr
  still := ⟨rfl, rfl, rfl⟩
  delayQueue := rfl
  semaphores := h.semaphores
  mutexes := h.mutexes

/-- The initialisers of the task pool, the policy and the delay queue find everything reset. -/
theorem initialize_restoreReset (k : Kernel) : delayInitialize (policyInitialize cfg
    (taskPoolInitialize cfg (kernelRestoreReset k))) = kernelRestoreReset k := by
  simp [delayInitialize, policyInitialize, taskPoolInitialize, kernelRestoreReset]

theorem timersReset_restoreReset (k : Kernel) : (kernelRestoreReset k).TimersReset :=
  ⟨rfl, rfl, rfl, rfl, rfl, rfl, rfl⟩

theorem pool_restoreReset (k : Kernel) : Pool cfg (kernelRestoreReset k) where
  fresh _ _ := rfl
  taken i := by simp [kernelRestoreReset]
  count_le := by simp [kernelRestoreReset]
  hint := by
    have hne : (kernelRestoreReset k).allocatedCount ≠ cfg.maxTasks :=
      (Nat.lt_of_succ_le cfg.maxTasks_pos).ne
    rw [if_neg hne]
    rfl
  slice t ht := absurd rfl ht

/-- An unstarted kernel whose timer manager is as after a reset. -/
theorem Unstarted.starts (h' : Unstarted cfg k') (hreset : k'.TimersReset) (hp : Pool cfg k')
    (hl : k.lifecycle = .reset) (ht : TimersOk cfg k) (hs : k'.semaphores = k.semaphores)
    (hreq : k'.rescheduleRequests = k.rescheduleRequests) : Starts cfg k k' where
  before := by simp [hl]
  ok := h'.kernelOk
  timersOk := hreset.timersOk
  pool _ := hp
  calm := h'.calm
  semaphores := hs
  waiters := h'.waiters
  requests := hreq
  timers := hreset.timers.trans (funext fun i => (ht.fresh hl i).symm)
  tick hne := absurd hl hne
  ahead _ := hreset.ahead
  service _ := .inr hl
  notReady := h'.not_currentReady
  agrees := h'.agrees
  still := h'.still.2

/-- The two private tasks have been set up. -/
structure Initialised (cfg : Config) (k : Kernel) (servicePointer idlePointer : Nat) (k' : Kernel) :
    Prop where
  frame : k' = { kernelRestoreReset k with
    lifecycle := .initialized
    tasks := k'.tasks
    idleTask := some .idle
    timerServiceTask := some .timerService
    readySet := k'.readySet
    edfReady := k'.edfReady
    policyReleaseSequence := k'.policyReleaseSequence }
  service : k'.tasks .timerService = timerServiceObject cfg servicePointer
  idle : ∃ tick deadline sequence, k'.tasks .idle =
    { idleObject cfg idlePointer with
      state := .ready
      releaseTick := tick
      absoluteDeadline := deadline
      releaseSequence := sequence
      validationMagic := if cfg.enableAssertions = true then taskValidationMagic else 0 }
  slots : ∀ i, k'.tasks (.slot i) = {}
  ready : ReadyOk cfg k'.readySet k'.edfReady k'.prio fun t => t = .idle

namespace Initialised

variable {servicePointer idlePointer : Nat}

theorem serviceOk (h : servicePointer ≠ 0) :
    TaskOk cfg .timerService (timerServiceObject cfg servicePointer) := by
  have hrange := cfg.servicePriority_range
  refine ⟨by simp [timerServiceObject], fun _ => ?_, by simp [timerServiceObject], fun _ => ?_⟩
  · refine ⟨rfl, ⟨h, ?_, ?_, ?_, ?_⟩, fun ha => ?_, .inr (.inr rfl), le_rfl, hrange.2, ?_, ?_⟩
    · simp [timerServiceObject]
    · simp [timerServiceObject]
    · simp [timerServiceObject]
    · simp [timerServiceObject]
    · simp [timerServiceObject, ha]
    · simp [timerServiceObject]
      omega
    · exact fun _ happ => happ.elim
  · exact ⟨rfl, .service rfl rfl rfl rfl rfl⟩

theorem idleOk {task : Tcb} (h : idlePointer ≠ 0)
    (hidle : ∃ tick deadline sequence, task =
      { idleObject cfg idlePointer with
        state := .ready
        releaseTick := tick
        absoluteDeadline := deadline
        releaseSequence := sequence
        validationMagic := if cfg.enableAssertions = true then taskValidationMagic else 0 }) :
    TaskOk cfg .idle task := by
  obtain ⟨tick, deadline, sequence, rfl⟩ := hidle
  have hrange := cfg.priorityCount_range
  refine ⟨by simp, fun _ => ?_, fun _ => ⟨rfl, rfl, rfl, rfl⟩, by simp⟩
  refine ⟨rfl, ⟨h, ?_, ?_, ?_, ?_⟩, fun ha => ?_, .inr (.inl rfl), le_rfl, ?_, ?_, ?_⟩
  · simp [idleObject]
  · simp [idleObject]
  · simp [idleObject]
  · simp [idleObject]
  · simp [ha]
  · simp [idleObject]
    omega
  · simp [idleObject]
  · exact fun _ happ => happ.elim

theorem unstarted (h : Initialised cfg k servicePointer idlePointer k') (hk : Unstarted cfg k)
    (hs : servicePointer ≠ 0) (hi : idlePointer ≠ 0) : Unstarted cfg k' := by
  have hlife : k'.lifecycle = .initialized := by rw [h.frame]
  have hidle : (k'.tasks .idle).state = .ready := by
    obtain ⟨_, _, _, heq⟩ := h.idle
    rw [heq]
  have hservice : (k'.tasks .timerService).state = .blocked := by rw [h.service]; rfl
  constructor
  · simp [hlife]
  · intro t
    cases t with
    | slot i => rw [h.slots]; exact .default _
    | idle => exact idleOk hi h.idle
    | timerService => rw [h.service]; exact serviceOk hs
  · intro t
    cases t with
    | slot i => rw [h.slots]; exact .default
    | idle =>
      obtain ⟨_, _, _, heq⟩ := h.idle
      rw [heq]
      exact ⟨rfl, rfl, rfl, rfl, rfl⟩
    | timerService => rw [h.service]; exact ⟨rfl, rfl, rfl, rfl, rfl⟩
  · intro t
    cases t with
    | slot i => rw [h.slots]; exact .inl rfl
    | idle => simp [hidle]
    | timerService => simp [hservice]
  · refine h.ready.congr (fun t => ?_) fun _ => rfl
    cases t with
    | slot i => simp [h.slots, Tcb.Runnable]
    | idle => simp [hidle, Tcb.Runnable]
    | timerService => simp [hservice, Tcb.Runnable]
  · simp [hlife]
  · intro _
    refine ⟨by rw [h.frame], by rw [h.frame], by simp [hidle], by simp [hservice]⟩
  · rw [h.frame]
    exact ⟨rfl, rfl, rfl⟩
  · rw [h.frame]
    rfl
  · rw [h.frame]
    exact hk.semaphores
  · rw [h.frame]
    exact hk.mutexes

theorem pool (h : Initialised cfg k servicePointer idlePointer k') : Pool cfg k' := by
  have hcount : k'.allocatedCount = 0 := by rw [h.frame]; rfl
  have hhint : k'.nextFreeHint = 0 := by rw [h.frame]; rfl
  obtain ⟨_, _, _, hidle⟩ := h.idle
  have hpos := cfg.maxTasks_pos
  refine ⟨fun t ht => ?_, fun i => ?_, by omega, ?_, fun t ht => ?_⟩
  · cases t with
    | slot i => exact h.slots i
    | idle => simp [hidle] at ht
    | timerService => simp [h.service, timerServiceObject] at ht
  · simp [h.slots, hcount]
  · rw [hcount, hhint, ite_self]
  · cases t with
    | slot i => simp [h.slots] at ht
    | idle => rw [hidle]; rfl
    | timerService => rw [h.service]; rfl

theorem timersReset (h : Initialised cfg k servicePointer idlePointer k') : k'.TimersReset := by
  rw [h.frame]
  exact ⟨rfl, rfl, rfl, rfl, rfl, rfl, rfl⟩

end Initialised

/-- A reset kernel is initialised, or reset once more; any other kernel refuses. -/
structure Inits (cfg : Config) (k : Kernel) (status : Status) (k' : Kernel) : Prop where
  starts : Starts cfg k k' ∨ k' = k
  failed : status ≠ .ok → k' = kernelRestoreReset k ∧ k.lifecycle = .reset ∨ k' = k
  done : status = .ok → k.lifecycle = .reset ∧ ∃ servicePointer idlePointer,
    Initialised cfg k servicePointer idlePointer k'

theorem init_spec {isr : Bool} {port : InitAnswers} (h : KernelOk cfg k) (ht : TimersOk cfg k) :
    wp (init cfg isr port) (Inits cfg k) (Tolerated k.CurrentReady k.IdleOwns) k := by
  have hrefuse : ∀ status, status ≠ .ok → Inits cfg k status k := fun status hs =>
    ⟨.inr rfl, fun _ => .inr rfl, fun hok => absurd hok hs⟩
  unfold init
  rw [wp_bind, wp_get, wp_ite]
  split
  · rw [wp_bind, wp_rtsAssert]
    exact ⟨fun _ => by rw [wp_pure]; exact hrefuse _ (by simp), fun _ => tolerated_startup _ _ _⟩
  rw [wp_ite]
  split
  · exact hrefuse _ (by simp)
  rw [wp_ite]
  split <;> rename_i hinit hrun
  · exact hrefuse _ (by simp)
  have hl : k.lifecycle = .reset := by cases hk : k.lifecycle <;> simp_all
  have hun : Unstarted cfg k := h.inv.unstarted (by simp [hl])
  have hreset : Inits cfg k .portError (kernelRestoreReset k) :=
    ⟨.inl (hun.restoreReset.starts (timersReset_restoreReset k)
      (pool_restoreReset k) hl ht rfl rfl), fun _ => .inl ⟨rfl, hl⟩, by simp⟩
  rw [wp_bind, wp_modify, wp_bind, wp_modify, wp_bind, wp_modify, wp_bind, wp_modify,
    initialize_restoreReset, wp_ite]
  -- Each failing answer of the port undoes what has been set up so far.
  split
  · exact hreset
  unfold initPrivateTasks
  rw [wp_bind, wp_modify, wp_ite]
  split <;> rename_i hservice
  · exact hreset
  rw [wp_bind, wp_modify, wp_bind, wp_modify, wp_ite]
  split <;> rename_i hidle
  · exact hreset
  unfold initIdle
  rw [wp_bind, wp_modify, wp_bind]
  apply wp_policyInsert_released (R := fun _ => False)
  · exact .empty fun _ => id
  · exact id
  · have := cfg.priorityCount_range
    simp [Kernel.prio, idleObject]
    omega
  · exact fun _ => .inr (by simp [idleObject])
  intro rs er hready _
  simp only [Bool.true_eq_false, if_false, wp_bind, wp_modify, wp_pure]
  generalize hk' : Kernel.updateTask _ _ _ = k'
  have hdone : Initialised cfg k (port.serviceStackPointer.getD 0) (port.idleStackPointer.getD 0)
      k' := by
    rw [← hk']
    refine ⟨rfl, rfl, ⟨_, _, _, rfl⟩, fun i => rfl, ?_⟩
    refine hready.congr (fun t => by simp) fun t => ?_
    cases t <;> rfl
  refine ⟨.inl ?_, by simp, fun _ => ⟨hl, _, _, hdone⟩⟩
  exact (hdone.unstarted hun hservice hidle).starts hdone.timersReset hdone.pool hl ht
    (by rw [hdone.frame]; rfl) (by rw [hdone.frame]; rfl)

/-! ## Task creation -/

/-- The next free slot holds a task that is being created. -/
def Kernel.reserve (k : Kernel) (cfg : Config) (n : Nat) (task : Tcb) : Kernel :=
  { k with
    nextFreeHint := nextHint cfg.maxTasks n
    tasks := Function.update k.tasks (.slot n) task }

@[simp] theorem Kernel.reserve_self (k : Kernel) (n : Nat) (task : Tcb) :
    (k.reserve cfg n task).tasks (.slot n) = task := by
  simp [Kernel.reserve]

theorem Kernel.reserve_of_ne (k : Kernel) {n : Nat} (task : Tcb) (hu : u ≠ .slot n) :
    (k.reserve cfg n task).tasks u = k.tasks u := by
  simp [Kernel.reserve, hu]

theorem Kernel.reserve_setTask (k : Kernel) (n : Nat) (a b : Tcb) :
    (k.reserve cfg n a).setTask (.slot n) b = k.reserve cfg n b := by
  simp [Kernel.reserve, Kernel.setTask]

theorem Kernel.reserve_updateTask (k : Kernel) (n : Nat) (task : Tcb) (f : Tcb → Tcb) :
    (k.reserve cfg n task).updateTask (.slot n) f = k.reserve cfg n (f task) := by
  simp [Kernel.reserve, Kernel.updateTask]

namespace Pool

theorem dormant (hp : Pool cfg k) : (k.tasks (.slot k.allocatedCount)).state = .dormant := by
  by_contra hd
  exact lt_irrefl _ ((hp.taken _).mp hd)

/-- The slot a creation takes is the one the hint points to. -/
theorem wp_taskPoolReserve {Q : Option Nat → Kernel → Prop} (hp : Pool cfg k) (h : Unstarted cfg k)
    (hfull : k.allocatedCount = cfg.maxTasks → Q none k)
    (hQ : k.allocatedCount < cfg.maxTasks →
      Q (some k.allocatedCount) (k.reserve cfg k.allocatedCount { slotState := .reserved })) :
    wp (taskPoolReserve cfg) Q E k := by
  have hhint : k.nextFreeHint < cfg.maxTasks := by
    rw [hp.hint]
    have := hp.count_le
    have := cfg.maxTasks_pos
    split <;> omega
  unfold taskPoolReserve
  rw [wp_bind, wp_get, wp_bind, wp_rtsAssert_of hhint, wp_ite, if_neg (by omega)]
  rcases hp.count_le.eq_or_lt with heq | hlt
  · have hnone : ((slotOrder cfg.maxTasks k.nextFreeHint).find? fun i =>
        decide ((k.tasks (.slot i)).slotState = .free)) = none := by
      rw [List.find?_eq_none]
      intro i hi
      have hd := (hp.taken i).mpr (heq ▸ mem_slotOrder hhint hi)
      simp [((h.tasks _).valid hd).allocated]
    simp only [hnone, wp_pure]
    exact hfull heq
  · have hfirst : k.nextFreeHint = k.allocatedCount := by rw [hp.hint, if_neg hlt.ne]
    have hfresh := hp.fresh _ hp.dormant
    have hsome : ((slotOrder cfg.maxTasks k.nextFreeHint).find? fun i =>
        decide ((k.tasks (.slot i)).slotState = .free)) = some k.allocatedCount := by
      obtain ⟨m, hm⟩ := Nat.exists_eq_succ_of_ne_zero (Nat.ne_zero_of_lt hlt)
      have hlt' : ¬ m + 1 ≤ k.allocatedCount := by omega
      rw [hfirst, slotOrder, hm, List.range_succ_eq_map, List.map_cons, List.find?_cons]
      simp [hlt', hfresh]
    simp only [hsome, wp_bind, wp_modify, wp_pure]
    have heq : ({ k with nextFreeHint := nextHint cfg.maxTasks k.allocatedCount }).updateTask
        (.slot k.allocatedCount) (fun task => { task with slotState := .reserved }) =
        k.reserve cfg k.allocatedCount { slotState := .reserved } := by
      simp only [Kernel.updateTask, Kernel.reserve, hfresh]
    rw [heq]
    exact hQ hlt

theorem unlinked (hp : Pool cfg k) (h : Unstarted cfg k) (task : Tcb) (hw : task.waitOwner = none) :
    TaskIsUnlinked cfg (k.reserve cfg k.allocatedCount task) (.slot k.allocatedCount) := by
  have hnot : ¬ (k.tasks (.slot k.allocatedCount)).Runnable := fun hr => hr.not_dormant hp.dormant
  refine ⟨?_, ?_, ?_, ?_⟩
  · rintro ⟨p, -, hin⟩
    exact hnot ((h.ready.mem p _).mp hin).2.1
  · exact fun hin => hnot ((h.ready.edf_mem _).mp hin).2
  · change _ ∉ k.delayQueue
    simp [h.delayQueue]
  · simpa using hw

theorem wp_taskObjectInitialize {Q : Status → Kernel → Prop} {config : TaskConfig} {task : Tcb}
    (hp : Pool cfg k) (h : Unstarted cfg k) (hres : task.slotState = .reserved)
    (hw : task.waitOwner = none)
    (hQ : Q .ok (k.reserve cfg k.allocatedCount (taskObject cfg config))) :
    wp (taskObjectInitialize cfg (.slot k.allocatedCount) config) Q E
      (k.reserve cfg k.allocatedCount task) := by
  have hun := hp.unlinked h task hw
  have hslot : ((k.reserve cfg k.allocatedCount task).tasks (.slot k.allocatedCount)).slotState =
      .reserved := by simpa using hres
  unfold taskObjectInitialize
  rw [wp_bind, wp_get, wp_bind, wp_rtsAssert_of ⟨hslot, hun⟩, wp_ite,
    if_neg (not_or.mpr ⟨not_not.mpr hslot, not_not.mpr hun⟩), wp_bind, wp_modify, wp_pure,
    Kernel.reserve_setTask]
  exact hQ

/-- A creation that fails after it has reserved a slot gives it back untouched. -/
theorem wp_taskCreateRollback {Q : Unit → Kernel → Prop} {task : Tcb} (hp : Pool cfg k)
    (h : Unstarted cfg k) (hlt : k.allocatedCount < cfg.maxTasks)
    (hres : task.slotState = .reserved) (hw : task.waitOwner = none) (hQ : Q () k) :
    wp (taskCreateRollback cfg k.allocatedCount) Q E (k.reserve cfg k.allocatedCount task) := by
  set n := k.allocatedCount with hn
  have hun := hp.unlinked h task hw
  have hslot : ((k.reserve cfg n task).tasks (.slot n)).slotState = .reserved := by simpa using hres
  have hnot : ¬ PolicyValidate cfg (k.reserve cfg n task) (.slot n) true := by
    rintro ⟨hcontains, -⟩
    have hin := hcontains.mpr rfl
    unfold PolicyContains at hin
    split at hin
    · exact hun.1 ⟨_, hin.1, hin.2⟩
    · exact hun.1 ⟨_, hin.1, hin.2⟩
    · exact hun.2.1 hin
  have hhint : n = k.nextFreeHint := by rw [hp.hint, if_neg hlt.ne]
  have htasks : Function.update k.tasks (.slot n) ({ slotState := .free } : Tcb) = k.tasks := by
    rw [show ({ slotState := .free } : Tcb) = k.tasks (.slot n) from (hp.fresh _ hp.dormant).symm]
    exact Function.update_eq_self _ _
  unfold taskCreateRollback taskObjectReset taskPoolRollback
  simp only [wp_bind, wp_get, wp_ite, if_neg hnot]
  rw [wp_rtsAssert_of ⟨hslot, hun⟩, if_neg (not_or.mpr ⟨not_not.mpr hslot, not_not.mpr hun⟩)]
  have hres' : (((k.reserve cfg n task).setTask (.slot n) { slotState := .reserved }).tasks
      (.slot n)).slotState = .reserved := by simp
  rw [wp_modify, wp_rtsAssert_of hres', if_neg (not_not.mpr hres'), wp_modify,
    Kernel.reserve_setTask]
  generalize hk' : Kernel.updateTask _ _ _ = k'
  obtain rfl : k' = k := by
    rw [← hk']
    simp only [Kernel.updateTask, Kernel.reserve, Function.update_idem, Function.update_self,
      htasks]
    rw [hhint]
  exact hQ

end Pool

/-- The control block of a created task, but for what the policy writes. -/
def TaskConfig.object (cfg : Config) (config : TaskConfig) (stackPointer : Nat) : Tcb :=
  { taskObject cfg config with savedStackPointer := stackPointer }

/-- The control block after the slot has been committed. -/
def Tcb.committed (cfg : Config) (task : Tcb) : Tcb :=
  { task with
    state := .ready
    slotState := .allocated
    validationMagic :=
      if cfg.enableAssertions = true then taskValidationMagic else task.validationMagic }

/-- What `rts_task_config_validate` accepts. -/
structure TaskConfig.Accepted (cfg : Config) (config : TaskConfig) : Prop where
  entry : config.entry ≠ 0
  priority : 1 ≤ config.priority ∧ config.priority < cfg.priorityCount
  timing : config.TimingIsValid cfg
  stack : config.stackLow ≠ 0 ∧ config.stackLow < config.stackHigh

theorem taskConfigValidate_ok {config : TaskConfig} {lifecycle : Lifecycle}
    (h : taskConfigValidate cfg (some config) lifecycle = .ok) :
    lifecycle = .initialized ∧ config.Accepted cfg := by
  simp only [taskConfigValidate] at h
  split at h
  · simp at h
  split at h
  · simp at h
  split at h
  · simp at h
  split at h
  · simp at h
  split at h
  · simp at h
  · rename_i hl he hp ht hs
    rw [not_or, not_or] at hs
    exact ⟨not_not.mp hl, he, by omega, not_not.mp ht, hs.2.1, by omega⟩

/-- A task has been created in the next slot; `k₁` is the state after its insertion. -/
structure Created (cfg : Config) (k : Kernel) (config : TaskConfig) (stackPointer : Nat)
    (k₁ k' : Kernel) : Prop where
  initialized : k.lifecycle = .initialized
  room : k.allocatedCount < cfg.maxTasks
  accepted : config.Accepted cfg
  pointer : stackPointer ≠ 0
  inserted : Inserted cfg (k.reserve cfg k.allocatedCount (config.object cfg stackPointer)) k₁
    k.allocatedCount fun u => (k.tasks u).Runnable
  insertion : policyInsert cfg (.slot k.allocatedCount)
    (k.reserve cfg k.allocatedCount (config.object cfg stackPointer)) = .ret true k₁
  frame : k' = { k₁ with
    allocatedCount := k.allocatedCount + 1
    counters := k'.counters
    tasks := Function.update k₁.tasks (.slot k.allocatedCount)
      ((k₁.tasks (.slot k.allocatedCount)).committed cfg) }

namespace Created

variable {config : TaskConfig} {stackPointer : Nat}

theorem new (h : Created cfg k config stackPointer k₁ k') :
    k'.tasks (.slot k.allocatedCount) =
      (k₁.tasks (.slot k.allocatedCount)).committed cfg := by
  rw [h.frame]
  exact Function.update_self ..

theorem inserted_new (h : Created cfg k config stackPointer k₁ k') :
    ∃ tick deadline sequence, k₁.tasks (.slot k.allocatedCount) =
      { config.object cfg stackPointer with
        releaseTick := tick
        absoluteDeadline := deadline
        releaseSequence := sequence
        basePriority := (k₁.tasks (.slot k.allocatedCount)).basePriority
        priority := (k₁.tasks (.slot k.allocatedCount)).priority } := by
  have htask := h.inserted.task (.slot k.allocatedCount)
  rw [if_pos rfl, Kernel.released, Kernel.reserve_self] at htask
  exact ⟨_, _, _, htask⟩

theorem other (h : Created cfg k config stackPointer k₁ k') (hu : u ≠ .slot k.allocatedCount) :
    k'.tasks u = { k.tasks u with
      basePriority := (k'.tasks u).basePriority
      priority := (k'.tasks u).priority } := by
  have hk' : k'.tasks u = k₁.tasks u := by
    rw [h.frame]
    exact Function.update_of_ne hu _ _
  rw [hk', h.inserted.task u, if_neg hu, Kernel.reserve_of_ne _ _ hu]

/-- The base and effective priority of every task. -/
theorem priorities (h : Created cfg k config stackPointer k₁ k') (u : TaskId) :
    (k'.tasks u).basePriority = (k₁.tasks u).basePriority ∧
    (k'.tasks u).priority = (k₁.tasks u).priority := by
  rcases eq_or_ne u (.slot k.allocatedCount) with rfl | hu
  · rw [h.new]
    exact ⟨rfl, rfl⟩
  · have hk' : k'.tasks u = k₁.tasks u := by
      rw [h.frame]
      exact Function.update_of_ne hu _ _
    rw [hk']
    exact ⟨rfl, rfl⟩

theorem prio_eq (h : Created cfg k config stackPointer k₁ k') : k'.prio = k₁.prio :=
  funext fun u => (h.priorities u).2

/-- A task keeps its priorities or, as an application task, has been ranked. -/
theorem cases (h : Created cfg k config stackPointer k₁ k') (u : TaskId) :
    (u ≠ .slot k.allocatedCount ∧ (k'.tasks u).basePriority = (k.tasks u).basePriority ∧
      (k'.tasks u).priority = (k.tasks u).priority) ∨
    (u = .slot k.allocatedCount ∨ (k.tasks u).slotState = .allocated) ∧ ∃ i < cfg.maxTasks,
      u = .slot i ∧ (k'.tasks u).basePriority = (k'.tasks u).priority ∧
      0 < (k'.tasks u).priority ∧ (k'.tasks u).priority < cfg.priorityCount := by
  obtain ⟨hb, hp⟩ := h.priorities u
  rw [hb, hp]
  rcases h.inserted.priorities u with ⟨hb₁, hp₁⟩ | ⟨hpol, hinc, i, hi, rfl, hb₁, hp₁⟩
  · rcases eq_or_ne u (.slot k.allocatedCount) with rfl | hu
    · refine .inr ⟨.inl rfl, _, h.room, rfl, ?_⟩
      rw [hb₁, hp₁, Kernel.reserve_self]
      exact ⟨rfl, h.accepted.priority⟩
    · rw [hb₁, hp₁, Kernel.reserve_of_ne _ _ hu]
      exact .inl ⟨hu, rfl, rfl⟩
  · refine .inr ⟨?_, i, hi, rfl, hb₁.trans hp₁.symm, hp₁ ▸ rmsRank_pos _, hp₁ ▸ rmsRank_lt hpol hi⟩
    rcases eq_or_ne (TaskId.slot i) (.slot k.allocatedCount) with hu | hu
    · exact .inl hu
    · unfold RmsIncluded at hinc
      rwa [Kernel.reserve_of_ne _ _ hu] at hinc

theorem runnable_iff (h : Created cfg k config stackPointer k₁ k') (u : TaskId) :
    (k'.tasks u).Runnable ↔ (k.tasks u).Runnable ∨ u = .slot k.allocatedCount := by
  rcases eq_or_ne u (.slot k.allocatedCount) with rfl | hu
  · rw [h.new]
    simp [Tcb.Runnable, Tcb.committed]
  · rw [h.other hu]
    simp [Tcb.Runnable, hu]

theorem new_ok (h : Created cfg k config stackPointer k₁ k') :
    TaskOk cfg (.slot k.allocatedCount) (k'.tasks (.slot k.allocatedCount)) := by
  obtain ⟨tick, deadline, sequence, heq⟩ := h.inserted_new
  have hcases := h.cases (.slot k.allocatedCount)
  rw [h.new] at hcases ⊢
  obtain ⟨-, i, -, -, hbase, hpos, hlt⟩ := hcases.resolve_left fun hc => hc.1 rfl
  generalize k₁.tasks (.slot k.allocatedCount) = task at *
  have hrange := h.accepted.stack
  refine ⟨by simp [Tcb.committed], fun _ => ?_, fun _ => ?_, by simp [Tcb.committed]⟩
  · refine ⟨rfl, ?_, fun ha => ?_, .inl h.room, hbase.le, hlt, ?_, fun hpol _ => ?_⟩
    · rw [heq]
      exact ⟨h.pointer, hrange.1, Nat.ne_of_gt (Nat.zero_lt_of_lt hrange.2), hrange.2,
        h.accepted.entry⟩
    · simp [Tcb.committed, ha]
    · simp only [reduceCtorEq, iff_false]
      omega
    · have htiming := h.accepted.timing
      simp only [TaskConfig.TimingIsValid, hpol] at htiming
      rw [heq]
      exact htiming.1
  · rw [heq]
    exact ⟨rfl, rfl, rfl, rfl⟩

theorem task_ok (h : Created cfg k config stackPointer k₁ k') (hk : Unstarted cfg k) (u : TaskId) :
    TaskOk cfg u (k'.tasks u) := by
  rcases eq_or_ne u (.slot k.allocatedCount) with rfl | hu
  · exact h.new_ok
  · have hcases := h.cases u
    have hother := h.other hu
    generalize k'.tasks u = task at *
    obtain ⟨hd, hv, hf, hw⟩ := hk.tasks u
    have hb := (hk.plain u).priority
    refine ⟨by rw [hother]; exact hd, fun hne => ?_, by rw [hother]; exact hf, fun hblocked => ?_⟩
    · obtain ⟨g1, g2, g3, g4, g5, g6, g7, g8⟩ := hv (by rw [hother] at hne; exact hne)
      have hrange : task.basePriority ≤ task.priority ∧ task.priority < cfg.priorityCount ∧
          (task.basePriority = 0 ↔ u = .idle) := by
        rcases hcases with ⟨-, hb', hp'⟩ | ⟨-, i, -, rfl, hb', hpos, hlt⟩
        · rw [hb', hp']
          exact ⟨g5, g6, g7⟩
        · refine ⟨hb'.le, hlt, ?_⟩
          simp only [reduceCtorEq, iff_false]
          omega
      rw [hother]
      rw [hother] at hrange
      exact ⟨g1, g2, g3, g4, hrange.1, hrange.2.1, hrange.2.2, g8⟩
    · rw [hother] at hblocked ⊢
      obtain ⟨hres, hwaits⟩ := hw hblocked
      refine ⟨hres, ?_⟩
      cases hwaits with
      | delay h1 h2 h3 h4 h5 => exact .delay h1 h2 h3 h4 h5
      | semaphore i h1 h2 h3 h4 => exact .semaphore i h1 h2 h3 h4
      | mutex m h1 h2 h3 h4 h5 => exact .mutex m h1 h2 h3 h4 h5
      | service h1 h2 h3 h4 h5 => exact .service h1 h2 h3 h4 h5

theorem plain (h : Created cfg k config stackPointer k₁ k') (hk : Unstarted cfg k) (u : TaskId) :
    (k'.tasks u).Plain := by
  have hprio : (k'.tasks u).priority = (k'.tasks u).basePriority := by
    rcases h.cases u with ⟨-, hb, hp⟩ | ⟨_, _, _, _, hb, _⟩
    · rw [hb, hp, (hk.plain u).priority]
    · exact hb.symm
  rcases eq_or_ne u (.slot k.allocatedCount) with rfl | hu
  · obtain ⟨tick, deadline, sequence, heq⟩ := h.inserted_new
    rw [h.new, heq] at hprio ⊢
    exact ⟨rfl, rfl, rfl, rfl, hprio⟩
  · obtain ⟨h1, h2, h3, h4, -⟩ := hk.plain u
    rw [h.other hu] at hprio ⊢
    exact ⟨h1, h2, h3, h4, hprio⟩

theorem frame_eq (h : Created cfg k config stackPointer k₁ k') : k' = { k with
    tasks := k'.tasks
    readySet := k'.readySet
    edfReady := k'.edfReady
    policyReleaseSequence := k'.policyReleaseSequence
    allocatedCount := k.allocatedCount + 1
    nextFreeHint := nextHint cfg.maxTasks k.allocatedCount
    counters := k'.counters } := by
  rw [h.frame, h.inserted.frame]
  rfl

theorem state (h : Created cfg k config stackPointer k₁ k') (hu : u ≠ .slot k.allocatedCount) :
    (k'.tasks u).state = (k.tasks u).state := by rw [h.other hu]

theorem state_new (h : Created cfg k config stackPointer k₁ k') :
    (k'.tasks (.slot k.allocatedCount)).state = .ready := by
  rw [h.new]
  rfl

theorem unstarted (h : Created cfg k config stackPointer k₁ k') (hk : Unstarted cfg k) :
    Unstarted cfg k' := by
  have hlife : k'.lifecycle = k.lifecycle := by rw [h.frame_eq]
  have hinit : k'.lifecycle = .initialized := hlife.trans h.initialized
  constructor
  · rw [hlife]
    exact hk.lifecycle
  · exact h.task_ok hk
  · exact h.plain hk
  · intro u
    rcases eq_or_ne u (.slot k.allocatedCount) with rfl | hu
    · exact .inr h.state_new
    · rw [h.state hu]
      exact hk.state u
  · have hready := h.inserted.ready
    rw [← h.prio_eq] at hready
    have hrs : k'.readySet = k₁.readySet := by rw [h.frame]
    have her : k'.edfReady = k₁.edfReady := by rw [h.frame]
    rw [hrs, her]
    exact hready.congr h.runnable_iff fun _ => rfl
  · simp [hinit]
  · intro _
    obtain ⟨h1, h2, h3, h4⟩ := hk.named (by simp [h.initialized])
    rw [h.state (u := .idle) (by simp), h.state (u := .timerService) (by simp)]
    exact ⟨by rw [h.frame_eq]; exact h1, by rw [h.frame_eq]; exact h2, h3, h4⟩
  · rw [h.frame_eq]
    exact hk.still
  · rw [h.frame_eq]
    exact hk.delayQueue
  · rw [h.frame_eq]
    exact hk.semaphores
  · rw [h.frame_eq]
    exact hk.mutexes

theorem pool (h : Created cfg k config stackPointer k₁ k') (hp : Pool cfg k) : Pool cfg k' := by
  have hcount : k'.allocatedCount = k.allocatedCount + 1 := by rw [h.frame_eq]
  have hroom := h.room
  have hdorm : ∀ u, (k'.tasks u).state = .dormant →
      u ≠ .slot k.allocatedCount ∧ (k.tasks u).state = .dormant := by
    intro u hd
    rcases eq_or_ne u (.slot k.allocatedCount) with rfl | hu
    · simp [h.state_new] at hd
    · exact ⟨hu, h.state hu ▸ hd⟩
  constructor
  · intro u hd
    obtain ⟨hu, hd⟩ := hdorm u hd
    have hcases := h.cases u
    rw [h.other hu]
    have hfresh := hp.fresh u hd
    rcases hcases with ⟨-, hb, hpr⟩ | ⟨hinc, -⟩
    · rw [hb, hpr]
      exact hfresh
    · simp [hfresh, hu] at hinc
  · intro i
    rw [hcount]
    rcases eq_or_ne i k.allocatedCount with rfl | hi
    · simp [h.state_new]
    · rw [h.state (by simpa using hi), hp.taken]
      omega
  · omega
  · have hhint : k'.nextFreeHint = nextHint cfg.maxTasks k.allocatedCount := by rw [h.frame_eq]
    rw [hhint, hcount, nextHint]
  · intro u hd
    rcases eq_or_ne u (.slot k.allocatedCount) with rfl | hu
    · obtain ⟨_, _, _, heq⟩ := h.inserted_new
      rw [h.new, Tcb.committed, heq]
      rfl
    · rw [h.other hu]
      exact hp.slice u (h.state hu ▸ hd)

end Created

/-- The timer manager has not changed, and the service is blocked only if it was. -/
structure SameTimers (k k' : Kernel) : Prop where
  frame : k' = { k with
    lifecycle := k'.lifecycle
    tasks := k'.tasks
    allocatedCount := k'.allocatedCount
    nextFreeHint := k'.nextFreeHint
    currentTask := k'.currentTask
    readySet := k'.readySet
    edfReady := k'.edfReady
    policyReleaseSequence := k'.policyReleaseSequence
    counters := k'.counters }
  lifecycle : k'.lifecycle = .reset → k.lifecycle = .reset
  service : (k'.tasks .timerService).state = .blocked → (k.tasks .timerService).state = .blocked

theorem SameTimers.timersOk (h : SameTimers k k') (ht : TimersOk cfg k) : TimersOk cfg k' := by
  have hlife := h.lifecycle
  have hservice := h.service
  rw [h.frame]
  exact ⟨ht.slot, fun hr => ht.fresh (hlife hr), ht.nodup, ht.mem, ht.pending, ht.generation,
    ht.running, fun hb => ht.work (hservice hb), ht.depth, ht.hint, ht.inUse⟩

theorem SameTimers.ahead (h : SameTimers k k') (ha : k.Ahead) : k'.Ahead := by
  rw [h.frame]
  exact ⟨ha.window, ha.sorted⟩

/-- A step of the startup phase that ends before the scheduler runs. -/
theorem Unstarted.starts_same (h' : Unstarted cfg k') (hl : k.lifecycle ≠ .running)
    (hs : SameTimers k k') (ht : TimersOk cfg k) (hp : Pool cfg k') : Starts cfg k k' where
  before := hl
  ok := h'.kernelOk
  timersOk := hs.timersOk ht
  pool _ := hp
  calm := h'.calm
  semaphores := by rw [hs.frame]
  waiters := h'.waiters
  requests := by rw [hs.frame]
  timers := by rw [hs.frame]
  tick _ := by rw [hs.frame]
  ahead := hs.ahead
  service hb := .inl (hs.service hb)
  notReady := h'.not_currentReady
  agrees := h'.agrees
  still := h'.still.2

theorem Created.sameTimers {config : TaskConfig} {stackPointer : Nat}
    (h : Created cfg k config stackPointer k₁ k') : SameTimers k k' := by
  refine ⟨?_, fun hr => ?_, fun hb => ?_⟩
  · rw [h.frame_eq]
  · rwa [h.frame_eq] at hr
  · rwa [h.state (by simp)] at hb

/-- A creation adds one task, or fails without a trace. -/
structure Creates (cfg : Config) (k : Kernel) (config : Option TaskConfig)
    (r : Status × Option TaskId) (k' : Kernel) : Prop where
  starts : Starts cfg k k' ∨ k' = k
  failed : r.1 ≠ .ok → k' = k
  done : r.1 = .ok → ∃ config' stackPointer k₁, config = some config' ∧
    Created cfg k config' stackPointer k₁ k' ∧ r.2 = some (.slot k.allocatedCount)

theorem Pool.wp_taskCreateCommit {config : TaskConfig} {stackPointer : Nat} (hp : Pool cfg k)
    (h : Unstarted cfg k) (ht : TimersOk cfg k) (hl : k.lifecycle = .initialized)
    (hroom : k.allocatedCount < cfg.maxTasks) (hacc : config.Accepted cfg)
    (hsp : stackPointer ≠ 0) :
    wp (taskCreateCommit cfg k.allocatedCount) (Creates cfg k (some config)) E
      (k.reserve cfg k.allocatedCount (config.object cfg stackPointer)) := by
  set n := k.allocatedCount with hn
  set k₁ := k.reserve cfg n (config.object cfg stackPointer) with hk₁
  have hself : k₁.tasks (.slot n) = config.object cfg stackPointer := by simp [hk₁]
  have hother : ∀ u, u ≠ .slot n → k₁.tasks u = k.tasks u := fun u hu => k.reserve_of_ne _ hu
  have hnot : ¬ (k.tasks (.slot n)).Runnable := fun hr => hr.not_dormant hp.dormant
  have hready : ReadyOk cfg k₁.readySet k₁.edfReady k₁.prio fun u => (k.tasks u).Runnable := by
    refine h.ready.congr_of_mem (fun _ => Iff.rfl) fun u hu => ?_
    rw [Kernel.prio, hother u]
    rintro rfl
    exact hnot hu
  have hincluded : ∀ i, (k.tasks (.slot i)).Runnable → RmsIncluded k₁ (.slot n) (.slot i) := by
    intro i hi
    refine .inr ?_
    rw [hother _ (by rintro he; exact hnot (he ▸ hi))]
    exact ((h.tasks _).valid hi.not_dormant).allocated
  have hperiod : cfg.policy = .rms → (k₁.tasks (.slot n)).period ≠ 0 := by
    intro hpol
    have htiming := hacc.timing
    simp only [TaskConfig.TimingIsValid, hpol] at htiming
    rw [hself]
    exact htiming.1
  have hprio : ∀ u, k₁.prio u < cfg.priorityCount := by
    intro u
    rcases eq_or_ne u (.slot n) with rfl | hu
    · rw [Kernel.prio, hself]
      exact hacc.priority.2
    · rw [Kernel.prio, hother u hu]
      exact hp.priority_lt h u
  obtain ⟨b, k₂, hret, rfl, hins⟩ := exists_ret_of_wp (wp_policyInsert_new
    (Q := fun b k₂ => b = true ∧ Inserted cfg k₁ k₂ n fun u => (k.tasks u).Runnable)
    hready hroom hnot hincluded (by rw [hself]; rfl) hperiod hprio fun k₂ hins => ⟨rfl, hins⟩)
  unfold taskCreateCommit
  rw [wp_bind, wp_of_ret hret]
  have hnew : k₂.tasks (.slot n) = { k₁.released (.slot n) with
      basePriority := (k₂.tasks (.slot n)).basePriority
      priority := (k₂.tasks (.slot n)).priority } := by
    have := hins.task (.slot n)
    rwa [if_pos rfl] at this
  have hslot : (k₂.tasks (.slot n)).slotState = .reserved := by
    rw [hnew, Kernel.released, hself]
    rfl
  have hcount : k₂.allocatedCount = n := by rw [hins.frame]; rfl
  simp only [Bool.true_eq_false, if_false, wp_bind, wp_modify, taskPoolCommit, wp_get]
  rw [wp_rtsAssert_of (by simpa using hslot), wp_rtsAssert_of (by simp [hcount, hroom]), wp_ite,
    if_neg (by simp [hslot, hcount, hroom]), wp_modify, wp_rtsAssert_of (by simp), wp_ite,
    if_neg (by simp), wp_bind, wp_modify, wp_pure]
  generalize hk' : Kernel.count _ _ = k'
  have hcreated : Created cfg k config stackPointer k₂ k' := by
    refine ⟨hl, hroom, hacc, hsp, hins, hret, ?_⟩
    rw [← hk']
    simp [Kernel.count, Kernel.updateTask, Tcb.committed, hcount, hn]
  refine ⟨.inl ?_, by simp, fun _ => ⟨config, stackPointer, k₂, rfl, hcreated, rfl⟩⟩
  exact (hcreated.unstarted h).starts_same h.lifecycle hcreated.sameTimers ht (hcreated.pool hp)

theorem taskCreate_spec {isr outHandle : Bool} {config : Option TaskConfig} {stack : StackAnswer}
    (h : KernelOk cfg k) (ht : TimersOk cfg k) (hp : k.lifecycle ≠ .running → Pool cfg k) :
    wp (taskCreate cfg isr config outHandle stack) (Creates cfg k config)
      (Tolerated k.CurrentReady k.IdleOwns) k := by
  have hrefuse : ∀ status, status ≠ .ok → Creates cfg k config (status, none) k := fun status hs =>
    ⟨.inr rfl, fun _ => rfl, fun hok => absurd hok hs⟩
  unfold taskCreate
  split
  · exact hrefuse _ (by simp)
  split
  · rw [wp_bind, wp_rtsAssert]
    exact ⟨fun _ => by rw [wp_pure]; exact hrefuse _ (by simp), fun _ => tolerated_startup _ _ _⟩
  rw [wp_bind, wp_get]
  split
  · rename_i config hvalid
    obtain ⟨hl, hacc⟩ := taskConfigValidate_ok hvalid
    have hrun : k.lifecycle ≠ .running := by simp [hl]
    have hpool := hp hrun
    have hun := h.inv.unstarted hrun
    rw [wp_bind]
    apply hpool.wp_taskPoolReserve hun
    · intro _
      exact hrefuse _ (by simp)
    intro hroom
    simp only [wp_bind]
    apply hpool.wp_taskObjectInitialize hun rfl rfl
    rw [wp_ite, if_neg (by simp), wp_ite]
    split <;> rename_i hstack
    · rw [wp_bind]
      apply hpool.wp_taskCreateRollback hun hroom rfl rfl
      rw [wp_pure]
      refine hrefuse _ ?_
      split
      · assumption
      · simp
    · rw [not_or, not_not] at hstack
      rw [wp_bind, wp_modify, Kernel.reserve_updateTask]
      exact hpool.wp_taskCreateCommit hun ht hl hroom hacc hstack.2
  · rename_i request _ _ hvalid
    refine hrefuse _ fun hok => ?_
    cases request with
    | none => simp [taskConfigValidate] at hok
    | some config => exact hvalid config rfl hok

end RtsKernel
