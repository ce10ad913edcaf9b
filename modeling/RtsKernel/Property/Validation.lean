import RtsKernel.Model.Run
import RtsKernel.Model.Validation
import RtsKernel.Property.DeadlineOrder
import RtsKernel.Property.Refusals
import RtsKernel.Property.ServiceWork
import RtsKernel.Property.Tickless

/-!
# The validators accept the states of the kernel

Each function of `invariant_check.c` follows from the invariant of the kernel, with three
exceptions: the order of the ready list under the deadline policy, the work of a `READY` timer
service, and a current task that is not `READY`. They hold in runs whose steps are orderly.

## Main results

* `Inv.taskValidateInternal`, `Inv.syncValidateInternal`: what follows from the invariant alone.
* `Sound.schedulerValidateInternal`: the scheduler, with the three exceptions as hypotheses.
* `validator_accepts`: `rts_kernel_validate_all` in every orderly run.
* `validator_refuses_preempted_callback`: a timer service that has yielded in its last callback.
-/

namespace RtsKernel

open DoublyLinked Halting Prog

variable {cfg : Config} {k k' : Kernel} {ev : Event} {base : Tick} {stale : TaskId → Prop}
  {t c : TaskId} {m i n : Nat} {stackIsIntact : TaskId → Bool}

/-! ## One task -/

namespace Inv

theorem not_dormant_of_allocated (h : Inv cfg base stale k)
    (ha : (k.tasks t).slotState = .allocated) : (k.tasks t).state ≠ .dormant :=
  fun hd => (h.tasks t).dormant hd ha

theorem taskMembershipIsValid (h : Inv cfg base stale k) (hd : (k.tasks t).state ≠ .dormant) :
    TaskMembershipIsValid cfg k t := by
  have hready := h.policyValidate_true_iff hd
  unfold TaskMembershipIsValid
  cases hst : (k.tasks t).state with
  | dormant => exact absurd hst hd
  | ready =>
    obtain ⟨hreason, -, -, howner⟩ := (h.tasks t).free (by simp [hst])
    refine ⟨hready.mpr (.inl hst), ?_, howner, hreason⟩
    simp [h.mem_delayQueue, Tcb.Timed, hst]
  | running =>
    obtain ⟨hreason, -, -, howner⟩ := (h.tasks t).free (by simp [hst])
    refine ⟨h.running t hst, hready.mpr (.inr hst), ?_, howner, hreason⟩
    simp [h.mem_delayQueue, Tcb.Timed, hst]
  | blocked =>
    refine ⟨fun hv => Tcb.not_runnable_of_blocked hst (hready.mp hv), ?_⟩
    have htimed := h.mem_delayQueue (t := t)
    obtain ⟨-, hwaits⟩ := (h.tasks t).waits hst
    cases hwaits with
    | delay _ hreason _ htimeout howner => simp [hreason, htimed, Tcb.Timed, hst, howner, htimeout]
    | semaphore i _ hreason hobject howner =>
      simp [hreason, htimed, Tcb.Timed, hst, howner, hobject]
    | mutex m _ hreason hobject howner _ =>
      simp [hreason, htimed, Tcb.Timed, hst, howner, hobject]
    | service hid hreason hobject htimeout howner =>
      have hservice := h.phase.serviceTask (h.lifecycle_of_state hd)
      subst hid
      simp [hreason, htimed, Tcb.Timed, howner, hobject, htimeout, TaskIsTimerService, hservice]

/-- A mutex that has an owner is initialised. -/
theorem mutexIsValid_of_owner (h : Inv cfg base stale k) (ho : (k.mutexes m).owner ≠ none) :
    MutexIsValid cfg k m := by
  refine h.mutexIsValid ?_
  by_contra hnot
  exact ho (h.locks.uninitialized m (by simpa using hnot))

/-- A mutex that is waited for has an owner. -/
theorem owner_ne_none (h : Inv cfg base stale k) (hmem : t ∈ (k.mutexes m).waiters) :
    (k.mutexes m).owner ≠ none := by
  intro ho
  simp [h.locks.unowned m ho] at hmem

theorem taskWaitIsValid (h : Inv cfg base stale k) (t : TaskId) : TaskWaitIsValid cfg k t := by
  unfold TaskWaitIsValid
  by_cases hst : (k.tasks t).state = .blocked
  · obtain ⟨-, hwaits⟩ := (h.tasks t).waits hst
    cases hwaits with
    | delay _ hreason _ _ _ => simp [hreason]
    | semaphore i _ hreason hobject howner =>
      have hmem : t ∈ (k.semaphores i).waiters := (h.wait.mem (.semaphore i) t).mpr howner
      have hinit : (k.semaphores i).initialized = true := by
        by_contra hnot
        simp [(h.semaphores i).uninitialized (by simpa using hnot)] at hmem
      simp only [hreason, hobject]
      exact ⟨h.semaphoreIsValid hinit, hmem⟩
    | mutex m _ hreason hobject howner _ =>
      have hmem : t ∈ (k.mutexes m).waiters := (h.wait.mem (.mutex m) t).mpr howner
      simp only [hreason, hobject]
      exact ⟨h.mutexIsValid_of_owner (h.owner_ne_none hmem), hmem⟩
    | service _ hreason _ _ _ => simp [hreason]
  · simp [((h.tasks t).free hst).1]

theorem taskValidateInternal (h : Inv cfg base stale k) (hd : (k.tasks t).state ≠ .dormant)
    (hstacks : ∀ t, stackIsIntact t = true) : TaskValidateInternal cfg k stackIsIntact t := by
  intro _
  have hvalid := (h.tasks t).valid hd
  exact ⟨hvalid.allocated, hvalid.base_le, hvalid.prio_lt, hstacks t, h.taskMembershipIsValid hd,
    h.taskWaitIsValid t⟩

/-! ## The scheduler -/

theorem readyValidate (h : Inv cfg base stale k) : ReadyValidate cfg k := by
  intro p _
  refine ⟨fun t ht => ((h.ready.mem p t).mp ht).2.2, ?_⟩
  have hlength := h.length_le_capacity (h.ready.nodup p) fun t ht =>
    ((h.ready.mem p t).mp ht).2.1.not_dormant
  omega

theorem policyValidateAll (h : Inv cfg base stale k) (hord : cfg.policy = .edf → k.roster.Ordered) :
    PolicyValidateAll cfg k := by
  unfold PolicyValidateAll
  cases hpol : cfg.policy with
  | fixedPriority => exact h.readyValidate
  | rms =>
    refine ⟨h.readyValidate, fun i hi ⟨ha, hzero⟩ => ?_⟩
    exact ((h.tasks (.slot i)).valid (h.not_dormant_of_allocated ha)).period hpol hi hzero
  | edf => exact ⟨List.Pairwise.isChain (hord hpol), h.length_edfReady_le⟩

theorem delayQueueValidate (h : Inv cfg base stale k) : DelayQueueValidate cfg k := by
  constructor
  · refine (h.delay.sorted.imp_of_mem fun {a b} ha hb hab => ?_).isChain
    have hwindow : ∀ u ∈ k.delayQueue, InWindow base (k.wake u) := fun u hu =>
      h.delay.window u (h.mem_delayQueue.mp hu)
    rw [tickBefore_iff_of_window (hwindow b hb).2 (hwindow a ha).2]
    omega
  · have hlength := h.length_le_capacity h.delay.nodup fun t ht => by
      simp [(h.mem_delayQueue.mp ht).1]
    omega

end Inv

theorem Sound.currentValidate (h : Sound cfg k) (hcur : ¬ k.CurrentReady) :
    CurrentValidate cfg k := by
  intro hl
  obtain ⟨c, hc, -, hrun | ⟨hblocked, hplan, -⟩⟩ := h.legal hl hcur
  · exact ⟨c, hc, fun hnot => absurd hrun hnot⟩
  · exact ⟨c, hc,
      fun _ => ⟨hblocked, hplan, (h.ok.inv.taskIsBlocked hblocked).imp And.right And.right⟩⟩

theorem Sound.schedulerValidateInternal (h : Sound cfg k) (hcur : ¬ k.CurrentReady)
    (hwork : k.Attended) (hord : cfg.policy = .edf → k.roster.Ordered)
    (hreset : k.lifecycle = .reset → k.IsReset) (hstacks : ∀ t, stackIsIntact t = true) :
    SchedulerValidateInternal cfg k stackIsIntact := by
  intro _
  have hinv := h.ok.inv
  split <;> rename_i hl
  · have hk := hreset hl
    rw [← hk]
    exact ⟨rfl, rfl, rfl, rfl⟩
  · refine ⟨hinv.policyValidateAll hord, hinv.phase.idleTask hl,
      hinv.taskValidateInternal (hinv.phase.idle hl).not_dormant hstacks, hinv.phase.serviceTask hl,
      hinv.taskValidateInternal (hinv.phase.service hl) hstacks, ⟨fun hb => ?_, fun hr => ?_⟩,
      hinv.delayQueueValidate, h.currentValidate hcur, ?_⟩
    · rw [h.timersOk.work hb]
      rfl
    · exact fun hzero => hwork hr (List.length_eq_zero_iff.mp hzero)
    · rintro ⟨hactive, hpending⟩
      simp [hinv.plan.exclusive hpending] at hactive

/-! ## Synchronization -/

namespace Inv

/-- What a task that waits for a mutex waits for. -/
theorem exists_awaited (h : Inv cfg base stale k) (hwaits : WaitsForMutex k c) :
    ∃ m owner, (k.tasks c).wait.object = some (.mutex m) ∧ (k.mutexes m).owner = some owner ∧
      awaits k.mutexes k.tasks c = some owner := by
  obtain ⟨hblocked, hreason⟩ := hwaits
  obtain ⟨m, hobject, howner⟩ : ∃ m, (k.tasks c).wait.object = some (.mutex m) ∧
      (k.tasks c).waitOwner = some (.mutex m) := by
    obtain ⟨-, hwaits⟩ := (h.tasks c).waits hblocked
    cases hwaits <;> simp_all
  have hmem : c ∈ (k.mutexes m).waiters := (h.wait.mem (.mutex m) c).mpr howner
  obtain ⟨owner, ho⟩ := Option.ne_none_iff_exists'.mp (h.owner_ne_none hmem)
  exact ⟨m, owner, hobject, ho, awaits_eq_some.mpr ⟨m, (h.locks.waiting m c).mp hmem, ho⟩⟩

/-- A chain of owners goes down in rank, so it ends in time and does not come back. -/
theorem mutexChainIsValid (h : Inv cfg base stale k) {rank : TaskId → Nat}
    (hrank : ∀ a b, awaits k.mutexes k.tasks a = some b → rank b < rank a) {budget : Nat}
    (hbudget : rank c ≤ budget) (hstart : rank c ≤ rank t) :
    MutexChainIsValid cfg k t budget c := by
  induction budget generalizing c with
  | zero =>
    intro hwaits
    obtain ⟨m, owner, -, -, hawaits⟩ := h.exists_awaited hwaits
    have hlt := hrank _ _ hawaits
    omega
  | succ budget ih =>
    intro hwaits
    obtain ⟨m, owner, hobject, ho, hawaits⟩ := h.exists_awaited hwaits
    have hlt := hrank _ _ hawaits
    have hused := h.locks.owner_valid m owner ho
    have hl := h.lifecycle_of_state hused
    simp only [hobject, ho]
    refine ⟨h.mutexIsValid_of_owner (by simp [ho]), ⟨?_, ?_⟩, ih (by omega) (by omega)⟩
    · rintro rfl
      omega
    · rw [h.phase.idleTask hl, h.phase.serviceTask hl]
      refine ((h.tasks owner).valid hused).known.imp_right (.imp ?_ ?_) <;> rintro rfl <;> rfl

/-- The walk along the owned mutexes counts them and finds the priority they require. -/
theorem ownedMutexesWalk_eq (h : Inv cfg base stale k) {l : List Nat} {before : Option Nat}
    {owned required : Nat}
    (hseg : Segment (fun m => (k.mutexes m).ownedPrevious) (fun m => (k.mutexes m).ownedNext)
      before l none)
    (howner : ∀ m ∈ l, (k.mutexes m).owner = some t) (hn : l.length ≤ n) :
    ownedMutexesWalk cfg k t n l.head? owned required =
      some (owned + l.length, l.foldl (fun r m => requiredByMutex k m r) required) := by
  induction l generalizing n owned required before with
  | nil => cases n <;> rfl
  | cons m l ih =>
    obtain ⟨n, rfl⟩ : ∃ n', n = n' + 1 := Nat.exists_eq_add_one_of_ne_zero (by simp at hn; omega)
    have ho := howner m (by simp)
    have hvalid : MutexIsValid cfg k m ∧ (k.mutexes m).owner = some t :=
      ⟨h.mutexIsValid_of_owner (by simp [ho]), ho⟩
    have hnext : (k.mutexes m).ownedNext = l.head? := by simpa using hseg.2.1
    rw [List.head?_cons, ownedMutexesWalk, if_pos hvalid, hnext,
      ih hseg.2.2 (fun m hm => howner m (by simp [hm])) (by simpa using hn)]
    simp only [List.length_cons, List.foldl_cons]
    congr 2
    omega

theorem ownedMutexesValidate (h : Inv cfg base noneStale k) (t : TaskId) :
    OwnedMutexesValidate cfg k t := by
  obtain ⟨owned, hown⟩ := h.locks.owned
  have hlist := hown.isList t
  have hfold := isGreatest_foldl_required (k.tasks t).basePriority
    (fun m (_ : m ∈ owned t) => h.sorted (.mutex m))
  have hdemand : demand k.mutexes k.tasks t = {p | p = (k.tasks t).basePriority ∨
      ∃ m ∈ owned t, ∃ u ∈ (k.mutexes m).waiters, p = k.prio u} := by
    ext p
    simp only [demand, Set.mem_ofPred_eq, hown.mem]
    exact or_congr_right (exists_congr fun m => exists_and_left)
  rw [← hdemand] at hfold
  have hprio := hfold.unique (h.locks.inherits t not_false)
  have hbound : (owned t).length ≤ cfg.maxMutexesPerTask := hown.length t ▸ hown.bound t
  unfold OwnedMutexesValidate
  rw [hlist.head_eq, h.ownedMutexesWalk_eq hlist.links (fun m hm => (hown.mem t m).mp hm) hbound,
    hown.length, Nat.zero_add, hprio]

theorem syncValidateInternal (h : Inv cfg base noneStale k) : SyncValidateInternal cfg k := by
  intro _ hl
  obtain ⟨rank, hlt, hrank⟩ := h.exists_rank
  refine ⟨fun i _ ha => ⟨?_, h.ownedMutexesValidate _⟩, _, h.phase.serviceTask hl,
    h.ownedMutexesValidate _⟩
  exact h.mutexChainIsValid hrank (hlt _ (h.not_dormant_of_allocated ha)).le le_rfl

end Inv

/-! ## The kernel -/

/-- The tasks that have been created are in the first slots, and counted. -/
structure Kernel.Counted (cfg : Config) (k : Kernel) : Prop where
  allocated : ∀ i, (k.tasks (.slot i)).slotState = .allocated ↔ i < k.allocatedCount
  count_le : k.allocatedCount ≤ cfg.maxTasks

theorem Sound.counted (h : Sound cfg k) (hl : k.lifecycle ≠ .running) : k.Counted cfg := by
  have hpool := h.pool hl
  refine ⟨fun i => ?_, hpool.count_le⟩
  rw [← hpool.taken]
  exact ⟨h.ok.inv.not_dormant_of_allocated, fun hd => ((h.ok.inv.tasks _).valid hd).allocated⟩

theorem Step.counted (hs : Step cfg k ev k') (h : Sound cfg k) (hk : k.Counted cfg) :
    k'.Counted cfg := by
  by_cases hev : ev.Populates
  · by_cases hl' : k'.lifecycle = .running
    swap
    · exact (h.step hs).counted hl'
    obtain rfl | ⟨-, rfl | ⟨_, _, hinit⟩⟩ | ⟨_, _, _, _, rfl, henrols⟩ :=
      hs.populates h hev
    · exact hk
    · simp [kernelRestoreReset] at hl'
    · rw [hinit.frame] at hl'
      simp at hl'
    · obtain ⟨_, hret⟩ := exists_ret_of_discard hs.2
      have hl : k.lifecycle ≠ .running := by simp [henrols.initialized]
      exact absurd hl' (leads_unstarted_taskCreate.ret hret hl)
  · obtain ⟨hprofile, hcreated⟩ := runEvent_keeps hev hs.2
    have hslot : ∀ i, (k'.tasks (.slot i)).slotState = (k.tasks (.slot i)).slotState := fun i =>
      congrArg Profile.slotState (congrFun hprofile (.slot i))
    have hcount : k'.allocatedCount = k.allocatedCount := hcreated
    refine ⟨fun i => ?_, hcount ▸ hk.count_le⟩
    rw [hslot, hcount]
    exact hk.allocated i

theorem Kernel.Counted.countP (h : k.Counted cfg) :
    (List.range cfg.maxTasks).countP (fun i => (k.tasks (.slot i)).slotState = .allocated) =
      k.allocatedCount := by
  have hbelow : ∀ N, (List.range N).countP (fun i => decide (i < k.allocatedCount)) =
      min k.allocatedCount N := by
    intro N
    induction N with
    | zero => simp
    | succ N ih =>
      rw [List.range_succ, List.countP_append, ih, List.countP_singleton]
      split <;> rename_i hlt <;> simp only [decide_eq_true_eq] at hlt <;> omega
  simp only [h.allocated, hbelow, min_eq_left h.count_le]

/-- The steps after which the validators still accept the kernel. -/
structure Event.Orderly (cfg : Config) (k : Kernel) (ev : Event) : Prop where
  service : ¬ ev.ReadiesService cfg k
  work : ¬ ev.StrandsService cfg k
  shipped : ev.ShippedAdvance cfg k
  punctual : ev.Punctual cfg k

instance (cfg : Config) (k : Kernel) (ev : Event) : Decidable (ev.Orderly cfg k) :=
  decidable_of_iff
    (¬ ev.ReadiesService cfg k ∧ ¬ ev.StrandsService cfg k ∧ ev.ShippedAdvance cfg k ∧
      ev.Punctual cfg k)
    ⟨fun ⟨h₁, h₂, h₃, h₄⟩ => ⟨h₁, h₂, h₃, h₄⟩, fun ⟨h₁, h₂, h₃, h₄⟩ => ⟨h₁, h₂, h₃, h₄⟩⟩

/-- In every run of orderly steps, the full validator accepts the kernel as long as the stacks are
intact. -/
theorem validator_accepts (h : ReachableWhen cfg (fun k ev => ev.Orderly cfg k) k)
    (hstacks : ∀ t, stackIsIntact t = true) : KernelValidateAll cfg k stackIsIntact := by
  intro _
  have hsound := h.sound
  have hinv := hsound.ok.inv
  have hcur : ¬ k.CurrentReady := h.not_currentReady fun _ _ hev => hev.service
  have hwork : k.Attended := h.attended (fun _ _ hev => hev.service) fun _ _ hev => hev.work
  have hahead : k.Ahead :=
    ReachableWhen.ahead_of_shipped (Transition.ReachableFrom.mono h fun _ _ hev => hev.shipped)
  have hcounted : k.Counted cfg := h.invariant (P := Kernel.Counted cfg)
    (sound_resetKernel.counted (by simp [resetKernel])) fun _ _ _ hk hs _ _ hc => hs.counted hk hc
  refine ⟨?_, hinv.syncValidateInternal, hsound.timersOk.validate hahead, fun i _ ha => ?_,
    hcounted.countP⟩
  · refine hsound.schedulerValidateInternal hcur hwork ?_ (fun hl => ?_) hstacks
    · exact fun hedf => (h.ordered (fun _ _ hev => hev.punctual) hedf).1
    · exact (h.unused (by simp [hl])).reset hl
  · exact hinv.taskValidateInternal (hinv.not_dormant_of_allocated ha) hstacks

def checkedConfig : Config :=
  { sampleConfig with enableAssertions := true, enableInvariantChecks := true }

/-- A task of the priority of the service is preempted by the tick that a timer expires in; in the
callback the service yields to the task again. -/
def yieldingServiceEvents : List Event :=
  bootEvents 3 ++ [.timerInit false (some ⟨1, 1, .oneShot⟩), .timerStart false 0,
    .start false true true, .tick true 1, .yield false, .acquire,
    .complete ⟨.slot 0, .timerService, 1⟩ true, .serviceBegin, .yield false, .acquire,
    .complete ⟨.timerService, .slot 0, 2⟩ true]

theorem validator_accepts_woken : ∃ k : Kernel, k.lifecycle = .running ∧
    (k.tasks .timerService).state = .ready ∧ KernelValidateAll checkedConfig k fun _ => true := by
  have hrun : (execute checkedConfig (fun k ev => ev.Orderly checkedConfig k)
      (yieldingServiceEvents.take 6) resetKernel).any (fun k =>
        decide (k.lifecycle = .running ∧ (k.tasks .timerService).state = .ready)) = true := by
    decide +kernel
  obtain ⟨k, hk, hl, hready⟩ := exists_reachable hrun
  exact ⟨k, hl, hready, validator_accepts hk fun _ => rfl⟩

/-- The service is `READY` in the middle of its last callback: its queue is empty, and the validator
refuses the state. -/
theorem validator_refuses_preempted_callback : ∃ k,
    ReachableWhen checkedConfig (fun k ev => ev.ShippedAdvance checkedConfig k ∧
      ¬ ev.ReadiesService checkedConfig k ∧ ev.Punctual checkedConfig k) k ∧
    (k.tasks .timerService).state = .ready ∧ k.serviceWork ≠ none ∧ k.callbackQueue = [] ∧
    ¬ KernelValidateAll checkedConfig k fun _ => true := by
  have hrun : (execute checkedConfig (fun k ev => ev.ShippedAdvance checkedConfig k ∧
      ¬ ev.ReadiesService checkedConfig k ∧ ev.Punctual checkedConfig k) yieldingServiceEvents
      resetKernel).any (fun k => decide ((k.tasks .timerService).state = .ready ∧
        k.serviceWork ≠ none ∧ k.callbackQueue = [] ∧
        ¬ KernelValidateAll checkedConfig k fun _ => true)) = true := by
    decide +kernel
  exact exists_reachable hrun

end RtsKernel
