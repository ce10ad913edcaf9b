import RtsKernel.Operation.Effect

/-!
# Yield, delay and the consumption of a result

The calls by which the running task gives way: to its equals, until a deadline; and the read of
the result a wait has ended with.
-/

namespace RtsKernel

open Halting Prog

variable {cfg : Config} {base : Tick} {stale : TaskId → Prop} {k k' : Kernel} {t c : TaskId}
  {E : Fatal → Kernel → Prop}

/-! ## Moves within the ready queues -/

/-- One task has been moved among the runnable ones. -/
structure Requeued (cfg : Config) (k k' : Kernel) (c : TaskId) : Prop where
  frame : k' = { k with
    tasks := k'.tasks
    readySet := k'.readySet
    edfReady := k'.edfReady
    policyReleaseSequence := k'.policyReleaseSequence
    counters := k'.counters }
  task : (k.tasks c).SameButRelease (k'.tasks c)
  others : ∀ u, u ≠ c → k'.tasks u = k.tasks u
  ready : ReadyOk cfg k'.readySet k'.edfReady k.prio fun u => (k.tasks u).Runnable

namespace Requeued

theorem sameButRelease (h : Requeued cfg k k' c) (u : TaskId) :
    (k.tasks u).SameButRelease (k'.tasks u) := by
  by_cases huc : u = c
  · exact huc ▸ h.task
  · rw [h.others u huc]
    exact .refl _

theorem state (h : Requeued cfg k k' c) (u : TaskId) : (k'.tasks u).state = (k.tasks u).state := by
  rw [h.sameButRelease u]

theorem prio_eq (h : Requeued cfg k k' c) : k'.prio = k.prio := funext fun u => by
  simp only [Kernel.prio]
  rw [h.sameButRelease u]

theorem rest (h : Requeued cfg k k' c) : k'.rest = k.rest := by
  rw [h.frame]
  rfl

theorem waiters (h : Requeued cfg k k' c) : k'.waiters = k.waiters := by
  rw [h.frame]
  funext o
  cases o <;> rfl

theorem fifo (h : Requeued cfg k k' c) : Fifo k k' :=
  .of_sublist (fun o => by rw [h.waiters]) h.prio_eq

theorem currentReady (h : Requeued cfg k k' c) (hr : k'.CurrentReady) : k.CurrentReady := by
  obtain ⟨d, hd, hst⟩ := hr
  refine ⟨d, ?_, h.state d ▸ hst⟩
  rw [h.frame] at hd
  exact hd

theorem sameWaits (h : Requeued cfg k k' c) : SameWaits k k' := by
  refine ⟨?_, fun u _ => ⟨?_, by rw [h.state], ?_⟩, ?_, fun m => ?_, fun i => ?_⟩
  · rw [h.frame]
  · rw [h.sameButRelease u]
  · rw [Tcb.Runnable, Tcb.Runnable, h.state]
    exact id
  · rw [h.frame]
  · rw [h.frame]
  · rw [h.frame]
    rfl

theorem inv (hq : Requeued cfg k k' c) (h : Inv cfg base stale k) : Inv cfg base stale k' := by
  have hwait : ∀ u, (k'.tasks u).wait = (k.tasks u).wait := fun u => by rw [hq.sameButRelease u]
  have hwo : k'.waitOwners = k.waitOwners := funext fun u => by
    simp only [Kernel.waitOwners]
    rw [hq.sameButRelease u]
  have hcur : k'.currentTask = k.currentTask := by rw [hq.frame]
  have hplan : k'.switchPlan = k.switchPlan := by rw [hq.frame]
  have hmut : k'.mutexes = k.mutexes := by rw [hq.frame]
  have hsem : k'.semaphores = k.semaphores := by rw [hq.frame]
  have hdelay : k'.delayQueue = k.delayQueue := by rw [hq.frame]
  refine ⟨fun u => ?_, ?_, ?_, ?_, ?_, hsem ▸ h.semaphores, fun u hu => ?_, ?_, ?_⟩
  · refine (h.tasks u).sameButBooks (hq.sameButRelease u).sameButBooks fun _ => ?_
    rw [hq.sameButRelease u]
  · rw [hq.prio_eq]
    refine hq.ready.congr (fun u => ?_) fun _ => rfl
    simp only [Tcb.Runnable, hq.state]
  · rw [hdelay]
    refine h.delay.congr (fun u => ?_) fun u _ => ?_
    · simp only [Tcb.Timed, hq.state, hwait]
    · simp only [Kernel.wake, hwait]
  · rw [hq.waiters, hq.prio_eq, hwo]
    exact h.wait
  · rw [hmut]
    exact h.locks.congr_tasks (fun u => .of_release (hq.sameButRelease u)) (by rw [hcur]; exact id)
  · rw [hcur]
    exact h.running u (hq.state u ▸ hu)
  · refine h.phase.congr hq.rest hcur (fun _ => ⟨hplan, fun m => by rw [hmut], fun u =>
      ⟨hwait u, hq.state u⟩⟩) (fun u => by rw [hq.state]) fun hidle => ?_
    simpa only [Tcb.Runnable, hq.state] using hidle
  · rw [hcur, hplan]
    exact h.plan

end Requeued

/-! ## Yield -/

/-- Only the current task runs, so another runnable task is `READY`. -/
theorem Inv.ready_of_ne (h : Inv cfg base stale k) (hc : k.currentTask = some c)
    (hr : (k.tasks t).Runnable) (ht : t ≠ c) : (k.tasks t).state = .ready := by
  obtain hst | hst := hr
  · exact hst
  · have := h.running t hst
    rw [hc] at this
    exact absurd (Option.some.inj this).symm ht

/-- The agreement survives a yield after which the current task is still the first choice: it was
before, so there was no plan to keep. -/
theorem Requeued.outcome_of_pick (hq : Requeued cfg k k' c) (h : KernelOk cfg k)
    (hc : k.currentTask = some c) (hst : (k.tasks c).state = .running)
    (hpick : policyPickNext cfg k = some c) (hpick' : policyPickNext cfg k' = some c)
    (hinactive : k.switchPlan.active = false) : Outcome cfg k k' := by
  have hcur : k'.currentTask = k.currentTask := by rw [hq.frame]
  have hplan : k'.switchPlan = k.switchPlan := by rw [hq.frame]
  have htick : k'.currentTick = k.currentTick := by rw [hq.frame]
  refine ⟨⟨htick ▸ hq.inv h.inv, fun d hd hb => ?_⟩, hq.currentReady, fun ha _ => ⟨?_, ?_⟩⟩
  · obtain rfl : c = d := Option.some.inj (hc.symm.trans (hcur.symm.trans hd))
    rw [hq.state, hst] at hb
    simp at hb
  · intro d p hd hp hact hres
    obtain rfl : c = d := Option.some.inj (hc.symm.trans (hcur.symm.trans hd))
    obtain rfl : c = p := Option.some.inj (hpick'.symm.trans hp)
    rw [hplan] at hact hres ⊢
    exact ⟨fun hne => absurd rfl hne, fun _ => (ha.settled c c hc hpick hact hres).2 rfl⟩
  · intro d hact
    rw [hplan, hinactive] at hact
    simp at hact

/-- What a yield leaves behind. Under EDF the pick may still be the caller, when the release numbers
of its peers are too far behind to be compared; the call then fails after the fact. -/
structure Yields (cfg : Config) (k : Kernel) (status : Status) (k' : Kernel) : Prop where
  scheduled : Scheduled cfg k k'
  same : SameWaits k k'
  notifies : Notifies k k'
  failed : status ≠ .ok → k' = k ∨ cfg.policy = .edf ∧ policyPickNext cfg k' = k.currentTask

theorem Requeued.shifts (h : Requeued cfg k k' c) (hl : k.lifecycle = .running) : Shifts k k' where
  rest := h.rest
  running := hl
  currentTask := by rw [h.frame]
  ready := h.currentReady
  service := by rw [h.state]
  fifo := h.fifo
  plan := by rw [h.frame]
  requests := by rw [h.frame]
  keeps t ht := by
    rw [h.state]
    exact ht

/-- The kernel in which the task that yields has a full time slice and the yield has been
counted. -/
def Kernel.yielding (cfg : Config) (k : Kernel) (c : TaskId) : Kernel :=
  (k.updateTask c fun task => { task with sliceRemaining := cfg.timeSliceTicks }).count
    fun c => { c with yields := diagnosticCounterIncrement c.yields }

/-- The policy requeues the task that yields. If it has been moved, it is no longer the pick, but
for EDF. -/
theorem wp_policyYield_requeued (h : KernelOk cfg k) (hco : YieldCurrentIsCoherent cfg k c) :
    wp (policyYield cfg c) (fun moved k₂ => Requeued cfg k k₂ c ∧
      (moved = false → policyPickNext cfg k₂ = some c) ∧
      (moved = true → cfg.policy ≠ .edf → policyPickNext cfg k₂ ≠ some c)) E
      (k.yielding cfg c) := by
  obtain ⟨-, hst, -, -, hpick, -⟩ := hco
  have htask : (k.tasks c).SameButRelease ((k.yielding cfg c).tasks c) := by
    simp [Kernel.yielding, Tcb.SameButRelease]
  have hothers : ∀ u, u ≠ c → (k.yielding cfg c).tasks u = k.tasks u := fun u hu => by
    simp [Kernel.yielding, hu]
  have hq : Requeued cfg k (k.yielding cfg c) c := ⟨rfl, htask, hothers, h.inv.ready⟩
  have hpick₁ : policyPickNext cfg (k.yielding cfg c) = some c :=
    hpick ▸ policyPickNext_congr rfl rfl
  refine wp_policyYield (R := fun u => (k.tasks u).Runnable) ?_ ?_ ⟨hq, fun _ => hpick₁, by simp⟩
    fun rs er sequence task hsame hr hmove => ⟨⟨rfl, ?_, fun u hu => ?_, ?_⟩, by simp, ?_⟩
  · rw [hq.prio_eq]
    exact h.inv.ready
  · rw [hq.prio_eq]
    exact h.inv.ready.range c (.inr hst)
  · simp only [Kernel.requeue_tasks, Function.update_self]
    exact htask.trans hsame
  · simp only [Kernel.requeue_tasks, Function.update_of_ne hu]
    exact hothers u hu
  · rw [hq.prio_eq] at hr
    exact hr
  · exact fun _ hpol => hmove hpol hpick₁

theorem taskYieldAs_spec (h : KernelOk cfg k) (hco : YieldCurrentIsCoherent cfg k c) :
    wp (taskYieldAs cfg c) (Yields cfg k) (Tolerated k.CurrentReady k.IdleOwns) k := by
  have hyield := wp_policyYield_requeued (E := Tolerated k.CurrentReady k.IdleOwns) h hco
  obtain ⟨hc, hst, -, -, hpick, hinactive⟩ := hco
  have hl := h.inv.running_of_current hc
  have hfin : ∀ k' status, Requeued cfg k k' c → policyPickNext cfg k' = some c →
      (status ≠ .ok → cfg.policy = .edf) → Yields cfg k status k' := by
    intro k' status hq hpick' hfail
    have hs := hq.shifts hl
    exact ⟨⟨hq.outcome_of_pick h hc hst hpick hpick' hinactive, hs.rest, hs.currentTask,
      fun hne => absurd hl hne, hs.service, hs.fifo, .of_same hs.plan hs.keeps⟩, hq.sameWaits,
      .of_same (fun hp => hs.plan ▸ hp) hs.requests,
      fun hne => .inr ⟨hfail hne, hpick'.trans hc.symm⟩⟩
  unfold taskYieldAs
  rw [wp_bind, wp_modify, wp_bind]
  refine wp_mono hyield (fun moved k₂ hk₂ => ?_) fun _ _ => id
  obtain ⟨hq₂, hstays, hmove⟩ := hk₂
  rw [wp_ite]
  split <;> rename_i hmoved
  · rw [wp_pure]
    exact hfin k₂ .ok hq₂ (hstays hmoved) (by simp)
  rw [Bool.not_eq_false] at hmoved
  have hinv₂ := hq₂.inv h.inv
  have hc₂ : k₂.currentTask = some c := by rw [hq₂.frame]; exact hc
  have hl₂ := hinv₂.running_of_current hc₂
  rw [wp_bind]
  refine wp_select hinv₂ (by simp [hl₂]) (fun p hp hrun => ?_)
    fun _ _ => tolerated_selectRunnable _ _ _
  simp only [wp_get, wp_bind, wp_rtsAssert, wp_ite]
  have htol : Tolerated k.CurrentReady k.IdleOwns (.assertion .taskYield) k₂ :=
    ⟨by simp [Site.Excluded], by simp [Site.Outgoing]⟩
  refine ⟨fun _ => ⟨fun _ => ?_, fun _ => htol⟩, fun _ => htol⟩
  by_cases hpc : p = c
  · rw [if_pos (.inl hpc), wp_pure]
    refine hfin k₂ .invalidState hq₂ (hpc ▸ hp) fun _ => ?_
    by_contra hne
    exact hmove hmoved hne (hpc ▸ hp)
  · have hready := hinv₂.ready_of_ne hc₂ (hinv₂.pick_runnable hp) hpc
    rw [if_neg (by simp [hpc, hready])]
    refine wp_prepareSwitch hinv₂ (by simp) hc₂ hrun (fun hrdy _ => ?_) (fun b k₃ hprep hne => ?_)
      fun hrdy _ => tolerated_prepareOutgoing (hq₂.currentReady hrdy) _
    · obtain ⟨d, hd, hdst⟩ := hq₂.currentReady hrdy
      obtain rfl : c = d := Option.some.inj (hc.symm.trans hd)
      simp [hst] at hdst
    · have hplanned : Planned cfg k₂ k₃ b := .prepared c p hc₂ hne hp hrun hprep
      exact wp_notifyPort ⟨((hq₂.shifts hl).scheduled hinv₂ hplanned).notify b,
        hq₂.sameWaits.trans (hplanned.replanned.trans (.notify k₃ b)).sameWaits,
        (hq₂.shifts hl).notifies hplanned, by simp⟩

theorem taskYield_spec {isr : Bool} (h : KernelOk cfg k) :
    wp (taskYield cfg isr) (Yields cfg k) (Tolerated k.CurrentReady k.IdleOwns) k := by
  have hquiet : ∀ status, Yields cfg k status k := fun _ =>
    ⟨.refl h, .refl k, .refl k, fun _ => .inl rfl⟩
  have htol : Tolerated k.CurrentReady k.IdleOwns (.assertion .taskYieldCoherent) k :=
    ⟨by simp [Site.Excluded], by simp [Site.Outgoing]⟩
  simp only [taskYield, wp_ite, wp_bind, wp_get]
  split
  · exact hquiet _
  split
  · exact hquiet _
  cases k.currentTask with
  | none =>
    simp only [wp_bind, wp_rtsAssert, wp_pure]
    exact ⟨fun _ => hquiet _, fun _ => htol⟩
  | some c =>
    simp only [wp_bind, wp_rtsAssert, wp_ite]
    refine ⟨fun _ => ?_, fun _ => htol⟩
    split <;> rename_i hco
    · exact hquiet _
    · exact taskYieldAs_spec h (by simpa using hco)

/-! ## Delay -/

theorem taskDelayAs_spec {isr : Bool} {d : Tick} (h : KernelOk cfg k)
    (hcan : CurrentCanBlock cfg k c) (happ : c.IsApplication cfg) (h0 : d ≠ 0) (hd : d ≤ delayMax) :
    wp (taskDelayAs cfg d c) (Served cfg k (.delay isr d))
      (Tolerated k.CurrentReady k.IdleOwns) k := by
  have hrun : (k.tasks c).Runnable := .inr hcan.2.1
  have hl := h.inv.running_of_current hcan.1
  set wait := delayWait (k.currentTick + d)
  have hwin : InWindow k.currentTick wait.wakeTick := inWindow_add h0 hd
  have hready := h.inv.ready.remove c
  have hremoved : PolicyValidate cfg (suspended cfg k c wait) c false := by
    have hprio : (suspended cfg k c wait).prio = k.prio := prio_update rfl
    refine ⟨?_, fun hrms => .inr (.inr ?_)⟩
    · rw [policyContains_iff (R := fun u => (k.tasks u).Runnable ∧ u ≠ c)
        (by rw [hprio]; exact hready)]
      simp
    · have hper := ((h.inv.tasks c).valid hrun.not_dormant).period hrms happ
      simpa [suspended, Tcb.blockOn] using hper
  unfold taskDelayAs
  rw [wp_bind, wp_get, wp_bind]
  refine wp_suspendCurrent h.inv hrun ?_
  rw [wp_bind, wp_get, wp_bind, wp_fatalUnless_of hremoved, wp_bind, wp_modify, wp_bind]
  refine wp_delayInsert_suspended h.inv hrun rfl (.inl rfl) hwin fun k₁ hbl => ?_
  have hsus := hcan.suspends happ hbl
  have hinv : Inv cfg k.currentTick noneStale k₁ := by
    refine h.inv.blocks hl hrun happ.ne_idle hbl rfl ?_ (fun _ => hwin) (by simp [delayWait])
      (hbl.locks h.inv hrun (by simp [delayWait]) (by simp [delayWait]))
    exact .delay happ rfl rfl rfl rfl
  have hblocked : TaskIsBlockedDelay cfg k₁ c := by
    obtain ⟨-, hw⟩ | ⟨hr, -⟩ := hinv.taskIsBlocked hbl.state_eq
    · exact hw
    · simp [hbl.wait_eq, delayWait] at hr
  have hcur : k₁.currentTask = some c := hbl.currentTask.trans hcan.1
  rw [wp_bind, wp_get, wp_bind, wp_fatalUnless_of hblocked, wp_bind]
  refine wp_planAfterBlock hinv (by simp) hcur hbl.state_eq (fun b k₂ hp => ?_)
    (tolerated_selectRunnable _ _ _)
  have hparked : k₂.switchPlan.pending = true ∨ k₂.switchPlan.active = true := by
    refine hp.parked hinv c ?_ ?_
    · rw [hp.replanned]
      exact hcur
    · rw [hp.replanned]
      exact hbl.state_eq
  rw [wp_bind, wp_get, wp_bind, wp_fatalUnless_of hparked, wp_bind]
  obtain ⟨hsched, hsame, hnotify⟩ := hsus.scheduled h (.refl .up k₁) hinv hp
  exact wp_notifyPort ⟨hsched, .delays h0 hd hsus hsame, hnotify, by simp⟩

/-- A delay fails like any other call, or like the yield that a delay of zero is. -/
structure Delays (cfg : Config) (k : Kernel) (ev : Event) (status : Status) (k' : Kernel) :
    Prop where
  scheduled : Scheduled cfg k k'
  effect : Effect cfg k k' ev
  notifies : Notifies k k'
  failed : status ≠ .ok → k' = k ∨ cfg.policy = .edf ∧ policyPickNext cfg k' = k.currentTask

theorem Served.delays {ev : Event} {status : Status} (h : Served cfg k ev status k') :
    Delays cfg k ev status k' := ⟨h.scheduled, h.effect, h.notifies, fun hne => .inl (h.failed hne)⟩

theorem taskDelay_spec {isr : Bool} {d : Tick} (h : KernelOk cfg k) :
    wp (taskDelay cfg isr d) (Delays cfg k (.delay isr d))
      (Tolerated k.CurrentReady k.IdleOwns) k := by
  have hquiet : ∀ status, Delays cfg k (.delay isr d) status k := fun _ =>
    (Served.quiet h rfl).delays
  have htol : Tolerated k.CurrentReady k.IdleOwns (.assertion .taskDelayCoherent) k :=
    ⟨by simp [Site.Excluded], by simp [Site.Outgoing]⟩
  simp only [taskDelay, wp_ite, wp_bind, wp_get]
  split <;> rename_i h0
  · refine wp_mono (taskYield_spec h) (fun _ k' hk' => ?_) fun _ _ => id
    exact ⟨hk'.scheduled, .quiet hk'.same rfl, hk'.notifies, hk'.failed⟩
  split <;> rename_i hd
  · exact hquiet _
  split
  · exact hquiet _
  split
  · exact hquiet _
  cases hc : k.currentTask with
  | none =>
    simp only [wp_bind, wp_rtsAssert, wp_pure]
    exact ⟨fun _ => hquiet _, fun _ => htol⟩
  | some c =>
    simp only [wp_bind, wp_rtsAssert, wp_ite]
    split <;> rename_i hservice
    · exact hquiet _
    refine ⟨fun _ => ?_, fun _ => htol⟩
    split <;> rename_i hcan
    · exact hquiet _
    rw [not_not] at hcan
    have happ := h.inv.isApplication (h.inv.not_dormant_of_current hc) hcan.2.2.1 hservice
    exact wp_mono (taskDelayAs_spec h hcan happ h0 (by simpa using hd)) (fun _ _ => Served.delays)
      fun _ _ => id

/-! ## Consumption -/

/-- The result of a wait that is over is no part of the schedule. -/
theorem Inv.consume (h : Inv cfg base stale k) (c : TaskId) :
    Inv cfg base stale (k.updateTask c fun task =>
      { task with wait := { task.wait with result := .none } }) := by
  set k' := k.updateTask c fun task => { task with wait := { task.wait with result := .none } }
    with hk'
  have htask : ∀ u, k'.tasks u = { k.tasks u with wait := (k'.tasks u).wait } := fun u => by
    by_cases huc : u = c <;> simp [hk', huc]
  have hwait :
      ∀ u, (k'.tasks u).wait = { (k.tasks u).wait with result := (k'.tasks u).wait.result } :=
    fun u => by by_cases huc : u = c <;> simp [hk', huc]
  have hres : ∀ u, (k'.tasks u).wait.result = .none ∨
      (k'.tasks u).wait.result = (k.tasks u).wait.result := fun u => by
    by_cases huc : u = c <;> simp [hk', huc]
  have hstate : ∀ u, (k'.tasks u).state = (k.tasks u).state := fun u => by rw [htask u]
  have hprio : k'.prio = k.prio := funext fun u => by
    simp only [Kernel.prio]
    rw [htask u]
  have hwo : k'.waitOwners = k.waitOwners := funext fun u => by
    simp only [Kernel.waitOwners]
    rw [htask u]
  have hreason : ∀ u, (k'.tasks u).wait.reason = (k.tasks u).wait.reason := fun u => by rw [hwait u]
  have hobj : ∀ u, (k'.tasks u).wait.object = (k.tasks u).wait.object := fun u => by rw [hwait u]
  have hto : ∀ u, (k'.tasks u).wait.timeoutActive = (k.tasks u).wait.timeoutActive := fun u => by
    rw [hwait u]
  refine ⟨fun u => ?_, ?_, ?_, ?_, ?_, h.semaphores, fun u hu => h.running u (hstate u ▸ hu), ?_,
    h.plan⟩
  · obtain ⟨h1, h2, h3, h4⟩ := h.tasks u
    rw [htask u]
    refine ⟨h1, fun hd => ?_, fun hb => ?_, fun hb => ?_⟩
    · obtain ⟨g1, g2, g3, g4, g5, g6, g7, g8⟩ := h2 hd
      exact ⟨g1, g2, g3, g4, g5, g6, g7, g8⟩
    · simp only [hreason, hobj, hto]
      exact h3 hb
    · obtain ⟨hr, hw⟩ := h4 hb
      refine ⟨(hres u).elim id fun he => he.trans hr, ?_⟩
      cases hw with
      | delay g1 g2 g3 g4 g5 =>
        exact .delay g1 ((hreason u).trans g2) ((hobj u).trans g3) ((hto u).trans g4) g5
      | semaphore i g1 g2 g3 g4 =>
        exact .semaphore i g1 ((hreason u).trans g2) ((hobj u).trans g3) g4
      | mutex m g1 g2 g3 g4 g5 => exact .mutex m g1 ((hreason u).trans g2) ((hobj u).trans g3) g4 g5
      | service g1 g2 g3 g4 g5 =>
        exact .service g1 ((hreason u).trans g2) ((hobj u).trans g3) ((hto u).trans g4) g5
  · rw [hprio]
    refine h.ready.congr (fun u => ?_) fun _ => rfl
    simp only [Tcb.Runnable, hstate]
  · refine h.delay.congr (fun u => ?_) fun u _ => ?_
    · simp only [Tcb.Timed, hstate, hreason, hto]
    · simp only [Kernel.wake]
      rw [hwait u]
  · rw [hprio, hwo]
    exact h.wait
  · refine h.locks.congr_tasks (fun u => ?_) id
    refine ⟨?_, ?_, ?_, ?_, ?_, fun hd => hstate u ▸ hd, ?_⟩
    · rw [htask u]
    · rw [htask u]
    · rw [htask u]
    · rw [htask u]
    · rw [htask u]
    · simp only [Tcb.awaited, hstate, hreason, hobj]
  · obtain ⟨p1, p2, p3, p4, p5, p6, p7, p8⟩ := h.phase
    refine ⟨fun hl u => (hstate u).trans (p1 hl u), p2, p3, fun hl => ?_, fun hl => ?_, p6,
      fun hl u => ⟨(hres u).elim id fun he => he.trans (p7 hl u).1, ?_⟩, fun hl => ?_⟩
    · simpa only [Tcb.Runnable, hstate] using p4 hl
    · rw [hstate]
      exact p5 hl
    · rw [hstate]
      exact (p7 hl u).2
    · obtain ⟨d, hd, hdd⟩ := p8 hl
      exact ⟨d, hd, by rwa [hstate]⟩

theorem consume_spec (h : KernelOk cfg k) (hc : k.currentTask = some c) :
    wp (waitResultConsume c)
      (fun _ k' => Scheduled cfg k k' ∧ Effect cfg k k' .consume ∧ Notifies k k')
      (Tolerated k.CurrentReady k.IdleOwns) k := by
  have hquiet : Scheduled cfg k k ∧ Effect cfg k k .consume ∧ Notifies k k :=
    ⟨.refl h, .quiet (.refl k) rfl, .refl k⟩
  set k' := k.updateTask c fun task => { task with wait := { task.wait with result := .none } }
    with hk'
  have hstate : ∀ u, (k'.tasks u).state = (k.tasks u).state := fun u => by
    by_cases huc : u = c <;> simp [hk', huc]
  have hdone : Scheduled cfg k k' ∧ Effect cfg k k' .consume ∧ Notifies k k' := by
    have hl := h.inv.running_of_current hc
    refine ⟨⟨.of_sameSchedule (h.inv.consume c) h.parked ⟨rfl, rfl, rfl, rfl, hstate⟩, rfl, rfl,
      fun hne => absurd hl hne, ?_, ?_, .of_same rfl fun t ht => (hstate t).trans ht⟩,
      .consumes hc (.refl k'), .of_same id rfl⟩
    · rw [hstate]
    · exact .of_sublist (fun _ => .refl _) (prio_update rfl)
  unfold waitResultConsume
  rw [wp_bind, wp_get]
  cases (k.tasks c).wait.result with
  | none => exact hquiet
  | acquired => exact hdone
  | timeout => exact hdone
  | cancelled => exact hquiet

end RtsKernel
