import RtsKernel.Operation.Effect

/-!
# The timer service as a task

The three transitions of `scheduler_select.c`: the service is woken by work, blocks at its own
block point, and is withdrawn while it is `READY` and its work has been cancelled.
-/

namespace RtsKernel

open Halting Prog

variable {cfg : Config} {base : Tick} {stale : TaskId → Prop} {k k' : Kernel} {t c : TaskId}
  {E : Fatal → Kernel → Prop}

theorem Inv.service_waits (h : Inv cfg base stale k)
    (hb : (k.tasks .timerService).state = .blocked) :
    (k.tasks .timerService).wait.reason = .timerService ∧
      (k.tasks .timerService).wait.object = none ∧
    (k.tasks .timerService).wait.timeoutActive = false ∧
      (k.tasks .timerService).waitOwner = none := by
  cases ((h.tasks _).waits hb).2 with
  | delay happ => exact happ.elim
  | semaphore _ happ => exact happ.elim
  | mutex _ happ => exact happ.elim
  | service _ hr hobj hto ho => exact ⟨hr, hobj, hto, ho⟩

/-- The timer service is in no wait list and not in the delay queue. -/
theorem Inv.service_unlinked (h : Inv cfg base stale k) :
    TaskId.timerService ∉ k.delayQueue ∧ ∀ o, TaskId.timerService ∉ k.waiters o := by
  constructor
  · intro hin
    obtain ⟨hb, ht⟩ := h.mem_delayQueue.mp hin
    obtain ⟨hr, -, hto, -⟩ := h.service_waits hb
    simp [hr, hto] at ht
  · intro o hin
    have happ := h.wait.application .timerService
    rw [(h.wait.mem o _).mp hin] at happ
    exact happ (by simp)

/-! ## Wake -/

/-- The service is `READY`, even if it was not switched out yet; every other task is as before. -/
structure ServiceWakes (cfg : Config) (k k' : Kernel) : Prop where
  wakes : Wakes cfg k k' .timerService .none
  owners : KeepsOwners k k'
  ready : (k'.tasks .timerService).state = .ready
  others : ∀ u, u ≠ .timerService → k'.tasks u = k.tasks u
  frame : k' = { k with
    tasks := k'.tasks
    readySet := k'.readySet
    edfReady := k'.edfReady
    policyReleaseSequence := k'.policyReleaseSequence }

theorem wp_schedulerTimerServiceWake {Q : Bool → Kernel → Prop} (h : Inv cfg base stale k)
    (hl : k.lifecycle = .running) (hskip : (k.tasks .timerService).state ≠ .blocked → Q false k)
    (hQ : (k.tasks .timerService).state = .blocked → ∀ k', ServiceWakes cfg k k' →
      Inv cfg base stale k' → Q true k') :
    wp (schedulerTimerServiceWake cfg) Q E k := by
  have hservice := h.phase.serviceTask (by simp [hl])
  unfold schedulerTimerServiceWake
  rw [wp_bind, wp_get]
  simp only [hservice, wp_ite]
  by_cases hb : (k.tasks .timerService).state = .blocked
  · obtain ⟨hr, hobj, hto, ho⟩ := h.service_waits hb
    have hd : (k.tasks .timerService).state ≠ .dormant := by simp [hb]
    have hnrun := Tcb.not_runnable_of_blocked hb
    have hval : ¬ PolicyValidate cfg k .timerService true := fun hv =>
      hnrun ((h.policyValidate_true_iff hd).mp hv)
    rw [if_neg (by simp [hb, hr, hobj, hto, hval])]
    set woken : Tcb := { k.tasks .timerService with
      wait := { (k.tasks .timerService).wait with reason := .none, result := .none }
      state := .ready
      sliceRemaining := cfg.timeSliceTicks } with hwoken
    set k₁ := k.setTask .timerService woken with hk₁
    have hprio₁ : k₁.prio = k.prio := prio_update rfl
    rw [wp_bind, wp_modify, wp_bind]
    refine wp_policyInsert (k := k₁) (R := fun u => (k.tasks u).Runnable) ?_ hnrun ?_ ?_
      fun rs er sequence task hsame hready hturns => ?_
    · rw [hprio₁]
      exact h.ready
    · rw [hprio₁]
      exact ((h.tasks _).valid hd).prio_lt
    · exact fun _ => .inl (by simp [hk₁, hwoken])
    rw [wp_bind, wp_fatalUnless_of rfl, wp_bind, wp_modify, wp_bind, wp_get]
    rw [hprio₁] at hready hturns
    set task' : Tcb := { task with
      diagnosticWakeCount := diagnosticCounterIncrement task.diagnosticWakeCount } with htask'
    set k₂ := k.requeue .timerService rs er sequence task' with hk₂
    have heq : ((k₁.requeue .timerService rs er sequence task).updateTask .timerService fun task =>
        { task with diagnosticWakeCount := diagnosticCounterIncrement task.diagnosticWakeCount }) =
        k₂ := by
      simp [Kernel.requeue, Kernel.updateTask, Kernel.setTask, hk₁, hk₂, htask']
    have hsame' : woken.SameButRelease task' := by
      have : (k₁.tasks .timerService).SameButRelease task' := hsame.trans rfl
      simpa [hk₁] using this
    have htask₂ : k₂.tasks .timerService = task' := by simp [hk₂]
    have hothers : ∀ u, u ≠ .timerService → k₂.tasks u = k.tasks u := fun u hu => by simp [hk₂, hu]
    have hstate : (k₂.tasks .timerService).state = .ready := by
      rw [htask₂, hsame']
    have hwait : (k₂.tasks .timerService).wait = woken.wait := by
      rw [htask₂, hsame']
    have hown : KeepsOwners k k₂ := by
      refine ⟨fun m => rfl, fun u => ?_⟩
      by_cases hu : u = .timerService
      · rw [hu, htask₂, hsame']
        exact ⟨rfl, rfl, rfl⟩
      · rw [hothers u hu]
        exact ⟨rfl, rfl, rfl⟩
    obtain ⟨hdelay, hlists⟩ := h.service_unlinked
    have hw : Wakes cfg k k₂ .timerService .none := by
      refine ⟨rfl, rfl, rfl, rfl, ?_, ?_, .inl hstate, fun hc => absurd rfl hc,
        fun u hu => ?_, hready, ?_, fun o => ?_, fun i => rfl, ?_⟩
      · have hbooks : woken.SameButBooks task' := hsame'.sameButBooks
        rw [hwait, hstate, htask₂]
        unfold Tcb.SameButBooks
        rw [hbooks]
        simp [hwoken, ho]
      · rw [hwait]
        exact ⟨rfl, hobj, hto, rfl⟩
      · rw [hothers u hu]
        exact ⟨.refl _, le_rfl⟩
      · exact (List.erase_of_not_mem hdelay).symm
      · exact (List.erase_of_not_mem (hlists o)).symm
      · have htask : task'.priority = (k.tasks .timerService).priority := by rw [hsame']
        rw [KeepsTurns, show k₂.prio = k.prio from prio_update htask]
        exact hturns
    have hinv : Inv cfg base stale k₂ := by
      refine h.wakes_keepsOwners hl hb hw hown fun u hu => hu.resolve_right ?_
      rw [awaits_eq_none (.inr (by simp [hr]))]
      simp
    rw [heq]
    have hrun : TaskIsRunnable cfg k₂ .timerService :=
      hinv.taskIsRunnable_iff.mpr ⟨.inl hstate, by simp⟩
    rw [wp_bind, wp_fatalUnless_of hrun, wp_pure]
    exact hQ hb k₂ ⟨hw, hown, hstate, hothers, rfl⟩ hinv
  · rw [if_pos (.inl hb), wp_pure]
    exact hskip hb

/-! ## Block -/

theorem Inv.running_of_service (h : Inv cfg base stale k) (hr : (k.tasks .timerService).Runnable) :
    k.lifecycle = .running := by
  by_contra hl
  exact hr.not_blocked (((h.phase.calm hl .timerService).2 hr.not_dormant).mpr rfl)

/-- The service out of the ready queues, waiting for work. -/
theorem Inv.blocks_service {f : Tcb → Tcb} (h : Inv cfg base stale k)
    (hr : (k.tasks .timerService).Runnable)
    (hf : ((k.tasks .timerService).waiting serviceWait).SameButRelease
      (f (k.tasks .timerService))) :
    Blocks cfg k ((k.removeReady .timerService).updateTask .timerService f) .timerService
      serviceWait ∧
    Inv cfg base stale ((k.removeReady .timerService).updateTask .timerService f) := by
  have hbl : Blocks cfg k ((k.removeReady .timerService).updateTask .timerService f) .timerService
      serviceWait := by
    refine ⟨rfl, rfl, rfl, rfl, ?_, fun u hu => ?_, h.ready.remove _, ?_, fun o => rfl,
      fun i => rfl, fun m => rfl⟩
    · simpa using hf
    · simp [hu]
    · simp [serviceWait, Wait.Timed]
  refine ⟨hbl, h.blocks (h.running_of_service hr) hr (by simp) hbl rfl ?_ ?_ ?_ ?_⟩
  · exact .service rfl rfl rfl rfl rfl
  · simp [serviceWait, Wait.Timed]
  · simp [serviceWait]
  · exact hbl.locks h hr (by simp [serviceWait]) (by simp [serviceWait])

theorem Blocks.sameWaits_service (h : Blocks cfg k k' .timerService serviceWait) :
    SameWaits k k' where
  tick := Kernel.of_rest Kernel.currentTick h.rest
  tasks t ht := by
    rw [h.others t ht]
    exact ⟨rfl, Iff.rfl, id⟩
  delayQueue := by
    rw [h.delayQueue]
    simp [serviceWait, Wait.Timed]
  owners m := by rw [h.mutexes m]
  semaphores := h.semaphores

/-- The service has come to its block point, where it blocks only with no work left. -/
structure Rests (cfg : Config) (k k' : Kernel) : Prop extends Outcome cfg k k' where
  rest : k'.rest = k.rest
  empty : (k'.tasks .timerService).state = .blocked → k.callbackQueue = []
  sameWaits : SameWaits k k'
  fifo : Fifo k k'
  replans : Replans k k'
  notifies : Notifies k k'

theorem timerServiceRest_spec (h : KernelOk cfg k) (hrun : ServiceIsRunning k) :
    wp (timerServiceRest cfg) (fun _ k' => Rests cfg k k')
      (Tolerated k.CurrentReady k.IdleOwns) k := by
  obtain ⟨hl, hc, hst⟩ := hrun
  have hr : (k.tasks .timerService).Runnable := .inr hst
  have hservice := h.inv.phase.serviceTask (by simp [hl])
  obtain ⟨hreason, -, -, howner⟩ := (h.inv.tasks .timerService).free hr.not_blocked
  have hval := (h.inv.policyValidate_true_iff hr.not_dormant).mpr hr
  unfold timerServiceRest
  rw [wp_bind, wp_get, wp_ite]
  split <;> rename_i hq
  · exact ⟨.refl h, rfl, fun hb => by simp [hst] at hb, .refl k, .refl k, .refl k, .refl k⟩
  rw [not_not, List.length_eq_zero_iff] at hq
  unfold schedulerTimerServiceBlock
  simp only [wp_bind, wp_get, hservice, wp_ite]
  rw [if_neg (by simp [hc, hst, hval, hreason])]
  refine wp_policyRemove h.inv.ready hr ?_
  rw [wp_fatalUnless_of rfl, wp_modify]
  obtain ⟨hbl, hinv⟩ := h.inv.blocks_service (f := fun task =>
    { task with
      wait := serviceWait
      state := .blocked
      diagnosticBlockCount := diagnosticCounterIncrement task.diagnosticBlockCount }) hr (by
    unfold Tcb.waiting
    rw [show serviceWait.object = (k.tasks .timerService).waitOwner from howner.symm]
    rfl)
  set k₁ := (k.removeReady .timerService).updateTask .timerService _ with hk₁
  refine wp_planAfterBlock hinv not_false (hbl.currentTask.trans hc) hbl.state_eq
    (fun b k₂ hp => ?_)
    (tolerated_selectRunnable _ _ _)
  have hb₂ : (k₂.tasks .timerService).state = .blocked := by
    rw [hp.replanned]
    exact hbl.state_eq
  rw [wp_fatalUnless_of hb₂]
  have hn : Replanned k₁ (k₂.notify b) := hp.replanned.trans (.notify k₂ b)
  have hout : Outcome cfg k k₂ := .of_planned hinv hp hbl.currentReady
  have hout' : Outcome cfg k₂ (k₂.notify b) :=
    .of_sameSchedule (hout.ok.inv.sameTasks rfl) hout.ok.parked ⟨rfl, rfl, rfl, rfl, fun _ => rfl⟩
  have hplans := Replans.of_planned hbl.switchPlan (hbl.keepsReady hst) hp
  have hfin : Rests cfg k (k₂.notify b) := by
    refine ⟨⟨hout'.ok, fun hr => hout.ready (hout'.ready hr), fun ha hr =>
      hout'.agrees (hout.agrees ha hr) hr⟩, ?_, fun _ => hq,
      hbl.sameWaits_service.trans hn.sameWaits, (hbl.fifo h.inv hr).replanned hn,
      ⟨hplans.executing, hplans.idle, hplans.target⟩, .of_planned hbl.switchPlan hbl.requests hp⟩
    rw [hn]
    exact hbl.rest
  cases b <;> exact hfin

/-! ## Withdrawal -/

/-- The service was `READY` and is blocked again. A pending switch to it is cancelled, and nothing
is selected in its place. -/
structure Withdrawn (k k' : Kernel) : Prop where
  ready : (k.tasks .timerService).state = .ready
  blocked : (k'.tasks .timerService).state = .blocked
  others : ∀ u, u ≠ .timerService → k'.tasks u = k.tasks u
  prio : k'.prio = k.prio
  currentTask : k'.currentTask = k.currentTask
  readySet : k'.readySet = (k.removeReady .timerService).readySet
  edfReady : k'.edfReady = (k.removeReady .timerService).edfReady
  delayQueue : k'.delayQueue = k.delayQueue
  semaphores : k'.semaphores = k.semaphores
  mutexes : k'.mutexes = k.mutexes
  requests : k'.rescheduleRequests = k.rescheduleRequests
  kept : ¬ (k.switchPlan.pending = true ∧ k.switchPlan.toTask = some .timerService) →
    k'.switchPlan = k.switchPlan
  cancelled : k.switchPlan.pending = true ∧ k.switchPlan.toTask = some .timerService →
    k'.switchPlan.pending = false ∧ k'.switchPlan.active = false ∧
    k'.switchPlan.reselectionRequired = false

theorem wp_schedulerTimerServiceCancelWake {Q : Unit → Kernel → Prop}
    (h : Inv cfg base noneStale k) (hl : k.lifecycle ≠ .reset)
    (hthread : ∀ c, k.currentTask = some c → (k.tasks c).state = .running)
    (hskip : (k.tasks .timerService).state ≠ .ready → Q () k)
    (hQ : ∀ k', Withdrawn k k' → k'.rest = k.rest → Inv cfg base noneStale k' → Q () k') :
    wp (schedulerTimerServiceCancelWake cfg) Q E k := by
  have hservice := h.phase.serviceTask hl
  unfold schedulerTimerServiceCancelWake
  rw [wp_bind, wp_get]
  simp only [hservice, wp_ite]
  split <;> rename_i hst
  · exact hskip hst
  rw [not_not] at hst
  have hr : (k.tasks .timerService).Runnable := .inl hst
  obtain ⟨c, hc, -⟩ := h.phase.current (h.running_of_service hr)
  have hrun := hthread c hc
  -- The service leaves the ready queues of a kernel that differs in the plan only.
  have hblock : ∀ k₁, Replanned k k₁ → k₁.rescheduleRequests = k.rescheduleRequests →
      Inv cfg base noneStale k₁ →
      (¬ (k.switchPlan.pending = true ∧ k.switchPlan.toTask = some .timerService) →
        k₁.switchPlan = k.switchPlan) →
      (k.switchPlan.pending = true ∧ k.switchPlan.toTask = some .timerService →
        k₁.switchPlan.pending = false ∧ k₁.switchPlan.active = false ∧
        k₁.switchPlan.reselectionRequired = false) →
      wp (policyTaskBlock cfg .timerService) (fun removed => wp
        (fatalUnless .serviceCancel (removed = true)) (fun _ => wp
          (modify fun k => k.updateTask .timerService fun task =>
            { task with wait := serviceWait, state := .blocked }) Q E) E) E k₁ := by
    intro k₁ hre hreq h₁ hkept hcancelled
    have htasks : k₁.tasks = k.tasks := by rw [hre]
    have hr₁ : (k₁.tasks .timerService).Runnable := by rwa [htasks]
    have howner := ((h₁.tasks .timerService).free hr₁.not_blocked).2.2.2
    obtain ⟨hbl, hinv⟩ := h₁.blocks_service (f := fun task =>
      { task with wait := serviceWait, state := .blocked }) hr₁ (by
      unfold Tcb.waiting
      rw [show serviceWait.object = (k₁.tasks .timerService).waitOwner from howner.symm]
      rfl)
    refine wp_policyRemove h₁.ready hr₁ ?_
    rw [wp_fatalUnless_of rfl, wp_modify]
    refine hQ _ ?_ ?_ hinv
    · refine ⟨hst, hbl.state_eq, fun u hu => ?_, ?_, ?_, ?_, ?_, ?_, ?_, ?_,
        hbl.requests.trans hreq, hkept, hcancelled⟩
      · rw [hbl.others u hu, htasks]
      · rw [hbl.prio_eq, hre]
      · rw [hbl.currentTask, hre]
      all_goals
        rw [hre]
        rfl
    · rw [hbl.rest, hre]
      rfl
  split <;> rename_i hto
  · have hrunnable : TaskIsRunnable cfg k c :=
      h.taskIsRunnable_iff.mpr ⟨.inr hrun, fun hi => hi ▸ h.idle_prio not_false (hi ▸ hc)⟩
    have hnr : ¬ k.CurrentReady := by
      rintro ⟨c', hc', hready⟩
      rw [hthread c' hc'] at hready
      simp at hready
    simp only [hc, wp_bind]
    refine wp_prepareSwitch h not_false hc hrunnable (fun hr => absurd hr hnr)
      (fun b k₁ hprep _ => ?_) fun hr => absurd hr hnr
    have hact := h.plan.exclusive hto.1
    refine hblock k₁ hprep.replanned hprep.requests
      (h.replanned hprep.replanned (hprep.planOk h.plan hc) (.inl (h.running_of_current hc)))
      (fun hn => absurd hto hn) fun _ => ?_
    exact ⟨hprep.cancelled hact rfl, hprep.active.trans hact, hprep.reselection hact⟩
  · simp only [wp_bind]
    exact hblock k (.refl k) rfl h (fun _ => rfl) fun hc => absurd hc hto

theorem Withdrawn.sameWaits (h : Withdrawn k k') (htick : k'.currentTick = k.currentTick) :
    SameWaits k k' where
  tick := htick
  tasks t ht := by
    rw [h.others t ht]
    exact ⟨rfl, Iff.rfl, id⟩
  delayQueue := h.delayQueue
  owners m := by rw [h.mutexes]
  semaphores i := by rw [h.semaphores]; rfl

theorem Withdrawn.fifo (h : Withdrawn k k') : Fifo k k' := by
  refine .of_sublist (fun o => ?_) h.prio
  cases o <;> simp [Kernel.waiters, h.semaphores, h.mutexes]

theorem Withdrawn.replans (h : Withdrawn k k') (hplan : PlanOk k.currentTask k.switchPlan) :
    Replans k k' := by
  by_cases hto : k.switchPlan.pending = true ∧ k.switchPlan.toTask = some .timerService
  · obtain ⟨hpend, hact, -⟩ := h.cancelled hto
    refine ⟨fun ha => ?_, fun _ => hact, fun _ hp => ?_⟩
    · simp [hplan.exclusive hto.1] at ha
    · simp [hpend] at hp
  · have hsame := h.kept hto
    refine ⟨fun _ => .inl hsame, fun hi => hsame ▸ hi, fun ht hp => ?_⟩
    rw [hsame] at hp ⊢
    obtain ⟨d, hd, hready⟩ := ht hp
    have hne : d ≠ .timerService := by
      rintro rfl
      exact hto ⟨hp, hd⟩
    exact ⟨d, hd, h.others d hne ▸ hready⟩

theorem Withdrawn.notifies (h : Withdrawn k k') : Notifies k k' := by
  refine .of_same (fun hpend => ?_) h.requests
  by_cases hto : k.switchPlan.pending = true ∧ k.switchPlan.toTask = some .timerService
  · exact hto.1
  · rwa [← h.kept hto]

/-- Whoever calls is running, and stays so. -/
theorem Withdrawn.not_currentReady (h : Withdrawn k k')
    (hthread : ∀ c, k.currentTask = some c → (k.tasks c).state = .running) : ¬ k'.CurrentReady := by
  rintro ⟨c, hc, hst⟩
  rw [h.currentTask] at hc
  have hne : c ≠ .timerService := by
    rintro rfl
    simp [h.blocked] at hst
  rw [h.others c hne, hthread c hc] at hst
  simp at hst

theorem Withdrawn.parked (h : Withdrawn k k')
    (hthread : ∀ c, k.currentTask = some c → (k.tasks c).state = .running) : k'.Parked := by
  intro c hc hb
  rw [h.currentTask] at hc
  have hrun := hthread c hc
  have hne : c ≠ .timerService := by
    rintro rfl
    simp [h.ready] at hrun
  rw [h.others c hne, hrun] at hb
  simp at hb

/-- Plan and policy still agree when the service was not the target of the plan, or when the
current task is the pick without it. -/
theorem Withdrawn.agrees (h : Withdrawn k k') (ha : k.Agrees cfg)
    (hsome : ∃ p, policyPickNext cfg k = some p)
    (hthread : ∀ c, k.currentTask = some c → (k.tasks c).state = .running)
    (hpick : k.switchPlan.pending = true → k.switchPlan.toTask = some .timerService →
      policyPickNext cfg (k.removeReady .timerService) = k.currentTask) : k'.Agrees cfg := by
  have hpick' : policyPickNext cfg k' = policyPickNext cfg (k.removeReady .timerService) :=
    policyPickNext_congr h.readySet h.edfReady
  obtain ⟨q, hq⟩ := hsome
  have hkeep : q ≠ .timerService → policyPickNext cfg k' = some q := fun hne =>
    hpick'.trans (policyPickNext_removeReady hq hne)
  by_cases hto : k.switchPlan.pending = true ∧ k.switchPlan.toTask = some .timerService
  · obtain ⟨hpend, hact, -⟩ := h.cancelled hto
    refine ⟨fun c p hc hp _ _ => ?_, fun d hd => by simp [hact] at hd⟩
    rw [hpick', hpick hto.1 hto.2, ← h.currentTask, hc] at hp
    obtain rfl : c = p := Option.some.inj hp
    exact ⟨fun hne => absurd rfl hne, fun _ => hpend⟩
  · have hplan := h.kept hto
    refine ⟨fun c p hc hp hact hres => ?_, fun d hact hres hd => ?_⟩
    · rw [hplan] at hact hres ⊢
      rw [h.currentTask] at hc
      have hold := ha.settled c q hc hq hact hres
      have hcs : c ≠ .timerService := by
        rintro rfl
        have hrun := hthread _ hc
        simp [h.ready] at hrun
      -- The old pick is not the service, which would be the target of the plan.
      have hqs : q ≠ .timerService := by
        rintro rfl
        obtain ⟨hpend, -, htarget⟩ := hold.1 (Ne.symm hcs)
        exact hto ⟨hpend, htarget⟩
      obtain rfl : q = p := Option.some.inj ((hkeep hqs).symm.trans hp)
      exact hold
    · rw [hplan] at hact hres hd
      by_cases hds : d = .timerService
      · exact .inr (by simp [hds, h.blocked])
      · rw [h.others d hds]
        refine (ha.switching d hact hres hd).imp (fun hp => ?_) id
        obtain rfl : q = d := Option.some.inj (hq.symm.trans hp)
        exact hkeep hds

end RtsKernel
