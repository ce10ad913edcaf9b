import RtsKernel.Operation.Errand
import RtsKernel.Operation.Ledger
import RtsKernel.Property.Dispatch

/-!
# The timer service and its work

The timer service is `READY` because of a work item. There is one step after which this is not so: a
switch away from the running service when its queue is empty, in the middle of its last callback or
after it. Without this step a `READY` service has work in every run.

## Main results

* `Step.attended`: what a step does to the service and its work.
* `ReachableWhen.attended`: the service and its work in every run.
-/

namespace RtsKernel

open Halting Prog

variable {cfg : Config} {k k' : Kernel} {ev : Event}

/-- A `READY` timer service has work. -/
def Kernel.Attended (k : Kernel) : Prop :=
  (k.tasks .timerService).state = .ready → k.callbackQueue ≠ []

/-- The completion of a switch away from the running timer service, which has no more work. -/
def Event.StrandsService (cfg : Config) (k : Kernel) : Event → Prop
  | .complete snapshot stacksIntact =>
    stacksIntact = true ∧ CompletePlanIsValid cfg k snapshot ∧ snapshot.fromTask = .timerService ∧
    (k.tasks .timerService).state = .running ∧ k.callbackQueue = []
  | _ => False

instance (cfg : Config) (k : Kernel) (ev : Event) : Decidable (ev.StrandsService cfg k) := by
  induction ev using Event.casesOn <;> dsimp only [Event.StrandsService] <;> infer_instance

/-- Before the scheduler runs, the service is blocked or not there. -/
theorem KernelOk.service_not_ready (h : KernelOk cfg k) (hl : k.lifecycle ≠ .running) :
    (k.tasks .timerService).state ≠ .ready := by
  intro hready
  have hblocked := ((h.inv.phase.calm hl .timerService).2 (by simp [hready])).mpr rfl
  simp [hready] at hblocked

theorem Tended.not_ready (h : Tended k k') (hk : (k.tasks .timerService).state ≠ .ready) :
    (k'.tasks .timerService).state ≠ .ready := by
  cases h with
  | quiet same _ => rwa [same]
  | withdrawn hw => simp [hw.blocked]

/-- The start of the scheduler does not wake the service. -/
theorem Step.start_not_ready (hs : Step cfg k ev k') (h : Sound cfg k)
    (hl : k.lifecycle ≠ .running) : (k'.tasks .timerService).state ≠ .ready := by
  by_cases hl' : k'.lifecycle = .running
  swap
  · exact (h.step hs).ok.service_not_ready hl'
  have hk := h.ok.service_not_ready hl
  cases ev with
  | init isr port =>
    obtain ⟨_, hret⟩ := exists_ret_of_discard hs.2
    exact absurd hl' (leads_unstarted_init.ret hret hl)
  | taskCreate isr config outHandle stack =>
    obtain ⟨_, hret⟩ := exists_ret_of_discard hs.2
    exact absurd hl' (leads_unstarted_taskCreate.ret hret hl)
  | start isr tickOk firstTaskOk =>
    obtain ⟨status, hret⟩ := exists_ret_of_discard hs.2
    have hlaunch : Launches cfg k status k' := wp_ret (start_spec h.ok h.timersOk h.pool) hret
    by_cases hstatus : status = .ok
    · obtain ⟨t, ht⟩ := hlaunch.done hstatus
      rw [ht.state]
      split
      · simp
      · exact hk
    · obtain rfl | ⟨t, -, rfl⟩ := hlaunch.failed hstatus
      · exact hk
      · exact absurd hl' hl
  | complete snapshot intact => exact absurd hs.1 hl
  | _ =>
    have hledger := congrArg Ledger.lifecycle (runEvent_ledger hs.2 nofun nofun)
    exact absurd (hledger.symm.trans hl') hl

/-- An operation of the scheduler leaves the service and its work alone. -/
theorem Scheduled.attended (hs : Scheduled cfg k k') (h : KernelOk cfg k)
    (hl : k.lifecycle = .running) (hcur : ¬ k'.CurrentReady) (hk : k.Attended) : k'.Attended := by
  intro hready
  have hqueue : k'.callbackQueue = k.callbackQueue := Kernel.of_rest Kernel.callbackQueue hs.rest
  rw [hqueue]
  cases hst : (k.tasks .timerService).state with
  | ready => exact hk hst
  | dormant => exact absurd hst (h.inv.phase.service (by simp [hl]))
  | blocked =>
    have hblocked := hs.service.mpr hst
    simp [hready] at hblocked
  | running =>
    -- it is the current task, and the current task is not made `READY`
    have hc := hs.currentTask.trans (h.inv.running _ hst)
    exact absurd ⟨_, hc, hready⟩ hcur

/-- Rest ends with the service blocked, or with work it goes on with. -/
theorem timerServiceRest_not_ready (h : timerServiceRest cfg k = .ret () k')
    (hrun : (k.tasks .timerService).state = .running) :
    (k'.tasks .timerService).state ≠ .ready := by
  unfold timerServiceRest at h
  rw [get_bind_apply] at h
  split at h
  · cases h
    simp [hrun]
  · obtain ⟨notify, k₁, -, h⟩ := exists_ret_of_bind h
    rw [get_bind_apply] at h
    obtain ⟨u, k₂, hcheck, h⟩ := exists_ret_of_bind h
    unfold fatalUnless check at hcheck
    split at hcheck <;> cases hcheck
    rename_i hblocked
    rw [(notifyPort_reports h).same]
    simp [hblocked]

theorem Switched.attended {src dst : TaskId} (hs : Switched cfg k k' src dst)
    (hstrand : ¬ (src = .timerService ∧ (k.tasks .timerService).state = .running ∧
      k.callbackQueue = [])) (hk : k.Attended) : k'.Attended := by
  intro hready
  have hqueue : k'.callbackQueue = k.callbackQueue := Kernel.of_rest Kernel.callbackQueue hs.rest
  rw [hqueue]
  by_cases hsrc : TaskId.timerService = src
  · subst hsrc
    intro hnil
    have hnot : (k.tasks .timerService).state ≠ .running := fun hrun => hstrand ⟨rfl, hrun, hnil⟩
    rw [hs.sourceTask] at hready
    exact hs.notReady (by simpa [hnot] using hready)
  by_cases hdst : TaskId.timerService = dst
  · subst hdst
    rw [hs.targetTask] at hready
    simp at hready
  · exact hk (hs.others _ hsrc hdst ▸ hready)

/-- A timer call drops work together with the service. -/
theorem Step.attended_call (hs : Step cfg k ev k') (hev : ev.ControlsTimer)
    (hcall : TimerCall cfg k ev k') (h : Sound cfg k) (hl : k.lifecycle = .running)
    (hk : k.Attended) : k'.Attended := by
  have hattended : k.errand.Attended := ⟨h.ok.inv.phase.serviceTask (by simp [hl]), hk⟩
  have hrunning : ServiceIsRunning k → k'.Attended := fun hrun hready =>
    absurd hready (hcall.tended.not_ready (by simp [hrun.2.2]))
  cases ev with
  | timerInit isr config =>
    obtain ⟨r, hret⟩ := exists_ret_of_discard hs.2
    have hrefused : wp (timerInit cfg isr config) (fun _ k' => k' = k) (fun _ _ => True) k := by
      unfold timerInit
      split
      · rfl
      · simp [wp_ite, hl]
    rwa [wp_ret hrefused hret]
  | timerStart isr i =>
    obtain ⟨status, hret⟩ := exists_ret_of_discard hs.2
    exact ((leads_timerArm leads_timerInvalidatePending_attended).ret hret hattended).work
  | timerRestart isr i =>
    obtain ⟨status, hret⟩ := exists_ret_of_discard hs.2
    exact ((leads_timerArm leads_timerInvalidatePending_attended).ret hret hattended).work
  | timerStop isr i =>
    obtain ⟨status, hret⟩ := exists_ret_of_discard hs.2
    exact ((leads_timerStop leads_timerInvalidatePending_attended).ret hret hattended).work
  | serviceBegin => exact hrunning hs.1.1
  | serviceEnd => exact hrunning hs.1.1
  | _ => exact hev.elim

/-- A `READY` service keeps having work, except after a switch that strands it. -/
theorem Step.attended (hs : Step cfg k ev k') (h : Sound cfg k) (hcur : ¬ k'.CurrentReady)
    (hstrand : ¬ ev.StrandsService cfg k) (hk : k.Attended) : k'.Attended := by
  by_cases hl : k.lifecycle = .running
  swap
  · exact fun hready => absurd hready (hs.start_not_ready h hl)
  by_cases htime : ev.EntersTime
  · have hattended : k.errand.Attended := ⟨h.ok.inv.phase.serviceTask (by simp [hl]), hk⟩
    obtain ⟨-, hsame⟩ | ⟨k₀, k₁, b, hbefore, hret, hafter⟩ := runEvent_time htime hs.2
    · rw [hsame.same]
      exact hk
    · have hinv : Inv cfg k₀.currentTick noneStale k₀ := by
        rw [hbefore.same]
        exact h.ok.inv.sameTasks rfl
      have hk₀ : k₀.errand.Attended := by
        rw [hbefore.same]
        exact hattended
      rw [hafter.same]
      exact (kernelTimeAdvanceCommon_attended hinv hk₀ hret).work
  · cases hs.stepped h with
    | starts _ hst => exact absurd hl hst.before
    | serves _ hsch _ _ => exact hsch.attended h.ok hl hcur hk
    | gives hg => exact hg.scheduled.attended h.ok hl hcur hk
    | calls hev hcall => exact hs.attended_call hev hcall h hl hk
    | rests _ _ =>
      exact fun hready => absurd hready (timerServiceRest_not_ready hs.2 hs.1.1.2.2)
    | advances hmoved _ _ => exact absurd (Event.elapsed_of_not_entersTime htime) hmoved
    | acquires ha =>
      rw [ha.replanned]
      exact hk
    | @completes snapshot stacksIntact _ hvalid hsw =>
      refine hsw.attended (fun hrun => hstrand ⟨?_, hvalid, hrun⟩) hk
      cases stacksIntact with
      | true => rfl
      | false =>
        have hhalt : runEvent cfg (.complete snapshot false) k = .halt .stackCorruption k := rfl
        cases hhalt.symm.trans hs.2

/-- In runs that neither wake the service while it is still current nor strand it, a `READY` service
has work. -/
theorem ReachableWhen.attended {allowed : Kernel → Event → Prop} (h : ReachableWhen cfg allowed k)
    (hready : ∀ k ev, allowed k ev → ¬ ev.ReadiesService cfg k)
    (hstrand : ∀ k ev, allowed k ev → ¬ ev.StrandsService cfg k) : k.Attended := by
  suffices ¬ k.CurrentReady ∧ k.Attended from this.2
  refine h.invariant (P := fun k => ¬ k.CurrentReady ∧ k.Attended) ?_ ?_
  · refine ⟨?_, fun hr => by simp [resetKernel] at hr⟩
    rintro ⟨c, hc, -⟩
    simp [resetKernel] at hc
  · rintro k ev k' hk hs hst hev ⟨hcur, hwork⟩
    have hcur' : ¬ k'.CurrentReady := fun hr =>
      (hst.currentReady hk hs.1 hr).elim hcur (hready k ev hev)
    exact ⟨hcur', hs.attended hk hcur' (hstrand k ev hev) hwork⟩

end RtsKernel
