import RtsKernel.Operation.Frame
import RtsKernel.Operation.Time

/-!
# The work of the timer service

The timer service is made `READY` after a work item has been queued for it, and taken back when its
last item is dropped before it runs. The programs that queue and drop work are walked along their
text.

## Main results

* `Errand.Attended`: a `READY` service has work.
* `leads_timerInvalidatePending_attended`: work is dropped together with the service.
* `leads_timerPublish_attended`: the service is woken for work.
* `kernelTimeAdvanceCommon_attended`: an advance keeps the service attended.
-/

namespace RtsKernel

open Halting Prog

namespace Errand

/-- There is a service. -/
def Staffed (e : Errand) : Prop := e.service = some .timerService

/-- There is work for the service. -/
def Busy (e : Errand) : Prop := e.Staffed ∧ e.queue ≠ []

/-- The service is there, and has work when it is `READY`. -/
structure Attended (e : Errand) : Prop where
  service : e.service = some .timerService
  work : e.state = .ready → e.queue ≠ []

end Errand

instance : AbsorbsStates (OnErrand Errand.Busy) := ⟨fun _ _ _ => id⟩

variable {cfg : Config} {i : Nat} {elapsed : Tick}

/-! ## Work that is dropped -/

/-- The wake of the service is taken back. -/
theorem leads_cancelWake_attended : Leads Kernel.outline (OnErrand Errand.Staffed)
    (OnErrand Errand.Attended) (schedulerTimerServiceCancelWake cfg) := by
  refine leads_get_bind fun {k a k'} h hk => ?_
  have hservice : k.timerServiceTask = some .timerService := hk
  simp only [hservice] at h
  split at h <;> rename_i hready
  · cases h
    exact ⟨hk, fun hr => absurd hr hready⟩
  · have hblocks : Leads Kernel.outline (OnErrand Errand.Staffed) (OnErrand Errand.Attended)
        (modify fun k => k.updateTask .timerService fun task =>
          { task with wait := serviceWait, state := .blocked } : KernelM Unit) := by
      refine leads_modify fun k hk => ⟨hk, fun hr => ?_⟩
      simp [Kernel.outline, Kernel.errand] at hr
    have hremove : Leads Kernel.outline (OnErrand Errand.Staffed) (OnErrand Errand.Attended) (do
        let removed ← policyTaskBlock cfg .timerService
        fatalUnless .serviceCancel (removed = true)
        modify fun k => k.updateTask .timerService fun task =>
          { task with wait := serviceWait, state := .blocked }) :=
      leads_bind leads_policyRemove fun removed =>
        leads_bind (leads_fatalUnless _ _) fun _ => hblocks
    split at h
    · exact (leads_bind leads_schedulerPrepareSwitch fun _ => hremove).ret h hk
    · exact hremove.ret h hk

/-- The work of a timer is dropped, and with its last work item the wake of the service. -/
theorem leads_timerInvalidatePending_attended : Leads Kernel.outline (OnErrand Errand.Attended)
    (OnErrand Errand.Attended) (timerInvalidatePending cfg i) := by
  unfold timerInvalidatePending
  refine leads_bind (M := OnErrand Errand.Staffed) ⟨fun h hk => ?_⟩ fun removed =>
    leads_get_bind fun {k a k'} h hk => ?_
  · cases h
    exact hk.service
  · have hcancel : Leads Kernel.outline
        (OnErrand fun e => e.Staffed ∧ e.queue = k.callbackQueue) (OnErrand Errand.Attended)
        (do
          if k.callbackQueue.length = 0 then schedulerTimerServiceCancelWake cfg
          modify (countStale i removed)) := by
      split <;> rename_i hnone
      · exact leads_bind (leads_cancelWake_attended.mono (fun O hW => hW.1) fun _ => id)
          fun _ => by simp
      · have hcounted : Leads Kernel.outline (OnErrand Errand.Attended) (OnErrand Errand.Attended)
            (modify (countStale i removed) : KernelM Unit) := by simp
        refine hcounted.mono (fun O hW => ⟨hW.1, fun _ => ?_⟩) fun _ => id
        rw [hW.2]
        exact fun hnil => hnone (List.length_eq_zero_iff.mpr hnil)
    refine (?_ : Leads Kernel.outline (OnErrand fun e => e.Staffed ∧ e.queue = k.callbackQueue)
      (OnErrand Errand.Attended) _).ret h ⟨hk, rfl⟩
    split
    · exact leads_bind (leads_fatalUnless _ _) fun _ =>
        leads_bind (leads_modify_of_eq fun _ => outline_updateTimer _) fun _ => hcancel
    · exact leads_bind (leads_fatalUnless _ _) fun _ => hcancel

/-! ## Work that is queued -/

/-- The service may be woken as soon as there is work. -/
theorem leads_timerPublish_attended {deadline : Tick} : Leads Kernel.outline
    (OnErrand Errand.Attended) (OnErrand Errand.Attended) (timerPublish cfg i deadline) := by
  unfold timerPublish
  refine leads_bind leads_get fun k₀ => ?_
  split
  · exact leads_bind (by simp) fun _ => leads_pure _
  refine leads_bind (leads_modify_of_eq fun _ => outline_updateTimer _) fun _ =>
    leads_get_bind fun {k a k'} h hk => ?_
  obtain ⟨queued, k₁, henqueue, h⟩ := exists_ret_of_bind h
  unfold timerCallbackQueueEnqueue at henqueue
  rw [get_bind_apply] at henqueue
  split at henqueue
  · cases henqueue
    cases h
  · cases henqueue
    have hwakes {f : Kernel → Kernel} (hf : ∀ k, (f k).outline = k.outline) :
        Leads Kernel.outline (OnErrand Errand.Busy) (OnErrand Errand.Busy)
          (modify f >>= fun _ => schedulerTimerServiceWake cfg) :=
      leads_bind (leads_modify_of_eq hf) fun _ => leads_schedulerTimerServiceWake
    have hbusy :=
      (hwakes fun k => by simp).ret h ⟨hk.service, by simp [Kernel.outline, Kernel.errand]⟩
    exact ⟨hbusy.1, fun _ => hbusy.2⟩

/-! ## Advances -/

/-- Neither the delays that expire nor the turn of the current task concern the service. -/
theorem kernelTimeAdvanceCommon_attended {k k' : Kernel} {b : Bool}
    (h : Inv cfg k.currentTick noneStale k) (hk : k.errand.Attended)
    (hret : kernelTimeAdvanceCommon cfg elapsed k = .ret b k') :
    k'.errand.Attended := by
  unfold kernelTimeAdvanceCommon at hret
  rw [modify_bind_apply, get_bind_apply] at hret
  obtain ⟨woken, k₁, hloop, hret⟩ := exists_ret_of_bind hret
  generalize hk₀ : Kernel.count _ _ = k₀ at hloop
  have hsame : SameTasks k k₀ := by rw [← hk₀]; rfl
  have hexpired : ∃ ts, woken = some ts ∧ Expired cfg k₀ k₁ ts := wp_ret
    (wp_delayLoop (Q := fun woken k' => ∃ ts, woken = some ts ∧ Expired cfg k₀ k' ts)
      (E := fun _ _ => True) (h.sameTasks hsame) le_rfl
      (fun k' ts hexp _ _ _ _ => ⟨ts, rfl, hexp⟩) fun _ _ => trivial) hloop
  obtain ⟨ts, rfl, hexp⟩ := hexpired
  have hk₁ : k₁.errand = k.errand := by
    have hservice : k₁.timerServiceTask = k₀.timerServiceTask :=
      (Kernel.of_rest Kernel.timerServiceTask hexp.rest :)
    have hqueue : k₁.callbackQueue = k₀.callbackQueue :=
      (Kernel.of_rest Kernel.callbackQueue hexp.rest :)
    have hcounted : k₀.errand = k.errand := by rw [← hk₀]; rfl
    rw [← hcounted]
    simp only [Kernel.errand, hservice, hqueue, hexp.service (h.sameTasks hsame)]
  refine (?_ : Leads Kernel.outline (OnErrand Errand.Attended)
    (OnErrand Errand.Attended) _).ret hret
    (hk₁ ▸ hk : k₁.errand.Attended)
  refine leads_bind leads_get fun _ => leads_bind
    (leads_timerManagerProcessExpired fun _ _ => leads_timerPublish_attended) fun _ => ?_
  have hplan {c : Prop} [Decidable c] : Leads Kernel.outline (OnErrand Errand.Attended)
      (OnErrand Errand.Attended) (if c then pure false else planAfterTick cfg) := by
    split <;> simp
  split
  · exact leads_bind (leads_pure _) fun _ => hplan
  · exact leads_bind (leads_policyTick (turns_onErrand _)) fun _ => hplan

end RtsKernel
