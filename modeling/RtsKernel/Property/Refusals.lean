import RtsKernel.Operation.Ledger
import RtsKernel.Operation.Preservation
import RtsKernel.Model.Run
import RtsKernel.Property.Deadlines

/-!
# Failed calls leave no trace

A public call that returns a status other than OK leaves the kernel as it found it, diagnostic
counters apart, whatever the port answers; a failed initialisation leaves the reset kernel. The
exception is a yield under EDF by a task whose successor was released so long ago that the release
numbers cannot be compared: the task is put before its successor again, and the call fails after the
fact.

## Main results

* `wp_runEvent_reset`: before `rts_init` only the synchronization objects change.
* `wp_taskYield_failed`: a yield fails without a trace, or in vain.
* `failed_calls_leave_no_trace`: every public call.
* `Duel.run`: two tasks that yield to each other bring the release numbers as far as one likes.
-/

namespace RtsKernel

open Halting Prog

variable {cfg : Config} {k k' : Kernel} {ev : Event} {c t : TaskId} {status : Status}

/-! ## Public calls -/

/-- The public call that an event is, as far as its status is concerned. -/
def Event.call (cfg : Config) : Event → Option (KernelM Status)
  | .init isr port => some (RtsKernel.init cfg isr port)
  | .taskCreate isr config outHandle stack => some do
    let (status, _) ← RtsKernel.taskCreate cfg isr config outHandle stack
    pure status
  | .timerInit isr config => some do
    let (status, _) ← RtsKernel.timerInit cfg isr config
    pure status
  | .semaphoreInit isr s n m => some (RtsKernel.semaphoreInit cfg isr s n m)
  | .mutexInit isr m => some (RtsKernel.mutexInit cfg isr m)
  | .start isr tickOk firstTaskOk => some (RtsKernel.start cfg isr tickOk firstTaskOk)
  | .yield isr => some (taskYield cfg isr)
  | .delay isr d => some (taskDelay cfg isr d)
  | .take isr s timeout => some (semaphoreTake cfg isr s timeout)
  | .give isr s => some (semaphoreGive cfg isr s)
  | .giveFromIsr isr s => some do
    let (status, _) ← semaphoreGiveFromIsr cfg isr s
    pure status
  | .lock isr m timeout => some (mutexLock cfg isr m timeout)
  | .unlock isr m => some (mutexUnlock cfg isr m)
  | .timerStart isr i => some (RtsKernel.timerStart cfg isr i)
  | .timerRestart isr i => some (RtsKernel.timerRestart cfg isr i)
  | .timerStop isr i => some (RtsKernel.timerStop cfg isr i)
  | _ => none

/-- The kernel without its diagnostic counters. -/
def Kernel.uncounted (k : Kernel) : Kernel :=
  { k with
    counters := {}
    tasks := fun t =>
      { k.tasks t with
        diagnosticDispatchCount := 0
        diagnosticBlockCount := 0
        diagnosticWakeCount := 0
        diagnosticRunningTicks := 0 } }

/-! ## Before initialisation -/

/-- The kernel that `rts_kernel_restore_reset` makes; the synchronization objects belong to the
application, and the requests to the port. -/
def Kernel.IsReset (k : Kernel) : Prop := kernelRestoreReset k = k

/-- Nothing but the synchronization objects differs. -/
def Kernel.SameButObjects (k k' : Kernel) : Prop :=
  k' = { k with semaphores := k'.semaphores, mutexes := k'.mutexes }

@[simp] theorem Kernel.SameButObjects.refl (k : Kernel) : k.SameButObjects k := rfl

@[simp] theorem Kernel.sameButObjects_updateSemaphore (k : Kernel) (i : Nat)
    (f : Semaphore → Semaphore) : k.SameButObjects (k.updateSemaphore i f) := rfl

@[simp] theorem Kernel.sameButObjects_updateMutex (k : Kernel) (m : Nat) (f : Mutex → Mutex) :
    k.SameButObjects (k.updateMutex m f) := rfl

theorem Kernel.SameButObjects.isReset (h : k.SameButObjects k') (hr : k.IsReset) : k'.IsReset := by
  unfold Kernel.IsReset at hr ⊢
  rw [h, ← hr]
  rfl

@[simp] theorem wp_notifyPort_false {Q : Unit → Kernel → Prop} {E : Fatal → Kernel → Prop} :
    wp (notifyPort false) Q E k ↔ Q () k := Iff.rfl

theorem wp_kernelAdvance_refused {contextOk : Bool} {elapsed : Tick} {Q : Bool → Kernel → Prop}
    (hl : k.lifecycle ≠ .running) (hQ : Q false k) :
    wp (kernelAdvance cfg contextOk elapsed) Q (fun _ _ => True) k := by
  have hnot : ¬ AdvanceIsValid k contextOk elapsed := fun hv => hl hv.1
  unfold kernelAdvance
  rw [wp_bind, wp_get, wp_bind, wp_rtsAssert, wp_ite, if_neg hnot]
  exact ⟨fun _ => hQ, fun _ => trivial⟩

/-- Before initialisation only the synchronization objects change. -/
theorem wp_runEvent_reset (hl : k.lifecycle = .reset) (hev : ¬ ev.Startup) (hen : ev.Enabled k) :
    wp (runEvent cfg ev) (fun _ => k.SameButObjects) (fun _ _ => True) k := by
  cases ev with
  | init => exact absurd trivial hev
  | taskCreate => exact absurd trivial hev
  | start => exact absurd trivial hev
  | timerInit isr config =>
    cases config with
    | none => simp [runEvent, timerInit]
    | some config => simp [runEvent, timerInit, hl]
  | semaphoreInit isr s n max =>
    cases s <;> simp [runEvent, semaphoreInit]
  | mutexInit isr m =>
    cases m <;> simp [runEvent, mutexInit]
  | yield isr => simp [runEvent, taskYield, hl]
  | delay isr d => simp [runEvent, taskDelay, taskYield, hl]
  | take isr s timeout => cases s <;> simp [runEvent, semaphoreTake, hl]
  | give isr s => cases s <;> simp [runEvent, semaphoreGive, semaphoreGiveCommon, hl]
  | giveFromIsr isr s =>
    cases s <;> simp [runEvent, semaphoreGiveFromIsr, semaphoreGiveCommon, hl]
  | lock isr m timeout => cases m <;> simp [runEvent, mutexLock, hl]
  | unlock isr m => cases m <;> simp [runEvent, mutexUnlock, hl]
  | consume => simp [Event.Enabled, hl] at hen
  | timerStart isr i => simp [runEvent, timerStart, timerArm, TimerLifecycleAllowsControl, hl]
  | timerRestart isr i => simp [runEvent, timerRestart, timerArm, TimerLifecycleAllowsControl, hl]
  | timerStop isr i => simp [runEvent, timerStop, TimerLifecycleAllowsControl, hl]
  | serviceBegin => simp [Event.Enabled, ServiceIsRunning, hl] at hen
  | serviceEnd => simp [Event.Enabled, ServiceIsRunning, hl] at hen
  | serviceRest => simp [Event.Enabled, ServiceIsRunning, hl] at hen
  | tick isr elapsed =>
    rw [runEvent, kernelTickAdvance, wp_bind]
    exact wp_kernelAdvance_refused (by simp [hl]) rfl
  | skip isr elapsed =>
    rw [runEvent, kernelTimeSkip, wp_bind]
    exact wp_kernelAdvance_refused (by simp [hl]) rfl
  | powerIdle isr result => simp [runEvent, powerIdle, PowerSleepIsAllowed, hl]
  | acquire => simp [Event.Enabled, hl] at hen
  | complete snapshot intact => simp [Event.Enabled, hl] at hen
  | reselect => simp [Event.Enabled, hl] at hen

/-- What holds of a kernel that does not run yet: its clock stands, no task has been started since
tick 0, and before initialisation it is the reset kernel. -/
structure Kernel.Unused (k : Kernel) : Prop where
  clock : k.currentTick = 0
  started : ∀ t, (k.tasks t).diagnosticLastStartTick = 0
  reset : k.lifecycle = .reset → k.IsReset

theorem Kernel.Unused.of_ledger (h : k.Unused) (hledger : k'.ledger = k.ledger)
    (hreset : k'.lifecycle = .reset → k'.IsReset) : k'.Unused where
  clock := (congrArg Ledger.now hledger).trans h.clock
  started t := (congrFun (congrArg Ledger.started hledger) t).trans (h.started t)
  reset := hreset

theorem Initialised.unused {servicePointer idlePointer : Nat}
    (h : Initialised cfg k servicePointer idlePointer k') : k'.Unused where
  clock := by rw [h.frame]; rfl
  started t := by
    obtain ⟨_, _, _, hidle⟩ := h.idle
    cases t with
    | slot i => rw [h.slots]
    | idle => rw [hidle]; rfl
    | timerService => rw [h.service]; rfl
  reset hl := by
    rw [h.frame] at hl
    cases hl

theorem Created.unused {config : TaskConfig} {stackPointer : Nat} {k₁ : Kernel}
    (h : Created cfg k config stackPointer k₁ k') (hk : k.Unused) : k'.Unused where
  clock := by rw [h.frame_eq]; exact hk.clock
  started t := by
    rcases eq_or_ne t (.slot k.allocatedCount) with rfl | ht
    · obtain ⟨_, _, _, heq⟩ := h.inserted_new
      rw [h.new, Tcb.committed, heq]
      rfl
    · rw [h.other ht]
      exact hk.started t
  reset hl := by
    rw [h.frame_eq, h.initialized] at hl
    cases hl

theorem Kernel.Unused.dispatched (h : k.Unused) (hl : k.lifecycle ≠ .reset) :
    (k.dispatched t).Unused where
  clock := h.clock
  started u := by
    rcases eq_or_ne u t with rfl | hu
    · simpa [Kernel.dispatched, runtimeTaskStarted] using h.clock
    · simpa [Kernel.dispatched, hu] using h.started u
  reset hr := absurd hr hl

theorem Sound.pick_none (h : Sound cfg k) (hl : k.lifecycle = .reset) :
    policyPickNext cfg k ≠ some t := by
  intro hpick
  exact (policyPickNext_mem h.ok.inv.ready hpick).not_dormant (h.ok.inv.phase.reset hl t)

theorem Kernel.Unused.step (h : k.lifecycle ≠ .running → k.Unused) (hs : Sound cfg k)
    (hstep : Step cfg k ev k') (hl' : k'.lifecycle ≠ .running) : k'.Unused := by
  have hl : k.lifecycle ≠ .running := fun hl => hl' ((hstep.stepped hs).running hs.ok hl)
  have hk := h hl
  by_cases hev : ev.Startup
  · cases ev with
    | init isr port =>
      obtain ⟨status, hret⟩ := exists_ret_of_discard hstep.2
      have hinits : Inits cfg k status k' := (wp_ret (init_spec hs.ok hs.timersOk) hret :)
      by_cases hok : status = .ok
      · obtain ⟨-, _, _, hdone⟩ := hinits.done hok
        exact hdone.unused
      · rcases hinits.failed hok with ⟨rfl, -⟩ | rfl
        · exact ⟨rfl, fun _ => rfl, fun _ => rfl⟩
        · exact hk
    | taskCreate isr config outHandle stack =>
      obtain ⟨r, hret⟩ := exists_ret_of_discard hstep.2
      have hcreates : Creates cfg k config r k' :=
        (wp_ret (taskCreate_spec hs.ok hs.timersOk hs.pool) hret :)
      by_cases hok : r.1 = .ok
      · obtain ⟨_, _, _, -, hcreated, -⟩ := hcreates.done hok
        exact hcreated.unused hk
      · rw [hcreates.failed hok]
        exact hk
    | start isr tickOk firstTaskOk =>
      obtain ⟨status, hret⟩ := exists_ret_of_discard hstep.2
      have hlaunches : Launches cfg k status k' :=
        (wp_ret (start_spec hs.ok hs.timersOk hs.pool) hret :)
      by_cases hok : status = .ok
      · obtain ⟨_, hlaunched⟩ := hlaunches.done hok
        refine absurd ?_ hl'
        rw [hlaunched.frame]
      · rcases hlaunches.failed hok with rfl | ⟨t, hpick, rfl⟩
        · exact hk
        · exact hk.dispatched fun hr => hs.pick_none hr hpick
    | _ => exact hev.elim
  · have hswitch : ∀ snapshot intact, ev ≠ .complete snapshot intact := by
      rintro snapshot intact rfl
      exact hl hstep.1
    have helapsed : ev.elapsed cfg k = 0 := by
      by_contra hne
      exact hl (Event.running_of_elapsed hne)
    have hledger : k'.ledger = k.ledger := by
      rw [runEvent_ledger hstep.2 hev hswitch, helapsed]
      exact Ledger.advance_zero _
    refine hk.of_ledger hledger fun hr => ?_
    have hreset : k.lifecycle = .reset := (congrArg Ledger.lifecycle hledger).symm.trans hr
    have hsame : k.SameButObjects k' := (wp_ret (wp_runEvent_reset hreset hev hstep.1) hstep.2 :)
    exact hsame.isReset (hk.reset hreset)

theorem ReachableWhen.unused {allowed : Kernel → Event → Prop} (h : ReachableWhen cfg allowed k)
    (hl : k.lifecycle ≠ .running) : k.Unused :=
  h.invariant (P := fun k => k.lifecycle ≠ .running → k.Unused)
    (fun _ => ⟨rfl, fun _ => rfl, fun _ => rfl⟩)
    (fun _ _ _ hs hstep _ _ hk => Kernel.Unused.step hk hs hstep) hl

/-! ## Yields -/

/-- The task and its successor in the EDF list have one deadline and neither is the idle task, and
the successor was released so long ago that the next release number compares as earlier. -/
def Kernel.YieldsInVain (k : Kernel) (c : TaskId) : Prop :=
  k.idleTask ≠ some c ∧ ∃ next ∈ successor c k.edfReady, k.idleTask ≠ some next ∧
    (k.tasks next).absoluteDeadline = (k.tasks c).absoluteDeadline ∧
    tickBefore (nextReleaseSequence k.policyReleaseSequence) (k.tasks next).releaseSequence

instance (k : Kernel) (c : TaskId) : Decidable (k.YieldsInVain c) := by
  delta Kernel.YieldsInVain
  infer_instance

/-- A yield under EDF, without assertions, that passes all checks and cannot give the processor
away. -/
def Kernel.YieldFails (cfg : Config) (k : Kernel) (isr : Bool) : Prop :=
  (isr = false ∧ k.lifecycle = .running ∧ cfg.policy = .edf ∧ cfg.enableAssertions = false) ∧
  ∃ c ∈ k.currentTask, YieldCurrentIsCoherent cfg k c ∧ k.YieldsInVain c

instance (cfg : Config) (k : Kernel) (isr : Bool) : Decidable (k.YieldFails cfg isr) := by
  delta Kernel.YieldFails
  infer_instance

/-- A yield, or a delay of zero ticks, that fails after the fact. -/
def Event.YieldsInVain (cfg : Config) (k : Kernel) : Event → Prop
  | .yield isr => k.YieldFails cfg isr
  | .delay isr d => d = 0 ∧ k.YieldFails cfg isr
  | _ => False

instance (cfg : Config) (k : Kernel) (ev : Event) : Decidable (ev.YieldsInVain cfg k) := by
  induction ev using Event.casesOn <;> dsimp only [Event.YieldsInVain] <;> infer_instance

/-- The kernel in which the task has been given the next release number. -/
@[simps -fullyApplied]
def Kernel.renumbered (k : Kernel) (t : TaskId) : Kernel :=
  { k with
    policyReleaseSequence := nextReleaseSequence k.policyReleaseSequence
    tasks := Function.update k.tasks t
      { k.tasks t with releaseSequence := nextReleaseSequence k.policyReleaseSequence } }

/-- The head of the list that yields to a peer is inserted again with a new release number. -/
theorem wp_policyEdfYield_peer {Q : Bool → Kernel → Prop} {E : Fatal → Kernel → Prop}
    {l : List TaskId} (hlist : k.edfReady = c :: t :: l) (hout : c ∉ t :: l)
    (hdeadline : (k.tasks t).absoluteDeadline = (k.tasks c).absoluteDeadline)
    (hidle : k.idleTask ≠ some t)
    (hQ : Q true { k.renumbered c with
      edfReady := (t :: l).orderedInsert (EdfIsBefore (k.renumbered c)) c }) :
    wp (policyEdfYield c) Q E k := by
  have hnext : successor c k.edfReady = some t := by simp [hlist, successor]
  have herase : k.edfReady.erase c = t :: l := by simp [hlist]
  unfold policyEdfYield
  rw [wp_bind, wp_get]
  simp only [hnext]
  rw [wp_ite, if_neg (by simp [hdeadline, hidle])]
  unfold policyEdfRemove policyEdfInsert
  rw [wp_bind, wp_bind, wp_get, wp_ite, if_pos (by simp [hlist]), wp_bind, wp_modify, wp_pure,
    wp_bind, wp_modify, wp_bind, wp_get, wp_ite, if_neg (by simpa [herase] using hout), wp_bind,
    wp_modify, wp_pure]
  rw [← herase] at hQ
  exact hQ

/-- The head of the list that yields is moved and comes out as the head again exactly when it yields
in vain; it then has a new release number. -/
theorem wp_policyEdfYield_vain {E : Fatal → Kernel → Prop} (hnodup : k.edfReady.Nodup)
    (hhead : k.edfReady.head? = some c) :
    wp (policyEdfYield c) (fun moved k' =>
      (moved = true ∧ k'.edfReady.head? = some c ↔ k.YieldsInVain c) ∧
      (moved = true →
        k'.policyReleaseSequence = nextReleaseSequence k.policyReleaseSequence)) E k := by
  obtain ⟨rest, hlist⟩ : ∃ rest, k.edfReady = c :: rest := by
    cases hk : k.edfReady with
    | nil => simp [hk] at hhead
    | cons a rest =>
      obtain rfl : a = c := by simpa [hk] using hhead
      exact ⟨rest, rfl⟩
  cases rest with
  | nil => simp [policyEdfYield, Kernel.YieldsInVain, hlist, successor]
  | cons next l =>
    have hnext : successor c k.edfReady = some next := by simp [hlist, successor]
    have hout : c ∉ next :: l := by
      rw [hlist] at hnodup
      exact (List.nodup_cons.mp hnodup).1
    have hne : next ≠ c := fun heq => hout (heq ▸ List.mem_cons_self)
    by_cases hpeer : (k.tasks next).absoluteDeadline = (k.tasks c).absoluteDeadline ∧
        k.idleTask ≠ some next
    · refine wp_policyEdfYield_peer hlist hout hpeer.1 hpeer.2 ⟨?_, fun _ => rfl⟩
      have hbefore : EdfIsBefore (k.renumbered c) c next ↔ k.YieldsInVain c := by
        have hself : ∀ {n}, tickBefore n (k.tasks next).releaseSequence →
            n ≠ (k.tasks next).releaseSequence := by
          rintro _ hlt rfl
          simp [tickBefore] at hlt
        simp only [EdfIsBefore, Kernel.YieldsInVain, hnext, Kernel.renumbered_tasks,
          Kernel.renumbered_idleTask, Function.update_self, Function.update_of_ne hne, hpeer.1,
          hpeer.2, ne_eq, not_true_eq_false, if_false, false_or, Option.mem_def, Option.some.injEq,
          exists_eq_left', not_false_eq_true, true_and]
        exact and_congr_right fun _ => ⟨fun hlt => hlt.2, fun hlt => ⟨hself hlt, hlt⟩⟩
      rw [← hbefore, List.orderedInsert_cons]
      split <;> rename_i hb <;> simp [hb, hne]
    · have hquiet : (k.tasks next).absoluteDeadline ≠ (k.tasks c).absoluteDeadline ∨
          k.idleTask = some next := by
        by_cases hd : (k.tasks next).absoluteDeadline = (k.tasks c).absoluteDeadline
        · exact .inr (not_not.1 fun hidle => hpeer ⟨hd, hidle⟩)
        · exact .inl hd
      unfold policyEdfYield
      rw [wp_bind, wp_get]
      simp only [hnext]
      rw [wp_ite, if_pos hquiet, wp_pure]
      have hnot : ¬ k.YieldsInVain c := by
        rintro ⟨-, next', hnext', hidle, hdeadline, -⟩
        obtain rfl : next = next' := Option.some.inj (hnext.symm.trans hnext')
        exact hpeer ⟨hdeadline, hidle⟩
      simp [hnot]

/-- What a yield reads of the task that yields, its time slice does not change. -/
theorem Kernel.yieldsInVain_yielding : (k.yielding cfg c).YieldsInVain c ↔ k.YieldsInVain c := by
  have hsame : ∀ u, ((k.yielding cfg c).tasks u).absoluteDeadline = (k.tasks u).absoluteDeadline ∧
      ((k.yielding cfg c).tasks u).releaseSequence = (k.tasks u).releaseSequence := by
    intro u
    rcases eq_or_ne u c with rfl | hu
    · simp [Kernel.yielding]
    · simp [Kernel.yielding, hu]
  simp only [Kernel.YieldsInVain, hsame]
  rfl

/-- A yield that passes all checks fails exactly when it is in vain, and it has then given the task
a new release number; with assertions it halts. -/
theorem wp_taskYieldAs_vain (h : KernelOk cfg k) (hpol : cfg.policy = .edf)
    (hco : YieldCurrentIsCoherent cfg k c) :
    wp (taskYieldAs cfg c) (fun status k' => (status ≠ .ok ↔ k.YieldsInVain c) ∧
        (k.YieldsInVain c → cfg.enableAssertions = false ∧ status = .invalidState ∧
          k'.policyReleaseSequence = nextReleaseSequence k.policyReleaseSequence))
      (fun _ _ => k.YieldsInVain c → cfg.enableAssertions = true) k := by
  have hhead : ∀ k', policyPickNext cfg k' = k'.edfReady.head? := fun k' => by
    simp [policyPickNext, hpol]
  have hpolicy : policyYield cfg c = policyEdfYield c := by simp only [policyYield, hpol]
  have hrequeued := wp_policyYield_requeued (E := fun _ _ => False) h hco
  obtain ⟨hc, -, -, -, hpick, -⟩ := hco
  have hyield := wp_policyEdfYield_vain (E := fun _ _ => False) (k := k.yielding cfg c)
    h.inv.ready.edf_nodup ((hhead k).symm.trans hpick)
  rw [hpolicy] at hrequeued
  unfold taskYieldAs
  rw [hpolicy, wp_bind, wp_modify, wp_bind]
  refine wp_mono (wp_and hrequeued hyield) (fun moved k₂ hk₂ => ?_) fun _ _ hk₂ => hk₂.1.elim
  obtain ⟨⟨hq₂, -, -⟩, hstays, hnumber⟩ := hk₂
  rw [Kernel.yieldsInVain_yielding] at hstays
  rw [wp_ite]
  split <;> rename_i hmoved
  · have hnot : ¬ k.YieldsInVain c := fun hv => by simp [(hstays.mpr hv).1] at hmoved
    simp [hnot]
  rw [Bool.not_eq_false] at hmoved
  have hinv₂ := hq₂.inv h.inv
  have hc₂ : k₂.currentTask = some c := by rw [hq₂.frame]; exact hc
  have hl₂ := hinv₂.running_of_current hc₂
  -- the pick is the task itself exactly when the yield is in vain
  have hself : ∀ p, policyPickNext cfg k₂ = some p → (p = c ↔ k.YieldsInVain c) := by
    intro p hp
    rw [← hstays, ← hhead, hp, Option.some.injEq]
    simp [hmoved]
  rw [wp_bind]
  refine wp_select hinv₂ (by simp [hl₂]) (fun p hp hrun => ?_) fun hidle _ hv => ?_
  swap
  · obtain rfl := (hself _ hidle).mpr hv
    exact absurd (h.inv.phase.idleTask (by simp [h.inv.running_of_current hc])) hv.1
  have hself := hself p hp
  rw [wp_bind, wp_get, wp_bind, wp_rtsAssert]
  refine ⟨fun hoff => ?_, fun hon _ => hon.1⟩
  rw [wp_bind, wp_rtsAssert]
  refine ⟨fun _ => ?_, fun hon _ => hon.1⟩
  rw [wp_ite]
  by_cases hpc : p = c
  · have hv := hself.mp hpc
    rw [if_pos (.inl hpc), wp_pure]
    simp only [hv, iff_true, true_implies]
    exact ⟨by simp, Bool.eq_false_iff.mpr fun hon => hoff hon hpc, trivial, hnumber hmoved⟩
  · have hnot : ¬ k.YieldsInVain c := fun hv => hpc (hself.mpr hv)
    have hready := hinv₂.ready_of_ne hc₂ (hinv₂.pick_runnable hp) hpc
    rw [if_neg (by simp [hpc, hready])]
    refine wp_bind_of_forall (fun _ _ => ?_) fun _ _ hv => absurd hv hnot
    refine wp_bind_of_forall (fun _ _ => ?_) fun _ _ hv => absurd hv hnot
    simp [hnot]

theorem nextReleaseSequence_ne (n : Tick) : nextReleaseSequence n ≠ n := by
  unfold nextReleaseSequence
  split <;> bv_omega

/-- A yield fails without a trace, unless it is in vain: it then always fails, with a trace. -/
theorem wp_taskYield_failed {isr : Bool} (h : KernelOk cfg k) :
    wp (taskYield cfg isr) (fun status k' =>
        (status ≠ .ok → ¬ k.YieldFails cfg isr → k' = k) ∧
        (k.YieldFails cfg isr → status = .invalidState ∧
          k'.policyReleaseSequence ≠ k.policyReleaseSequence))
      (fun _ _ => ¬ k.YieldFails cfg isr) k := by
  have hquiet : ∀ status, ¬ k.YieldFails cfg isr → (status ≠ Status.ok → ¬ k.YieldFails cfg isr →
      k = k) ∧ (k.YieldFails cfg isr → status = .invalidState ∧
        k.policyReleaseSequence ≠ k.policyReleaseSequence) :=
    fun _ hnot => ⟨fun _ _ => rfl, fun hv => absurd hv hnot⟩
  unfold taskYield
  rw [wp_ite]
  split <;> rename_i hisr
  · exact hquiet _ fun hv => by simp [hv.1.1] at hisr
  rw [wp_bind, wp_get, wp_ite]
  split <;> rename_i hl
  · exact hquiet _ fun hv => hl hv.1.2.1
  cases hc : k.currentTask with
  | none =>
    have hnot : ¬ k.YieldFails cfg isr := fun hv => by simp [Kernel.YieldFails, hc] at hv
    simp only
    rw [wp_bind, wp_rtsAssert]
    exact ⟨fun _ => hquiet _ hnot, fun _ => hnot⟩
  | some c =>
    have hof : k.YieldFails cfg isr → YieldCurrentIsCoherent cfg k c ∧ k.YieldsInVain c := by
      rintro ⟨-, d, hd, hv⟩
      rwa [Option.some.inj (hc.symm.trans hd)]
    simp only
    rw [wp_bind, wp_rtsAssert, wp_ite]
    refine ⟨fun _ => ?_, fun hnot hv => hnot.2 (hof hv).1⟩
    split <;> rename_i hco
    · exact hquiet _ fun hv => hco (hof hv).1
    rw [not_not] at hco
    by_cases hpol : cfg.policy = .edf
    · refine wp_mono (wp_taskYieldAs_vain h hpol hco)
        (fun status k' hk' => ⟨fun hne hnot => ?_, fun hv => ?_⟩) fun _ _ hon hv => ?_
      · have hv := hk'.1.mp hne
        have hoff := (hk'.2 hv).1
        exact absurd ⟨⟨by simpa using hisr, by simpa using hl, hpol, hoff⟩, c, hc, hco, hv⟩ hnot
      · obtain ⟨-, hstatus, hnumber⟩ := hk'.2 (hof hv).2
        exact ⟨hstatus, hnumber ▸ nextReleaseSequence_ne _⟩
      · have hon := hon (hof hv).2
        simp [hv.1.2.2.2] at hon
    · have hnot : ¬ k.YieldFails cfg isr := fun hv => hpol hv.1.2.2.1
      refine wp_mono (taskYieldAs_spec h hco)
        (fun status k' hk' => ⟨fun hne _ => ?_, fun hv => absurd hv hnot⟩) fun _ _ _ => hnot
      exact (hk'.failed hne).resolve_right fun hpick => hpol hpick.1

/-- A delay fails without a trace, unless it is a yield in vain. -/
theorem wp_taskDelay_failed {isr : Bool} {d : Tick} (h : KernelOk cfg k) (h0 : d ≠ 0) :
    wp (taskDelay cfg isr d) (fun status k' => status ≠ .ok → k' = k) (fun _ _ => True) k := by
  unfold taskDelay
  rw [wp_ite, if_neg h0, wp_ite]
  split <;> rename_i hd
  · exact fun _ => rfl
  rw [wp_ite]
  split
  · exact fun _ => rfl
  rw [wp_bind, wp_get, wp_ite]
  split
  · exact fun _ => rfl
  cases hc : k.currentTask with
  | none =>
    simp only
    rw [wp_bind, wp_rtsAssert]
    exact ⟨fun _ _ => rfl, fun _ => trivial⟩
  | some c =>
    simp only
    rw [wp_ite]
    split <;> rename_i hservice
    · exact fun _ => rfl
    rw [wp_bind, wp_rtsAssert, wp_ite]
    refine ⟨fun _ => ?_, fun _ => trivial⟩
    split <;> rename_i hcan
    · exact fun _ => rfl
    rw [not_not] at hcan
    have happ := h.inv.isApplication (h.inv.not_dormant_of_current hc) hcan.2.2.1 hservice
    have hspec : wp (taskDelayAs cfg d c) (Served cfg k (.delay isr d)) _ k :=
      taskDelayAs_spec h hcan happ h0 (by simpa using hd)
    exact wp_mono hspec (fun _ _ hserved hne => hserved.failed hne) fun _ _ _ => trivial

/-! ## All calls -/

/-- A failed start has counted the dispatch of the first task, and nothing else. -/
theorem Kernel.Unused.uncounted_dispatched (h : k.Unused) (t : TaskId) :
    (k.dispatched t).uncounted = k.uncounted := by
  unfold Kernel.uncounted
  congr 1
  funext u
  rcases eq_or_ne u t with rfl | hu
  · simp [Kernel.dispatched, runtimeTaskStarted, h.clock, h.started]
  · simp [Kernel.dispatched, hu]

/-- A call that is neither a start nor an initialisation fails exactly as it found the kernel,
unless it yields in vain. -/
theorem Event.call_failed {op : KernelM Status} (hs : Sound cfg k) (hen : ev.Enabled k)
    (hop : ev.call cfg = some op) (hret : op k = .ret status k') (hfail : status ≠ .ok)
    (hvain : ¬ ev.YieldsInVain cfg k) (hinit : ∀ isr port, ev ≠ .init isr port)
    (hstart : ∀ isr tickOk firstTaskOk, ev ≠ .start isr tickOk firstTaskOk) : k' = k := by
  have hthread : ev.isr = false → ev.isr = true ∨ ThreadMayCall k → ∀ c, k.currentTask = some c →
      (k.tasks c).state = .running := fun hisr hcall c hc =>
    ThreadMayCall.running hs.ok (hcall.resolve_left (by simp [hisr])) hc
  cases ev with
  | init isr port => exact absurd rfl (hinit isr port)
  | start isr tickOk firstTaskOk => exact absurd rfl (hstart isr tickOk firstTaskOk)
  | taskCreate isr config outHandle stack =>
    obtain rfl := Option.some.inj hop
    obtain ⟨r, _, hcall, hpure⟩ := exists_ret_of_bind hret
    cases hpure
    exact (wp_ret (taskCreate_spec hs.ok hs.timersOk hs.pool) hcall).failed hfail
  | timerInit isr config =>
    obtain rfl := Option.some.inj hop
    obtain ⟨r, _, hcall, hpure⟩ := exists_ret_of_bind hret
    cases hpure
    exact (wp_ret (timerInit_spec hs.ok hs.timersOk) hcall).failed hfail
  | semaphoreInit isr s n max =>
    obtain rfl := Option.some.inj hop
    exact (wp_ret (semaphoreInit_spec hs.ok) hret).failed hfail
  | mutexInit isr m =>
    obtain rfl := Option.some.inj hop
    exact (wp_ret (mutexInit_spec hs.ok) hret).failed hfail
  | yield isr =>
    obtain rfl := Option.some.inj hop
    exact (wp_ret (wp_taskYield_failed hs.ok) hret).1 hfail hvain
  | delay isr d =>
    obtain rfl := Option.some.inj hop
    by_cases h0 : d = 0
    · subst h0
      exact (wp_ret (wp_taskYield_failed hs.ok) hret).1 hfail fun hv => hvain ⟨rfl, hv⟩
    · exact wp_ret (wp_taskDelay_failed hs.ok h0) hret hfail
  | take isr s timeout =>
    obtain rfl := Option.some.inj hop
    exact (wp_ret (semaphoreTake_spec hs.ok) hret).failed hfail
  | give isr s =>
    obtain rfl := Option.some.inj hop
    exact (wp_ret (semaphoreGive_spec hs.ok) hret).failed hfail
  | giveFromIsr isr s =>
    obtain rfl := Option.some.inj hop
    obtain ⟨r, _, hcall, hpure⟩ := exists_ret_of_bind hret
    cases hpure
    exact ((wp_ret (semaphoreGiveFromIsr_spec hs.ok) hcall).failed hfail).1
  | lock isr m timeout =>
    obtain rfl := Option.some.inj hop
    exact (wp_ret (mutexLock_spec hs.ok fun c hisr => hthread hisr hen c) hret).failed hfail
  | unlock isr m =>
    obtain rfl := Option.some.inj hop
    exact (wp_ret (mutexUnlock_spec hs.ok) hret).failed hfail
  | timerStart isr i =>
    obtain rfl := Option.some.inj hop
    exact (wp_ret (timerStart_spec hs.ok hs.timersOk) hret).failed hfail
  | timerRestart isr i =>
    obtain rfl := Option.some.inj hop
    exact (wp_ret (timerRestart_spec hs.ok hs.timersOk fun hisr => hthread hisr hen)
      hret).failed hfail
  | timerStop isr i =>
    obtain rfl := Option.some.inj hop
    exact (wp_ret (timerStop_spec hs.ok hs.timersOk fun hisr => hthread hisr hen) hret).failed hfail
  | _ => simp [Event.call] at hop

theorem Event.call_unseen {op : KernelM Status} (hreach : Reachable cfg k)
    (hen : ev.Enabled k) (hvain : ¬ ev.YieldsInVain cfg k) (hop : ev.call cfg = some op)
    (hret : op k = .ret status k') (hfail : status ≠ .ok) :
    k'.uncounted = k.uncounted ∧
    (k.lifecycle = .reset → k'.IsReset ∧ k'.semaphores = k.semaphores ∧
    k'.mutexes = k.mutexes) := by
  have hs := hreach.sound
  have hunused := hreach.unused
  have hsame : k' = k → k'.uncounted = k.uncounted ∧ (k.lifecycle = .reset →
      k'.IsReset ∧ k'.semaphores = k.semaphores ∧ k'.mutexes = k.mutexes) := by
    rintro rfl
    exact ⟨rfl, fun hr => ⟨(hunused (by simp [hr])).reset hr, rfl, rfl⟩⟩
  by_cases hinit : ∃ isr port, ev = .init isr port
  · obtain ⟨isr, port, rfl⟩ := hinit
    obtain rfl := Option.some.inj hop
    have hinits : Inits cfg k status k' := wp_ret (init_spec hs.ok hs.timersOk) hret
    rcases hinits.failed hfail with ⟨rfl, hr⟩ | heq
    · have hreset : kernelRestoreReset k = k := (hunused (by simp [hr])).reset hr
      exact hsame hreset
    · exact hsame heq
  by_cases hstart : ∃ isr tickOk firstTaskOk, ev = .start isr tickOk firstTaskOk
  · obtain ⟨isr, tickOk, firstTaskOk, rfl⟩ := hstart
    obtain rfl := Option.some.inj hop
    have hlaunches : Launches cfg k status k' := wp_ret (start_spec hs.ok hs.timersOk hs.pool) hret
    rcases hlaunches.starts with hstarts | heq
    · rcases hlaunches.failed hfail with heq | ⟨t, hpick, rfl⟩
      · exact hsame heq
      · exact ⟨(hunused hstarts.before).uncounted_dispatched t,
          fun hr => absurd hpick (hs.pick_none hr)⟩
    · exact hsame heq
  · push Not at hinit hstart
    exact hsame (Event.call_failed hs hen hop hret hfail hvain hinit hstart)

/-- A yield in vain fails, and the policy has given a new release number. -/
theorem Event.YieldsInVain.seen {op : KernelM Status} (h : ev.YieldsInVain cfg k)
    (hs : Sound cfg k) (hop : ev.call cfg = some op) :
    ∃ k', op k = .ret .invalidState k' ∧ k'.uncounted ≠ k.uncounted := by
  have hyield : ∀ {isr}, k.YieldFails cfg isr →
      ∃ k', taskYield cfg isr k = .ret .invalidState k' ∧ k'.uncounted ≠ k.uncounted := by
    intro isr hv
    obtain ⟨status, k', hret, -, hfails⟩ := exists_ret_of_wp
      (wp_mono (wp_taskYield_failed hs.ok) (fun _ _ => id) fun _ _ hnot => hnot hv)
    obtain ⟨rfl, hnumber⟩ := hfails hv
    refine ⟨k', hret, fun hsame => hnumber ?_⟩
    exact (congrArg Kernel.policyReleaseSequence hsame :)
  cases ev with
  | yield isr =>
    obtain rfl := Option.some.inj hop
    exact hyield h
  | delay isr d =>
    obtain rfl := Option.some.inj hop
    obtain ⟨rfl, hv⟩ := h
    exact hyield hv
  | _ => exact h.elim

/-- In every reachable state and for every argument and every answer of the port, a public call that
fails leaves the kernel as it was, diagnostic counters apart, unless it yields in vain. A failed
initialisation of a reset kernel leaves the reset kernel. A call that yields in vain does fail, and
leaves a trace. -/
theorem failed_calls_leave_no_trace {op : KernelM Status} (hreach : Reachable cfg k)
    (hen : ev.Enabled k) (hop : ev.call cfg = some op) :
    (¬ ev.YieldsInVain cfg k → ∀ status k', op k = .ret status k' → status ≠ .ok →
      k'.uncounted = k.uncounted ∧ (k.lifecycle = .reset →
        k'.IsReset ∧ k'.semaphores = k.semaphores ∧ k'.mutexes = k.mutexes)) ∧
    (ev.YieldsInVain cfg k → ∃ k', op k = .ret .invalidState k' ∧ k'.uncounted ≠ k.uncounted) :=
  ⟨fun hvain _ _ hret hfail => Event.call_unseen hreach hen hvain hop hret hfail,
    fun hvain => hvain.seen hreach.sound hop⟩

/-- The port refuses the first task: the start has dispatched it once, and has failed. -/
theorem failed_calls_leave_no_trace_start : ∃ k k', Reachable sampleConfig k ∧
    RtsKernel.start sampleConfig false true false k = .ret .portError k' ∧
    (k'.tasks (.slot 0)).diagnosticDispatchCount ≠ (k.tasks (.slot 0)).diagnosticDispatchCount ∧
    k'.uncounted = k.uncounted := by
  obtain ⟨k, hreach, hen, hstart, hcount⟩ := exists_reachable
    (P := fun k => (Event.start false true false).Enabled k ∧
      (RtsKernel.start sampleConfig false true false k).value? = some .portError ∧
      ((RtsKernel.start sampleConfig false true false k).state.tasks
      (.slot 0)).diagnosticDispatchCount ≠
        (k.tasks (.slot 0)).diagnosticDispatchCount)
    (show (execute sampleConfig (fun _ _ => True) (bootEvents 1) resetKernel).any _ = true by
      decide +kernel)
  have hret := Outcome.eq_ret (a := Status.portError) hstart
  have hquiet := (failed_calls_leave_no_trace hreach hen rfl).1 (by simp [Event.YieldsInVain])
  exact ⟨k, _, hreach, hret, hcount, (hquiet _ _ hret (by decide)).1⟩

/-! ## A yield in vain

Two tasks with an early deadline yield to each other while two tasks with a later deadline wait.
After `2 ^ 31` yields the numbers of the waiting tasks are later than any new number to the
comparison, and the first of the two cannot yield to the second. -/

section Duel

variable {x y : Nat} {ready : List Nat}

/-- Four application tasks under EDF. -/
def duelConfig : Config := { crowdConfig with policy := .edf, rms_ranks := by decide }

/-- A task that is ready or running, of base priority 1 and with the given deadline. -/
def Tcb.Contends (task : Tcb) (deadline : Tick) : Prop :=
  task.HasContext ∧ task.wait = {} ∧ task.waitOwner = none ∧ task.basePriority = 1 ∧
  task.priority = 1 ∧ task.absoluteDeadline = deadline ∧ task.slotState = .allocated

instance (task : Tcb) (deadline : Tick) : Decidable (task.Contends deadline) :=
  inferInstanceAs (Decidable (_ ∧ _ ∧ _ ∧ _ ∧ _ ∧ _ ∧ _))

/-- The ready tasks are the given slots, of which 0 and 1 have deadline 10 and 2 and 3 deadline 5;
all other tasks that wait are due at the next tick. -/
@[mk_iff]
structure Arena (k : Kernel) (c : TaskId) (ready : List Nat) : Prop where
  lifecycle : k.lifecycle = .running
  current : k.currentTask = some c
  idle : k.idleTask = some .idle
  list : k.edfReady = ready.map .slot ++ [.idle]
  slots : ∀ i ∈ ready, i < 4
  nodup : ready.Nodup
  tasks : ∀ i ∈ ready, (k.tasks (.slot i)).Contends (if i < 2 then 10 else 5)
  awake : ∀ i ∈ ready, TaskId.slot i ∉ k.delayQueue
  asleep : ∀ u ∈ k.delayQueue, (k.tasks u).wait.wakeTick = k.currentTick + 1
  running : ∀ i ∈ ready, c = .slot i → (k.tasks (.slot i)).state = .running
  waiting : ∀ i ∈ ready, c ≠ .slot i → (k.tasks (.slot i)).state = .ready

instance (k : Kernel) (c : TaskId) (ready : List Nat) : Decidable (Arena k c ready) :=
  decidable_of_iff _ (arena_iff k c ready).symm

namespace Arena

theorem deadline (h : Arena k t ready) (hx : x ∈ ready) :
    (k.tasks (.slot x)).absoluteDeadline = if x < 2 then 10 else 5 := (h.tasks x hx).2.2.2.2.2.1

theorem runnable (h : Arena k t ready) (hx : x ∈ ready) :
    TaskIsRunnable duelConfig k (.slot x) := by
  obtain ⟨hctx, hwait, howner, hbase, hprio, -, halloc⟩ := h.tasks x hx
  have hstate : (k.tasks (.slot x)).state = .ready ∨
      k.currentTask = some (.slot x) ∧ (k.tasks (.slot x)).state = .running := by
    rcases eq_or_ne t (.slot x) with heq | hne
    · exact .inr ⟨heq ▸ h.current, h.running x hx heq⟩
    · exact .inl (h.waiting x hx hne)
  have hcount : duelConfig.priorityCount = 4 := rfl
  refine ⟨hctx, by rw [hwait], by rw [hwait], by rw [hwait], howner, h.awake x hx,
    ⟨?_, by simp [duelConfig]⟩, by omega, by omega, ?_, hstate, halloc, ?_⟩
  · simp [PolicyContains, duelConfig, h.list, hx]
  · rw [IdentityIsValid, hprio, if_neg (by decide)]
    exact ⟨by decide, .inl (h.slots x hx)⟩
  · simp [Tcb.MagicValid, duelConfig, crowdConfig, sampleConfig]

theorem outgoing (h : Arena k (.slot x) ready) (hx : x ∈ ready) :
    SwitchOutgoingIsValid duelConfig k (.slot x) :=
  ⟨h.current, .inl ⟨h.running x hx rfl, h.runnable hx⟩⟩

theorem valid (h : Arena k (.slot x) ready) (hx : x ∈ ready) : CurrentIsValid duelConfig k := by
  have hrun := h.runnable hx
  simp [CurrentIsValid, h.current, h.lifecycle, h.running x hx rfl, hrun]

theorem pick (h : Arena k t (y :: ready)) : policyPickNext duelConfig k = some (.slot y) := by
  simp [policyPickNext, duelConfig, h.list]

theorem coherent (h : Arena k (.slot x) (x :: ready)) (hinactive : k.switchPlan.active = false) :
    YieldCurrentIsCoherent duelConfig k (.slot x) :=
  ⟨h.current, h.running x (by simp) rfl, h.valid (by simp),
    (h.runnable (by simp)).2.2.2.2.2.2.1, h.pick, hinactive⟩

theorem canBlock (h : Arena k (.slot x) ready) (hx : x ∈ ready)
    (hinactive : k.switchPlan.active = false) : CurrentCanBlock duelConfig k (.slot x) := by
  obtain ⟨-, hwait, howner, -⟩ := h.tasks x hx
  refine ⟨h.current, h.running x hx rfl, by simp [TaskIsIdle], h.valid hx,
    (h.runnable hx).2.2.2.2.2.2.1, ?_, ?_, ?_, ?_, h.awake x hx, howner, hinactive⟩
  all_goals rw [hwait]

/-- The list may be put in another order, and the books of the policy and the diagnostics change. -/
theorem congr {ready' : List Nat} (h : Arena k t ready) (hlife : k'.lifecycle = k.lifecycle)
    (hcur : k'.currentTask = k.currentTask) (hidle : k'.idleTask = k.idleTask)
    (hdelay : k'.delayQueue = k.delayQueue) (htick : k'.currentTick = k.currentTick)
    (hlist : k'.edfReady = ready'.map .slot ++ [.idle]) (hperm : ready'.Perm ready)
    (htask : ∀ u, (k.tasks u).SameButRelease (k'.tasks u) ∧
      (k'.tasks u).absoluteDeadline = (k.tasks u).absoluteDeadline) : Arena k' t ready' where
  lifecycle := hlife.trans h.lifecycle
  current := hcur.trans h.current
  idle := hidle.trans h.idle
  list := hlist
  slots i hi := h.slots i (hperm.mem_iff.1 hi)
  nodup := hperm.nodup_iff.2 h.nodup
  tasks i hi := by
    obtain ⟨hctx, hwait, howner, hbase, hprio, hdead, halloc⟩ := h.tasks i (hperm.mem_iff.1 hi)
    have hsame : k'.tasks (.slot i) = _ := (htask (.slot i)).1
    refine ⟨?_, ?_, ?_, ?_, ?_, (htask _).2.trans hdead, ?_⟩ <;> rw [hsame] <;> assumption
  awake i hi := by
    rw [hdelay]
    exact h.awake i (hperm.mem_iff.1 hi)
  asleep u hu := by
    have hsame : k'.tasks u = _ := (htask u).1
    rw [hdelay] at hu
    rw [hsame, htick]
    exact h.asleep u hu
  running i hi hc := by
    have hsame : k'.tasks (.slot i) = _ := (htask (.slot i)).1
    rw [hsame]
    exact h.running i (hperm.mem_iff.1 hi) hc
  waiting i hi hc := by
    have hsame : k'.tasks (.slot i) = _ := (htask (.slot i)).1
    rw [hsame]
    exact h.waiting i (hperm.mem_iff.1 hi) hc

theorem congr_plan (h : Arena k t ready) (hsame : k' = { k with
      switchPlan := k'.switchPlan
      counters := k'.counters
      rescheduleRequests := k'.rescheduleRequests }) : Arena k' t ready := by
  rw [hsame]
  exact h.congr rfl rfl rfl rfl rfl h.list (.refl _) fun _ => ⟨rfl, rfl⟩

theorem congr_slice (h : Arena k t ready) (c : TaskId) (slice : Tick)
    (f : RuntimeCounters → RuntimeCounters) :
    Arena ((k.updateTask c fun task => { task with sliceRemaining := slice }).count f) t ready := by
  refine h.congr rfl rfl rfl rfl rfl h.list (.refl _) fun u => ?_
  rcases eq_or_ne u c with rfl | hu
  · simp [Tcb.SameButRelease]
  · simp [hu, Tcb.SameButRelease]

theorem wp_select {Q : Option TaskId → Kernel → Prop} {E : Fatal → Kernel → Prop}
    (h : Arena k t (y :: ready)) (hQ : Q (some (.slot y)) k) :
    wp (schedulerSelectHighestReady duelConfig) Q E k := by
  have hrun := h.runnable List.mem_cons_self
  simpa [schedulerSelectHighestReady, h.lifecycle, h.pick, hrun] using hQ

end Arena

/-- A plan of a switch between the slots. -/
structure SwitchPlan.Heads (plan : SwitchPlan) (x y : Nat) : Prop where
  pending : plan.pending = true
  inactive : plan.active = false
  source : plan.fromTask = some (.slot x)
  target : plan.toTask = some (.slot y)

theorem Arena.wp_prepare {Q : Bool → Kernel → Prop} {E : Fatal → Kernel → Prop}
    (h : Arena k (.slot x) (y :: ready)) (hout : SwitchOutgoingIsValid duelConfig k (.slot x))
    (hne : y ≠ x) (hfree : k.Settled)
    (hQ : ∀ plan counters, plan.Heads x y →
      Q true { k with switchPlan := plan, counters := counters }) :
    wp (schedulerPrepareSwitch duelConfig (some (.slot y))) Q E k := by
  have hrun := h.runnable List.mem_cons_self
  have hready := h.waiting y List.mem_cons_self (by simpa using hne.symm)
  have hoff : duelConfig.enableAssertions = false := rfl
  simp only [schedulerPrepareSwitch, prepareSwitchTo, wp_bind, wp_get, wp_rtsAssert, wp_ite,
    wp_modify, wp_pure, h.lifecycle, h.current, hout, hrun, hfree.1, hfree.2, hready, hoff, hne,
    TaskId.slot.injEq, ne_eq, not_true, or_self, if_false, if_true, Bool.false_eq_true, false_and,
    false_imp_iff, true_imp_iff, implies_true, and_true]
  exact hQ _ _ ⟨rfl, by simp, rfl, rfl⟩

/-! ### Yields -/

/-- The last release number, and that of every task. -/
def Kernel.numbers (k : Kernel) : Tick × (TaskId → Tick) :=
  (k.policyReleaseSequence, fun t => (k.tasks t).releaseSequence)

/-- The numbers after a release of the task. -/
def nextNumbers (numbers : Tick × (TaskId → Tick)) (t : TaskId) : Tick × (TaskId → Tick) :=
  (nextReleaseSequence numbers.1, Function.update numbers.2 t (nextReleaseSequence numbers.1))

theorem Kernel.numbers_renumbered (k : Kernel) (t : TaskId) :
    (k.renumbered t).numbers = nextNumbers k.numbers t := by
  refine Prod.ext rfl (funext fun u => ?_)
  rcases eq_or_ne u t with rfl | hu
  · simp [Kernel.numbers, nextNumbers]
  · simp [Kernel.numbers, nextNumbers, hu]

theorem Kernel.numbers_sliced (k : Kernel) (t : TaskId) (slice : Tick)
    (f : RuntimeCounters → RuntimeCounters) :
    ((k.updateTask t fun task => { task with sliceRemaining := slice }).count f).numbers =
      k.numbers := by
  refine Prod.ext rfl (funext fun u => ?_)
  rcases eq_or_ne u t with rfl | hu
  · simp [Kernel.numbers]
  · simp [Kernel.numbers, hu]

/-- A task with a new number is before a task with its deadline if its number is. -/
theorem Arena.edfIsBefore_peer (h : Arena k t ready) (hx : x ∈ ready) (hy : y ∈ ready) (hne : y ≠ x)
    (hxy : x < 2 ↔ y < 2) : EdfIsBefore (k.renumbered (.slot x)) (.slot x) (.slot y) ↔
      nextReleaseSequence k.numbers.1 ≠ k.numbers.2 (.slot y) ∧
      tickBefore (nextReleaseSequence k.numbers.1) (k.numbers.2 (.slot y)) := by
  simp [EdfIsBefore, h.idle, h.deadline hx, h.deadline hy, hne, hxy, Kernel.numbers]

theorem Arena.edfIsBefore_late (h : Arena k t ready) (hx : x ∈ ready) (hy : y ∈ ready)
    (hx2 : ¬ x < 2) (hy2 : y < 2) : EdfIsBefore (k.renumbered (.slot x)) (.slot x) (.slot y) := by
  have hne : y ≠ x := by omega
  have hbefore : tickBefore 5#32 10#32 := by decide
  simp [EdfIsBefore, h.idle, h.deadline hx, h.deadline hy, hne, hx2, hy2, hbefore]

/-- The head of the arena yields to a task with its deadline, and is put at a place of the list. -/
theorem Arena.wp_policyEdfYield {E : Fatal → Kernel → Prop} {ready' : List Nat}
    (h : Arena k (.slot x) (x :: y :: ready)) (hxy : x < 2 ↔ y < 2)
    (hinsert : ((y :: ready).map TaskId.slot ++ [TaskId.idle]).orderedInsert
      (EdfIsBefore (k.renumbered (.slot x))) (.slot x) = ready'.map .slot ++ [.idle])
    (hperm : ready'.Perm (x :: y :: ready)) :
    wp (policyEdfYield (.slot x)) (fun moved k' => moved = true ∧ Arena k' (.slot x) ready' ∧
      k'.switchPlan = k.switchPlan ∧ k'.numbers = nextNumbers k.numbers (.slot x)) E k := by
  have hdeadline : (k.tasks (.slot y)).absoluteDeadline = (k.tasks (.slot x)).absoluteDeadline := by
    rw [h.deadline (by simp), h.deadline (by simp)]
    simp only [hxy]
  have hout : TaskId.slot x ∉ TaskId.slot y :: (ready.map .slot ++ [.idle]) := by
    simpa using (List.nodup_cons.1 h.nodup).1
  refine wp_policyEdfYield_peer h.list hout hdeadline (by simp [h.idle])
    ⟨rfl, ?_, rfl, k.numbers_renumbered (.slot x)⟩
  refine h.congr rfl rfl rfl rfl rfl hinsert hperm fun u => ?_
  rcases eq_or_ne u (.slot x) with rfl | hu
  · simp [Tcb.SameButRelease]
  · simp [hu, Tcb.SameButRelease]

/-- The head of the arena yields to a task with its deadline. If it is put at the head again the
call fails; otherwise a switch to the new head is planned. -/
theorem Arena.wp_taskYield {z : Nat} {ready' : List Nat} (h : Arena k (.slot x) (x :: y :: ready))
    (hxy : x < 2 ↔ y < 2) (hfree : k.Settled)
    (hinsert : ∀ k₁, Arena k₁ (.slot x) (x :: y :: ready) → k₁.numbers = k.numbers →
      ((y :: ready).map TaskId.slot ++ [TaskId.idle]).orderedInsert
        (EdfIsBefore (k₁.renumbered (.slot x))) (.slot x) = (z :: ready').map .slot ++ [.idle])
    (hperm : (z :: ready').Perm (x :: y :: ready)) :
    wp (taskYield duelConfig false) (fun status k' => k'.numbers = nextNumbers k.numbers (.slot x) ∧
      (z = x → status = .invalidState) ∧
      (z ≠ x → Arena k' (.slot x) (z :: ready') ∧ k'.switchPlan.Heads x z))
      (fun _ _ => False) k := by
  have hcoherent := h.coherent hfree.2
  unfold taskYield
  rw [wp_ite, if_neg (by decide), wp_bind, wp_get, wp_ite, if_neg (by simp [h.lifecycle])]
  simp only [h.current]
  rw [wp_bind, wp_rtsAssert_of hcoherent, wp_ite, if_neg (not_not.2 hcoherent)]
  unfold taskYieldAs
  rw [wp_bind, wp_modify, wp_bind]
  set k₁ := Kernel.count _ _ with hk₁
  have h₁ : Arena k₁ (.slot x) (x :: y :: ready) := h.congr_slice _ _ _
  have hnumbers : k₁.numbers = k.numbers := k.numbers_sliced _ _ _
  refine wp_mono (h₁.wp_policyEdfYield hxy (hinsert k₁ h₁ hnumbers) hperm) ?_ fun _ _ => id
  rintro _ k₂ ⟨rfl, h₂, hplan, hnumbers₂⟩
  rw [hnumbers] at hnumbers₂
  rw [wp_ite, if_neg (by decide), wp_bind]
  refine h₂.wp_select ?_
  rw [wp_bind, wp_get]
  have hoff : duelConfig.enableAssertions = false := rfl
  simp only [wp_bind, wp_rtsAssert, hoff, Bool.false_eq_true, false_imp_iff, true_imp_iff,
    false_and, and_true]
  rw [wp_ite]
  by_cases hzx : z = x
  · rw [if_pos (.inl (by rw [hzx]))]
    exact ⟨hnumbers₂, fun _ => rfl, fun hne => absurd hzx hne⟩
  · have hready := h₂.waiting z (by simp) (by simpa using Ne.symm hzx)
    rw [if_neg (by simp [hzx, hready]), wp_bind]
    refine h₂.wp_prepare (h₂.outgoing (hperm.mem_iff.2 (by simp))) hzx ?_
      fun plan counters hheads => ?_
    · rw [Kernel.Settled, hplan]
      exact hfree
    · exact ⟨hnumbers₂, fun heq => absurd heq hzx, fun _ => ⟨h₂.congr_plan rfl, hheads⟩⟩

/-! ### Delays -/

/-- A wait that ends with all others of the queue is put at its end. -/
theorem delayInsertInto_same {wakeTick : TaskId → Tick} {l : List TaskId}
    (h : ∀ u ∈ l, wakeTick u = wakeTick t) : delayInsertInto wakeTick t l = some (l ++ [t]) := by
  induction l with
  | nil => rfl
  | cons u l ih =>
    have hu := h u List.mem_cons_self
    have hhalf : wakeTick t - wakeTick u ≠ tickHalfRange := by
      rw [hu, BitVec.sub_self]
      decide
    have hbefore : ¬ tickBefore (wakeTick t) (wakeTick u) := by
      rw [hu, tickBefore_iff, distance_self]
      decide
    rw [delayInsertInto, if_neg hhalf, if_neg hbefore,
      ih fun v hv => h v (List.mem_cons_of_mem _ hv)]
    rfl

theorem wp_delayInsert_last {Q : Unit → Kernel → Prop} {E : Fatal → Kernel → Prop}
    (hout : t ∉ k.delayQueue)
    (hsame : ∀ u ∈ k.delayQueue, (k.tasks u).wait.wakeTick = (k.tasks t).wait.wakeTick)
    (hQ : Q () { k with delayQueue := k.delayQueue ++ [t] }) : wp (delayInsert cfg t) Q E k := by
  have hscan : delayInsertInto (fun u => (k.tasks u).wait.wakeTick) t k.delayQueue =
      some (k.delayQueue ++ [t]) := delayInsertInto_same hsame
  unfold delayInsert
  rw [wp_bind, wp_get, wp_ite, if_neg hout]
  simp only [hscan]
  exact hQ

/-- The current task without its place among the ready tasks, asleep until the next tick. -/
def Kernel.asleep (k : Kernel) (t : TaskId) : Kernel :=
  { k with
    edfReady := k.edfReady.erase t
    delayQueue := k.delayQueue ++ [t]
    tasks := Function.update k.tasks t
      ((k.tasks t).blockOn duelConfig (delayWait (k.currentTick + 1)))
    counters :=
      { k.counters with delayBlocks := diagnosticCounterIncrement k.counters.delayBlocks } }

theorem Kernel.asleep_other (hut : t ≠ c) : (k.asleep c).tasks t = k.tasks t := by
  simp [Kernel.asleep, hut]

theorem Kernel.asleep_self : (k.asleep c).tasks c =
    (k.tasks c).blockOn duelConfig (delayWait (k.currentTick + 1)) := by
  simp [Kernel.asleep]

theorem Kernel.numbers_asleep : (k.asleep c).numbers = k.numbers := by
  refine Prod.ext rfl (funext fun u => ?_)
  rcases eq_or_ne u c with rfl | hu
  · simp only [Kernel.numbers, Kernel.asleep_self, Tcb.blockOn]
  · simp only [Kernel.numbers, Kernel.asleep_other hu]

theorem Arena.sleep (h : Arena k (.slot x) (x :: ready)) :
    Arena (k.asleep (.slot x)) (.slot x) ready := by
  obtain ⟨hout, hnodup⟩ := List.nodup_cons.1 h.nodup
  have hne : ∀ i ∈ ready, TaskId.slot i ≠ .slot x := by
    intro i hi heq
    obtain rfl := TaskId.slot.inj heq
    exact hout hi
  have htask : ∀ i ∈ ready, (k.asleep (.slot x)).tasks (.slot i) = k.tasks (.slot i) :=
    fun i hi => Kernel.asleep_other (hne i hi)
  have hmem : ∀ i ∈ ready, i ∈ x :: ready := fun i => List.mem_cons_of_mem x
  refine ⟨h.lifecycle, h.current, h.idle, ?_, fun i hi => h.slots i (hmem i hi), hnodup,
    fun i hi => ?_, fun i hi => ?_, fun u hu => ?_, fun i hi heq => absurd heq.symm (hne i hi),
    fun i hi _ => ?_⟩
  · simp [Kernel.asleep, h.list]
  · rw [htask i hi]
    exact h.tasks i (hmem i hi)
  · have hwake := h.awake i (hmem i hi)
    simpa [Kernel.asleep, hwake] using hne i hi
  · rcases List.mem_append.1 hu with hu | hu
    · have hux : u ≠ .slot x := fun heq => h.awake x (by simp) (heq ▸ hu)
      rw [Kernel.asleep_other hux]
      exact h.asleep u hu
    · rw [List.mem_singleton.1 hu, Kernel.asleep_self]
      rfl
  · rw [htask i hi]
    exact h.waiting i (hmem i hi) (hne i hi).symm

theorem Arena.blockedDelay (h : Arena k (.slot x) (x :: ready)) :
    TaskIsBlockedDelay duelConfig (k.asleep (.slot x)) (.slot x) := by
  obtain ⟨hctx, hwait, howner, hbase, hprio, -, halloc⟩ := h.tasks x (by simp)
  have hout : TaskId.slot x ∉ (k.asleep (.slot x)).edfReady := by
    rw [h.sleep.list]
    simpa using (List.nodup_cons.1 h.nodup).1
  have hidle : (k.asleep (.slot x)).idleTask = some .idle := h.idle
  have hprio' : (k.tasks (.slot x)).priority < 4 := by omega
  refine ⟨by simp [hidle], h.slots x (by simp), ?_, ?_, ?_, ?_, ?_, ?_, ?_, ?_, ?_, ?_, ?_, ?_⟩
  case refine_10 => simp [PolicyValidate, PolicyContains, duelConfig, hout]
  case refine_11 => simp [Kernel.asleep]
  all_goals rw [Kernel.asleep_self]
  · exact halloc
  · rfl
  · rfl
  · rfl
  · rfl
  · exact howner
  · exact hctx
  · exact hprio ▸ Nat.one_pos
  · exact hprio'
  · simp [Tcb.MagicValid, duelConfig, crowdConfig, sampleConfig]

/-- The head of the arena goes to sleep and leaves the processor to the next task. -/
theorem Arena.wp_taskDelay (h : Arena k (.slot x) (x :: y :: ready)) (hfree : k.Settled) :
    wp (taskDelay duelConfig false 1) (fun _ k' => k'.numbers = k.numbers ∧
      Arena k' (.slot x) (y :: ready) ∧ k'.switchPlan.Heads x y ∧
      SwitchOutgoingIsValid duelConfig k' (.slot x)) (fun _ _ => False) k := by
  have hcan := h.canBlock (x := x) (by simp) hfree.2
  have hsleep := h.sleep
  have hblocked := h.blockedDelay
  have hne : y ≠ x := by
    rintro rfl
    simpa using h.nodup
  have hself : TaskId.slot x ∉ k.delayQueue := h.awake x (by simp)
  have hwake : ∀ u ∈ k.delayQueue, ((k.asleep (.slot x)).tasks u).wait.wakeTick =
      ((k.asleep (.slot x)).tasks (.slot x)).wait.wakeTick := by
    intro u hu
    have hux : u ≠ .slot x := fun heq => hself (heq ▸ hu)
    rw [Kernel.asleep_other hux, Kernel.asleep_self]
    exact h.asleep u hu
  unfold taskDelay
  rw [wp_ite, if_neg (by decide), wp_ite, if_neg (by decide), wp_ite, if_neg (by decide), wp_bind,
    wp_get, wp_ite, if_neg (by simp [h.lifecycle])]
  simp only [h.current]
  rw [wp_ite, if_neg (by simp [TaskIsTimerService]), wp_bind, wp_rtsAssert_of hcan, wp_ite,
    if_neg (not_not.2 hcan)]
  unfold taskDelayAs suspendCurrent policyTaskBlock policyRemove policyEdfRemove
  simp only [show duelConfig.policy = .edf from rfl]
  rw [wp_bind, wp_get, wp_bind, wp_bind, wp_bind, wp_get, wp_ite, if_pos (by simp [h.list]),
    wp_bind, wp_modify, wp_pure, wp_bind, wp_fatalUnless_of rfl, wp_modify, wp_bind, wp_get,
    wp_bind]
  refine (wp_fatalUnless_of ?_).2 ?_
  · exact hblocked.2.2.2.2.2.2.2.2.2.2.2.1
  rw [wp_bind, wp_modify, wp_bind]
  refine wp_delayInsert_last hself hwake ?_
  rw [wp_bind, wp_get, wp_bind]
  refine (wp_fatalUnless_of ?_).2 ?_
  · exact hblocked
  unfold planAfterBlock
  rw [wp_bind, wp_bind]
  refine hsleep.wp_select ?_
  rw [wp_bind, wp_fatalUnless_of (by simpa using hne)]
  have hout : SwitchOutgoingIsValid duelConfig (k.asleep (.slot x)) (.slot x) :=
    ⟨h.current, .inr ⟨hblocked.2.2.2.1, .inl hblocked⟩⟩
  refine hsleep.wp_prepare hout hne hfree fun plan counters hheads => ?_
  rw [wp_bind, wp_get, wp_bind, wp_fatalUnless_of (.inl hheads.pending), wp_bind]
  have hnumbers : (k.asleep (.slot x)).numbers = k.numbers := Kernel.numbers_asleep
  exact ⟨hnumbers, hsleep.congr_plan rfl, hheads, hout⟩

/-! ### Switches -/

theorem Arena.switched (h : Arena k (.slot x) (y :: ready))
    (hsw : Switched duelConfig k k' (.slot x) (.slot y))
    (hdeadline : ∀ u, (k'.tasks u).absoluteDeadline = (k.tasks u).absoluteDeadline) :
    Arena k' (.slot y) (y :: ready) where
  lifecycle := (Kernel.of_rest Kernel.lifecycle hsw.rest).trans h.lifecycle
  current := hsw.currentTask
  idle := (Kernel.of_rest Kernel.idleTask hsw.rest).trans h.idle
  list := hsw.edfReady.trans h.list
  slots := h.slots
  nodup := h.nodup
  tasks i hi := by
    obtain ⟨hctx, hwait, howner, hbase, hprio, hdead, halloc⟩ := h.tasks i hi
    have hsame : k'.tasks (.slot i) = _ := hsw.task (.slot i)
    refine ⟨?_, ?_, ?_, ?_, ?_, (hdeadline _).trans hdead, ?_⟩ <;> rw [hsame] <;> assumption
  awake i hi := by
    rw [hsw.delayQueue]
    exact h.awake i hi
  asleep u hu := by
    have hsame : k'.tasks u = _ := hsw.task u
    have htick : k'.currentTick = k.currentTick := Kernel.of_rest Kernel.currentTick hsw.rest
    rw [hsw.delayQueue] at hu
    rw [hsame, htick]
    exact h.asleep u hu
  running i hi heq := by rw [← heq, hsw.state_eq, if_pos rfl]
  waiting i hi hne := by
    rw [hsw.state_eq, if_neg hne.symm]
    split <;> rename_i hsrc
    · rfl
    · refine h.waiting i hi fun heq => hsrc ⟨heq.symm, ?_⟩
      rw [heq]
      exact h.running i hi heq

/-- A completion that passes its checks switches, and leaves the numbers and deadlines alone. -/
theorem wp_switchComplete_valid {Q : Unit → Kernel → Prop} {E : Fatal → Kernel → Prop}
    {src dst : TaskId} {generation : Tick}
    (hvalid : CompletePlanIsValid cfg k ⟨src, dst, generation⟩)
    (hout : SwitchOutgoingIsValid cfg k src)
    (hQ : ∀ k', Switched cfg k k' src dst → k'.numbers = k.numbers →
      (∀ u, (k'.tasks u).absoluteDeadline = (k.tasks u).absoluteDeadline) →
      CurrentIsValid cfg k' ∧ Q () k') :
    wp (schedulerSwitchComplete cfg ⟨src, dst, generation⟩ true) Q E k := by
  obtain ⟨-, hactive, -, -, -, htarget, hne, hcurrent, hready, hrun⟩ := id hvalid
  have hstate := hout.2.imp And.left And.left
  have hfin : ∀ k', Switched cfg k k' src dst → k'.numbers = k.numbers →
      (∀ u, (k'.tasks u).absoluteDeadline = (k.tasks u).absoluteDeadline) →
      (CurrentIsValid cfg k' → Q () k') ∧
      (¬ CurrentIsValid cfg k' → E (.assertion .complete) k') := by
    intro k' hsw hnumbers hdeadline
    obtain ⟨hcur, hq⟩ := hQ k' hsw hnumbers hdeadline
    exact ⟨fun _ => hq, fun hn => absurd hcur hn⟩
  unfold schedulerSwitchComplete
  rw [wp_ite, if_neg (by decide), wp_bind, wp_get, wp_bind, wp_rtsAssert_of hvalid, wp_bind,
    wp_rtsAssert_of hout, wp_ite, if_neg (by simp [hvalid, hout])]
  simp only [wp_bind, wp_modify, wp_ite, wp_get, wp_fatalUnless]
  split <;> rename_i hst
  · refine hfin _ ⟨rfl, hcurrent, hactive, htarget, hne, by simp [hst], hready, hrun, rfl, rfl,
      rfl, rfl, rfl, rfl, rfl, rfl, ?_, ?_, fun u hu hd => ?_⟩ (Prod.ext rfl (funext fun u => ?_))
      fun u => ?_
    · simp [hne, hst, Tcb.SameButRelease, runtimeTaskStopped]
    · simp [Ne.symm hne, Tcb.SameButRelease, runtimeTaskStarted]
    · simp [hu, hd]
    all_goals
      simp only [Kernel.numbers, Kernel.count, Kernel.setPlan, Kernel.updateTask,
        Function.update_apply, runtimeTaskStarted, runtimeTaskStopped]
      grind
  · have hblocked := hstate.resolve_left hst
    refine ⟨fun _ => hfin _ ⟨rfl, hcurrent, hactive, htarget, hne, by simp [hblocked], hready, hrun,
      rfl, rfl, rfl, rfl, rfl, rfl, rfl, rfl, ?_, ?_, fun u hu hd => ?_⟩
      (Prod.ext rfl (funext fun u => ?_)) fun u => ?_, fun hn => absurd hblocked hn⟩
    · simp [hne, hst, Tcb.SameButRelease, runtimeTaskStopped]
    · simp [Ne.symm hne, Tcb.SameButRelease, runtimeTaskStarted]
    · simp [hu, hd]
    all_goals
      simp only [Kernel.numbers, Kernel.count, Kernel.setPlan, Kernel.updateTask,
        Function.update_apply, runtimeTaskStarted, runtimeTaskStopped]
      grind

/-- The switch that is planned can be carried out. -/
theorem Arena.switch (h : Arena k (.slot x) (y :: ready)) (hne : y ≠ x)
    (hplan : k.switchPlan.Heads x y) (hout : SwitchOutgoingIsValid duelConfig k (.slot x)) :
    ∃ k', Transition.ReachableFrom (Step duelConfig) (fun _ _ => True) k k' ∧
      Arena k' (.slot y) (y :: ready) ∧ k'.Settled ∧ k'.numbers = k.numbers := by
  have hrun := h.runnable (x := y) (by simp)
  have hready := h.waiting y (by simp) (by simpa using hne.symm)
  set k₁ := k.setPlan { k.switchPlan with pending := false, active := true } with hk₁
  have h₁ : Arena k₁ (.slot x) (y :: ready) := h.congr_plan rfl
  have hacquire : Step duelConfig k .acquire k₁ := by
    have hspec : wp (runEvent duelConfig .acquire) (fun _ k' => k' = k₁) (fun _ _ => False) k := by
      simp [runEvent, schedulerSwitchAcquire, h.lifecycle, hplan.inactive, hplan.pending,
        hplan.source, hplan.target, h.current, hne.symm, hout, hready, hrun, hk₁]
    obtain ⟨_, _, hret, rfl⟩ := exists_ret_of_wp hspec
    exact ⟨h.lifecycle, hret⟩
  have hvalid : CompletePlanIsValid duelConfig k₁ ⟨.slot x, .slot y, k.switchPlan.generation⟩ :=
    ⟨h.lifecycle, rfl, rfl, rfl, hplan.source, hplan.target, by simpa using hne.symm, h.current,
      hready, hrun⟩
  have hcomplete :
      wp (runEvent duelConfig (.complete ⟨.slot x, .slot y, k.switchPlan.generation⟩ true))
      (fun _ k' => Arena k' (.slot y) (y :: ready) ∧ k'.Settled ∧ k'.numbers = k₁.numbers)
      (fun _ _ => False) k₁ := by
    refine wp_switchComplete_valid hvalid hout fun k' hsw hnumbers hdeadline => ?_
    have harena := h₁.switched hsw hdeadline
    refine ⟨harena.valid (by simp), harena, ?_, hnumbers⟩
    rw [Kernel.Settled, hsw.switchPlan]
    exact ⟨rfl, rfl⟩
  obtain ⟨_, k', hret, hk'⟩ := exists_ret_of_wp hcomplete
  have hstep : Step duelConfig k₁ (.complete ⟨.slot x, .slot y, k.switchPlan.generation⟩ true) k' :=
    ⟨h₁.lifecycle, hret⟩
  exact ⟨k', ((Transition.ReachableFrom.refl k).tail trivial hacquire).tail trivial hstep, hk'⟩

/-! ### The run -/

/-- Slots 2 and 3 yield to each other; `n` releases have been made, the last of them that of the
task that waits for its turn, and the third that of slot 1. -/
structure Duel (k : Kernel) (x y n : Nat) : Prop where
  pair : x = 2 ∧ y = 3 ∨ x = 3 ∧ y = 2
  arena : Arena k (.slot x) [x, y, 0, 1]
  settled : k.Settled
  last : k.numbers.1 = releaseNumber n
  waits : k.numbers.2 (.slot y) = releaseNumber n
  stale : k.numbers.2 (.slot 1) = 3

theorem Arena.enabled {ev : Event} (h : Arena k (.slot x) ready) (hx : x ∈ ready)
    (hev : ev = .yield false ∨ ev = .delay false 1) : ev.Enabled k := by
  have hcall : ThreadMayCall k := .inr ⟨.slot x, h.current, h.running x hx rfl, by simp⟩
  rcases hev with rfl | rfl <;> exact .inr hcall

theorem exists_step_of_wp {op : KernelM α} {Q : α → Kernel → Prop} (hen : ev.Enabled k)
    (hop : runEvent cfg ev = do let _ ← op) (h : wp op Q (fun _ _ => False) k) :
    ∃ k' a, Step cfg k ev k' ∧ Q a k' := by
  obtain ⟨a, k', hret, hq⟩ := exists_ret_of_wp h
  refine ⟨k', a, ⟨hen, ?_⟩, hq⟩
  rw [hop, bind_apply_of_ret hret]
  rfl

/-- One turn of the duel. -/
theorem Duel.yield {n : Nat} (h : Duel k x y n) (hn : n ≠ 0) :
    ∃ k', Transition.ReachableFrom (Step duelConfig) (fun _ _ => True) k k' ∧
      Duel k' y x (n + 1) := by
  have hbounds : 2 ≤ x ∧ 2 ≤ y ∧ y ≠ x := by
    have := h.pair
    omega
  -- the new number is not before the last one, and both tasks stay before those with later
  -- deadlines
  have hinsert : ∀ k₁, Arena k₁ (.slot x) [x, y, 0, 1] → k₁.numbers = k.numbers →
      ([y, 0, 1].map TaskId.slot ++ [TaskId.idle]).orderedInsert
      (EdfIsBefore (k₁.renumbered (.slot x)))
        (.slot x) = [y, x, 0, 1].map .slot ++ [.idle] := by
    intro k₁ h₁ hnumbers
    have hlater := (releaseNumber_later hn (Nat.lt_succ_self n) (by omega)).2
    have hafter : ¬ EdfIsBefore (k₁.renumbered (.slot x)) (.slot x) (.slot y) := by
      rw [h₁.edfIsBefore_peer (by simp) (by simp) hbounds.2.2 (by omega), hnumbers, h.last, h.waits]
      exact fun hbefore => hlater hbefore.2
    have hbefore := h₁.edfIsBefore_late (x := x) (y := 0) (by simp) (by simp) (by omega) (by omega)
    simp [hafter, hbefore]
  obtain ⟨k₁, _, hstep, hnumbers, -, hplanned⟩ :=
    exists_step_of_wp (h.arena.enabled (by simp) (.inl rfl)) rfl
    (h.arena.wp_taskYield (by omega) h.settled hinsert (.swap _ _ _))
  obtain ⟨h₁, hheads⟩ := hplanned hbounds.2.2
  obtain ⟨k', hreach, harena, hsettled, hsame⟩ :=
    h₁.switch hbounds.2.2 hheads (h₁.outgoing (by simp))
  rw [hnumbers] at hsame
  have hnext : nextReleaseSequence k.numbers.1 = releaseNumber (n + 1) :=
    by rw [h.last, releaseNumber]
  refine ⟨k', ((Transition.ReachableFrom.refl k).tail trivial hstep).trans hreach,
    ⟨h.pair.symm.imp And.symm And.symm, harena, hsettled, ?_, ?_, ?_⟩⟩
  · rw [hsame]
    exact hnext
  · rw [hsame]
    exact (Function.update_self ..).trans hnext
  · have hne : TaskId.slot 1 ≠ .slot x := by
      simp only [ne_eq, TaskId.slot.injEq]
      omega
    rw [hsame]
    exact (Function.update_of_ne hne ..).trans h.stale

/-- Four tasks are created, of which the last two have the earlier deadline, and the kernel
starts. -/
def duelEvents : List Event :=
  .init false ⟨true, some 8, some 8⟩ ::
    [10, 10, 5, 5].map (fun deadline =>
      .taskCreate false (some ⟨1, 1, 2, true, 1, 0, deadline, 0⟩) true ⟨.ok, 8⟩) ++
    [.start false true true]

theorem Duel.start : ∃ k, Reachable duelConfig k ∧ Duel k 2 3 5 := by
  obtain ⟨k, hreach, harena, hsettled, hlast, hwaits, hstale⟩ := exists_reachable
    (P := fun k => Arena k (.slot 2) [2, 3, 0, 1] ∧ k.Settled ∧ k.policyReleaseSequence = 5 ∧
      (k.tasks (.slot 3)).releaseSequence = 5 ∧ (k.tasks (.slot 1)).releaseSequence = 3)
    (show (execute duelConfig (fun _ _ => True) duelEvents resetKernel).any _ = true by
      decide +kernel)
  exact ⟨k, hreach, .inl ⟨rfl, rfl⟩, harena, hsettled, hlast, hwaits, hstale⟩

/-- The duel may go on for any number of releases. -/
theorem Duel.run (n : Nat) : ∃ k x y, Reachable duelConfig k ∧ Duel k x y (n + 5) := by
  induction n with
  | zero =>
    obtain ⟨k, hreach, hduel⟩ := Duel.start
    exact ⟨k, 2, 3, hreach, hduel⟩
  | succ n ih =>
    obtain ⟨k, x, y, hreach, hduel⟩ := ih
    obtain ⟨k', hsteps, hduel'⟩ := hduel.yield (by omega)
    refine ⟨k', y, x, hreach.trans hsteps, ?_⟩
    rwa [Nat.add_right_comm]

/-- The head of the arena goes to sleep, and the next task runs. -/
theorem Arena.retire (h : Arena k (.slot x) (x :: y :: ready)) (hfree : k.Settled) :
    ∃ k', Transition.ReachableFrom (Step duelConfig) (fun _ _ => True) k k' ∧
      Arena k' (.slot y) (y :: ready) ∧ k'.Settled ∧ k'.numbers = k.numbers := by
  have hne : y ≠ x := by
    rintro rfl
    simpa using h.nodup
  obtain ⟨k₁, _, hstep, hnumbers, h₁, hheads, hout⟩ :=
    exists_step_of_wp (h.enabled (by simp) (.inr rfl)) rfl (h.wp_taskDelay hfree)
  obtain ⟨k', hreach, harena, hsettled, hsame⟩ := h₁.switch hne hheads hout
  exact ⟨k', ((Transition.ReachableFrom.refl k).tail trivial hstep).trans hreach, harena, hsettled,
    hsame.trans hnumbers⟩

/-- A yield that fails after the fact: the caller has a new time slice and a new release number. -/
theorem yield_fails_after_the_fact :
    ∃ k k', Reachable duelConfig k ∧ (Event.yield false).Enabled k ∧
      taskYield duelConfig false k = .ret .invalidState k' ∧ k'.uncounted ≠ k.uncounted ∧
      k'.policyReleaseSequence ≠ k.policyReleaseSequence := by
  obtain ⟨k, x, y, hreach, hduel⟩ := Duel.run (2 ^ 31)
  obtain ⟨k₁, hsteps₁, h₁, hsettled₁, hnumbers₁⟩ := hduel.arena.retire hduel.settled
  obtain ⟨k₂, hsteps₂, h₂, hsettled₂, hnumbers₂⟩ := h₁.retire hsettled₁
  have hnumbers : k₂.numbers = k.numbers := hnumbers₂.trans hnumbers₁
  have hlast : k₂.numbers.1 = 0x80000005#32 := by
    rw [hnumbers, hduel.last]
    refine BitVec.eq_of_toNat_eq ?_
    rw [toNat_releaseNumber]
    rfl
  have hstale : k₂.numbers.2 (.slot 1) = 3 := by rw [hnumbers, hduel.stale]
  have hinsert : ∀ k₃, Arena k₃ (.slot 0) [0, 1] → k₃.numbers = k₂.numbers →
      ([1].map TaskId.slot ++ [TaskId.idle]).orderedInsert (EdfIsBefore (k₃.renumbered (.slot 0)))
        (.slot 0) = [0, 1].map .slot ++ [.idle] := by
    intro k₃ h₃ hsame
    have hbefore : EdfIsBefore (k₃.renumbered (.slot 0)) (.slot 0) (.slot 1) := by
      rw [h₃.edfIsBefore_peer (by simp) (by simp) (by decide) (by simp), hsame, hlast, hstale]
      decide
    simp [hbefore]
  obtain ⟨status, k', hret, hnext, hstatus, -⟩ :=
    exists_ret_of_wp (h₂.wp_taskYield (by simp) hsettled₂ hinsert (.refl _))
  rw [hstatus rfl] at hret
  have hseq : k'.policyReleaseSequence ≠ k₂.policyReleaseSequence := by
    have hnew : k'.policyReleaseSequence = nextReleaseSequence k₂.numbers.1 :=
      congrArg Prod.fst hnext
    have hold : k₂.policyReleaseSequence = k₂.numbers.1 := rfl
    rw [hnew, hold, hlast]
    decide
  refine ⟨k₂, k', (hreach.trans hsteps₁).trans hsteps₂, h₂.enabled (by simp) (.inl rfl), hret,
    ?_, hseq⟩
  exact fun heq => hseq (congrArg Kernel.policyReleaseSequence heq :)

end Duel

end RtsKernel
