import RtsKernel.Operation.Frame

/-!
# The books of processor time

Only the startup code, the advance of the clock and the completion of a switch write the ledger.

## Main results

* `runEvent_ledger`: what an event that is neither startup nor the completion of a switch makes of
  it.
* `schedulerSwitchComplete_ledger`: what the completion of a switch writes.
-/

namespace RtsKernel

open Halting Prog

variable {cfg : Config} {k k' : Kernel}

/-- The events that build the system. -/
def Event.Startup : Event → Prop
  | .init _ _ | .taskCreate _ _ _ _ | .start _ _ _ => True
  | _ => False

/-- An event that is neither startup nor the completion of a switch only moves the clock. -/
theorem runEvent_ledger {ev : Event} (h : runEvent cfg ev k = .ret () k') (hstart : ¬ ev.Startup)
    (hswitch : ∀ snapshot intact, ev ≠ .complete snapshot intact) :
    k'.ledger = k.ledger.advance (ev.elapsed cfg k) := by
  by_cases htime : ev.EntersTime
  · have hmoved : OnLedger (· = k.ledger.advance (ev.elapsed cfg k))
        (k.outline.advance (ev.elapsed cfg k)) := rfl
    exact runEvent_advance htime h hmoved (turns_onLedger _)
  · have hpopulates : ¬ ev.Populates := by
      cases ev with
      | init | taskCreate => exact absurd trivial hstart
      | _ => exact id
    have hdispatch : ¬ ev.Dispatches := by
      cases ev with
      | start => exact absurd trivial hstart
      | complete snapshot intact => exact absurd rfl (hswitch snapshot intact)
      | _ => exact id
    have hbefore : OnLedger (· = k.ledger) k.outline := rfl
    have hsame : OnLedger (· = k.ledger) k'.outline :=
      runEvent_call hpopulates htime hdispatch h hbefore hbefore (turns_onLedger _)
        (turns_onLedger _)
    rw [Event.elapsed_of_not_entersTime htime]
    exact hsame.trans (Ledger.advance_zero _).symm

/-! ## The completion of a switch -/

/-- The run of a task that stops is credited to it. -/
def Ledger.stop (L : Ledger) (t : TaskId) : Ledger :=
  { L with credited := Function.update L.credited t (L.credited t + (L.now - L.started t)) }

/-- The run of a task begins. -/
def Ledger.start (L : Ledger) (t : TaskId) : Ledger :=
  { L with current := some t, started := Function.update L.started t L.now }

section writes

variable {t : TaskId} {f : Tcb → Tcb}

theorem core_writeTask (hrecord : (f (k.tasks t)).record = (k.tasks t).record) :
    (k.updateTask t f).core = { k.core.setSlice t (f (k.tasks t)).sliceRemaining with
      ledger := (k.updateTask t f).ledger } := congrArg Outline.core (outline_writeTask k hrecord)

theorem core_updateTask (hrecord : (f (k.tasks t)).record = (k.tasks t).record)
    (haccount : (f (k.tasks t)).account = (k.tasks t).account) :
    (k.updateTask t f).core = k.core.setSlice t (f (k.tasks t)).sliceRemaining :=
  congrArg Outline.core (outline_updateTask k hrecord haccount)

theorem core_updateTask_same (hrecord : (f (k.tasks t)).record = (k.tasks t).record)
    (haccount : (f (k.tasks t)).account = (k.tasks t).account)
    (hslice : (f (k.tasks t)).sliceRemaining = (k.tasks t).sliceRemaining) :
    (k.updateTask t f).core = k.core := by
  rw [core_updateTask hrecord haccount, hslice, Core.setSlice_self]

end writes

theorem ledger_stopped (k : Kernel) (t : TaskId) :
    (k.updateTask t (runtimeTaskStopped k.currentTick)).ledger = k.ledger.stop t := by
  simp only [Kernel.ledger, Ledger.stop, Kernel.updateTask, Ledger.mk.injEq, true_and]
  constructor <;> funext u <;> rcases eq_or_ne u t with rfl | hu <;> simp [runtimeTaskStopped, *]

theorem ledger_started (k : Kernel) (t : TaskId) (h : k.currentTask = some t) :
    (k.updateTask t (runtimeTaskStarted k.currentTick)).ledger = k.ledger.start t := by
  simp only [Kernel.ledger, Ledger.start, Kernel.updateTask, Ledger.mk.injEq, true_and, h]
  constructor <;> funext u <;> rcases eq_or_ne u t with rfl | hu <;> simp [runtimeTaskStarted, *]

theorem core_stopped (k : Kernel) (t : TaskId) :
    (k.updateTask t (runtimeTaskStopped k.currentTick)).core =
      { k.core with ledger := k.ledger.stop t } := by
  rw [core_writeTask rfl, ledger_stopped]
  exact congrArg ({ · with ledger := k.ledger.stop t }) (Core.setSlice_self k)

theorem core_started (k : Kernel) (t : TaskId) (h : k.currentTask = some t) :
    (k.updateTask t (runtimeTaskStarted k.currentTick)).core =
      { k.core with ledger := k.ledger.start t } := by
  rw [core_writeTask rfl, ledger_started k t h]
  exact congrArg ({ · with ledger := k.ledger.start t }) (Core.setSlice_self k)

/-- The processor goes from one task to another, which starts a new time slice. -/
def Core.switch (cfg : Config) (src dst : TaskId) (C : Core) : Core :=
  { C with
    ledger := (C.ledger.stop src).start dst
    slice := Function.update C.slice dst cfg.timeSliceTicks }

/-- The incoming task takes over. -/
theorem wp_switchIn {dst : TaskId} {k : Kernel} {L : Ledger} {C : Core}
    (hk : k.core = { C with ledger := L }) :
    wp (do
      modify fun k =>
        ({ k with currentTask := some dst }).updateTask dst fun task =>
          { task with sliceRemaining := cfg.timeSliceTicks, state := .running }
      modify fun k => k.updateTask dst (runtimeTaskStarted k.currentTick)
      modify fun k => (k.setPlan (switchPlanClear k.switchPlan)).count fun c =>
        { c with contextSwitches := diagnosticCounterIncrement c.contextSwitches }
      let k ← get
      fatalUnless .complete (CurrentIsValid cfg k))
      (fun _ k' => k'.core = { C with
        ledger := L.start dst, slice := Function.update C.slice dst cfg.timeSliceTicks })
      (fun _ _ => True) k := by
  rw [wp_bind, wp_modify]
  set k₁ := Kernel.updateTask _ _ _
  have hk₁ : k₁.core = { C with
      ledger := { L with current := some dst }
      slice := Function.update C.slice dst cfg.timeSliceTicks } := by
    have hset : k₁.core = ({ k with currentTask := some dst } : Kernel).core.setSlice dst
        cfg.timeSliceTicks := core_updateTask rfl rfl
    have hcur : ({ k with currentTask := some dst } : Kernel).core =
        { k.core with ledger := { k.ledger with current := some dst } } := rfl
    rw [hset, hcur, hk]
    have hl : k.ledger = L := congrArg Core.ledger hk
    simp only [Core.setSlice, hl]
  rw [wp_bind, wp_modify, wp_bind, wp_modify, wp_bind, wp_get, wp_fatalUnless]
  refine ⟨fun _ => ?_, fun _ => trivial⟩
  change (k₁.updateTask dst (runtimeTaskStarted k₁.currentTick)).core = _
  rw [core_started k₁ dst rfl, hk₁]
  have hl₁ : k₁.ledger = { L with current := some dst } := congrArg Core.ledger hk₁
  rw [hl₁]
  rfl

theorem schedulerSwitchComplete_core {snapshot : SwitchSnapshot} {intact : Bool} {k k' : Kernel}
    (h : schedulerSwitchComplete cfg snapshot intact k = .ret () k') :
    k'.core = if CompletePlanIsValid cfg k snapshot ∧ SwitchOutgoingIsValid cfg k snapshot.fromTask
      then k.core.switch cfg snapshot.fromTask snapshot.toTask else k.core := by
  suffices hspec : wp (schedulerSwitchComplete cfg snapshot intact) (fun _ k' => k'.core =
      if CompletePlanIsValid cfg k snapshot ∧ SwitchOutgoingIsValid cfg k snapshot.fromTask
      then k.core.switch cfg snapshot.fromTask snapshot.toTask else k.core)
      (fun _ _ => True) k from (wp_ret hspec h :)
  unfold schedulerSwitchComplete
  rw [wp_ite]
  split
  · trivial
  · rw [wp_bind, wp_get, wp_bind, wp_rtsAssert]
    refine ⟨fun _ => ?_, fun _ => trivial⟩
    rw [wp_bind, wp_rtsAssert]
    refine ⟨fun _ => ?_, fun _ => trivial⟩
    rw [wp_ite]
    split <;> rename_i hvalid
    · have hnot : ¬ (CompletePlanIsValid cfg k snapshot ∧
          SwitchOutgoingIsValid cfg k snapshot.fromTask) := not_and_or.mpr hvalid
      rw [wp_pure, if_neg hnot]
    · have hboth : CompletePlanIsValid cfg k snapshot ∧
          SwitchOutgoingIsValid cfg k snapshot.fromTask := by
        by_contra hnot
        exact hvalid (not_and_or.mp hnot)
      simp only [if_pos hboth]
      rw [wp_bind, wp_modify, wp_ite]
      have hstop := core_stopped k snapshot.fromTask
      split
      · rw [wp_bind, wp_modify]
        exact wp_switchIn ((core_updateTask_same rfl rfl rfl).trans hstop)
      · rw [wp_bind, wp_fatalUnless]
        exact ⟨fun _ => wp_switchIn hstop, fun _ => trivial⟩

theorem schedulerSwitchComplete_ledger {snapshot : SwitchSnapshot} {intact : Bool} {k k' : Kernel}
    (h : schedulerSwitchComplete cfg snapshot intact k = .ret () k') :
    k'.ledger = if CompletePlanIsValid cfg k snapshot ∧
      SwitchOutgoingIsValid cfg k snapshot.fromTask
      then (k.ledger.stop snapshot.fromTask).start snapshot.toTask else k.ledger := by
  have hcore := congrArg Core.ledger (schedulerSwitchComplete_core h)
  split at hcore <;> rename_i hvalid
  · rw [if_pos hvalid]
    exact hcore
  · rw [if_neg hvalid]
    exact hcore

/-! ## Startup -/

/-- Nothing has been counted or credited. -/
structure Ledger.Blank (L : Ledger) : Prop where
  now : L.now = 0
  elapsed : L.elapsed = 0
  credited : ∀ t, L.credited t = 0

/-- An assignment that credits nothing. -/
theorem leads_blank {f : Kernel → Kernel} (hnow : ∀ k, (f k).currentTick = k.currentTick)
    (helapsed : ∀ k, (f k).counters.schedulerTicks = k.counters.schedulerTicks)
    (hcredited : ∀ k t,
      ((f k).tasks t).diagnosticRunningTicks = (k.tasks t).diagnosticRunningTicks ∨
      ((f k).tasks t).diagnosticRunningTicks = 0) :
    Leads Kernel.outline (OnLedger Ledger.Blank) (OnLedger Ledger.Blank)
      (modify f : KernelM Unit) := by
  refine leads_modify fun k hk =>
    ⟨(hnow k).trans hk.now, (helapsed k).trans hk.elapsed, fun t => ?_⟩
  obtain h | h := hcredited k t
  · exact h.trans (hk.credited t)
  · exact h

theorem leads_blank_kernelRestoreReset :
    Leads Kernel.outline (OnLedger Ledger.Blank) (OnLedger Ledger.Blank)
      (modify kernelRestoreReset : KernelM Unit) :=
  leads_modify fun _ _ => ⟨rfl, rfl, fun _ => rfl⟩

theorem leads_blank_init {isr : Bool} {port : InitAnswers} :
    Leads Kernel.outline (OnLedger Ledger.Blank) (OnLedger Ledger.Blank) (init cfg isr port) := by
  unfold init initPrivateTasks initIdle initFail
  repeat' first | with_reducible apply leads_bind_same | intro _ | split
  all_goals try simp
  all_goals try exact leads_blank_kernelRestoreReset
  all_goals refine leads_blank (fun _ => rfl) (fun _ => rfl) fun k u => ?_
  all_goals try exact .inl rfl
  all_goals simp only [Kernel.setTask, Kernel.updateTask, Function.update_apply, timerServiceObject,
    idleObject, taskPoolInitialize]
  all_goals grind

theorem leads_blank_taskCreateRollback {i : Nat} :
    Leads Kernel.outline (OnLedger Ledger.Blank) (OnLedger Ledger.Blank)
      (taskCreateRollback cfg i) := by
  unfold taskCreateRollback taskObjectReset taskPoolRollback
  repeat' first | with_reducible apply leads_bind_same | intro _ | split
  all_goals try simp
  all_goals refine leads_blank (fun _ => rfl) (fun _ => rfl) fun k u => ?_
  all_goals simp only [Kernel.setTask, Kernel.updateTask, Function.update_apply]
  all_goals grind

theorem leads_blank_taskCreate {isr outHandle : Bool} {config : Option TaskConfig}
    {stack : StackAnswer} :
    Leads Kernel.outline (OnLedger Ledger.Blank) (OnLedger Ledger.Blank)
      (taskCreate cfg isr config outHandle stack) := by
  unfold taskCreate taskPoolReserve taskObjectInitialize taskCreateCommit taskPoolCommit
  repeat' first | with_reducible apply leads_bind_same | intro _ | split
  all_goals try simp
  all_goals try exact leads_blank_taskCreateRollback
  all_goals refine leads_blank (fun _ => rfl) (fun _ => rfl) fun k u => ?_
  all_goals simp only [Kernel.setTask, Kernel.updateTask, Function.update_apply, taskObject]
  all_goals grind

theorem leads_blank_start {isr tickOk firstTaskOk : Bool} :
    Leads Kernel.outline (OnLedger Ledger.Blank) (OnLedger Ledger.Blank)
      (start cfg isr tickOk firstTaskOk) := by
  unfold start schedulerCurrentEstablish startDispatch startRollback schedulerCurrentReleaseInitial
  repeat' first | with_reducible apply leads_bind_same | intro _ | split
  all_goals try simp
  all_goals refine leads_blank (fun _ => rfl) (fun _ => rfl) fun k u => ?_
  all_goals simp only [Kernel.updateTask, Function.update_apply, runtimeTaskStarted]
  all_goals grind

/-- The first task runs, from now on. -/
structure Kernel.Begun (cfg : Config) (k : Kernel) (c : TaskId) : Prop where
  current : k.currentTask = some c
  runnable : TaskIsRunnable cfg k c
  started : (k.tasks c).diagnosticLastStartTick = k.currentTick

theorem leads_unstarted_init {isr : Bool} {port : InitAnswers} :
    Leads Kernel.outline (OnLedger (·.lifecycle ≠ .running)) (OnLedger (·.lifecycle ≠ .running))
      (init cfg isr port) := by
  unfold init initPrivateTasks initIdle initFail
  repeat' first | with_reducible apply leads_bind_same | intro _ | split
  all_goals try simp
  all_goals exact leads_modify fun k hk => by first | exact hk | (intro hl; cases hl)

theorem leads_unstarted_taskCreateRollback {i : Nat} :
    Leads Kernel.outline (OnLedger (·.lifecycle ≠ .running)) (OnLedger (·.lifecycle ≠ .running))
      (taskCreateRollback cfg i) := by
  unfold taskCreateRollback taskObjectReset taskPoolRollback
  repeat' first | with_reducible apply leads_bind_same | intro _ | split
  all_goals try simp
  all_goals exact leads_modify fun k hk => hk

theorem leads_unstarted_taskCreate {isr outHandle : Bool} {config : Option TaskConfig}
    {stack : StackAnswer} :
    Leads Kernel.outline (OnLedger (·.lifecycle ≠ .running)) (OnLedger (·.lifecycle ≠ .running))
      (taskCreate cfg isr config outHandle stack) := by
  unfold taskCreate taskPoolReserve taskObjectInitialize taskCreateCommit taskPoolCommit
  repeat' first | with_reducible apply leads_bind_same | intro _ | split
  all_goals try simp
  all_goals first
    | exact leads_unstarted_taskCreateRollback
    | exact leads_modify fun k hk => hk

/-- A startup call by the running system is refused. -/
theorem runEvent_startup_running {ev : Event} {k k' : Kernel} (hev : ev.Startup)
    (hl : k.lifecycle = .running) (h : runEvent cfg ev k = .ret () k') : k' = k := by
  cases ev with
  | init isr port =>
    obtain ⟨_, hret⟩ := exists_ret_of_discard h
    have hspec : wp (init cfg isr port) (fun _ k' => k' = k) (fun _ _ => True) k := by
      simp only [init, wp_bind, wp_get, wp_ite, hl]
      split <;> simp
    exact (wp_ret hspec hret :)
  | taskCreate isr config outHandle stack =>
    obtain ⟨_, hret⟩ := exists_ret_of_discard h
    have hspec : wp (taskCreate cfg isr config outHandle stack) (fun _ k' => k' = k)
        (fun _ _ => True) k := by
      simp only [taskCreate, wp_ite, wp_bind, wp_get, hl]
      split
      · simp
      split
      · simp
      · cases config <;> simp [taskConfigValidate]
    exact (wp_ret hspec hret :)
  | start isr tickOk firstTaskOk =>
    obtain ⟨_, hret⟩ := exists_ret_of_discard h
    have hspec :
        wp (start cfg isr tickOk firstTaskOk) (fun _ k' => k' = k) (fun _ _ => True) k := by
      simp only [start, wp_ite, wp_bind, wp_get, hl]
      split <;> simp
    exact (wp_ret hspec hret :)
  | _ => exact hev.elim

theorem startRollback_lifecycle {k : Kernel} :
    wp (startRollback cfg) (fun _ k' => k'.lifecycle ≠ .running) (fun _ _ => True) k := by
  have hrelease : Leads Kernel.outline (OnLedger (·.lifecycle = .initialized))
      (OnLedger (·.lifecycle = .initialized))
      (schedulerCurrentReleaseInitial cfg) := by
    unfold schedulerCurrentReleaseInitial
    repeat' first | with_reducible apply leads_bind_same | intro _ | split
    all_goals try simp
    all_goals exact leads_modify fun _ hk => hk
  unfold startRollback
  rw [wp_bind, wp_modify]
  refine wp_bind_of_leads hrelease rfl (fun released k' hk' => ?_) fun _ _ => trivial
  have hne : k'.lifecycle ≠ .running := ne_of_eq_of_ne hk' (by decide)
  simp [hne]

/-- What the first dispatch records, unless it is taken back. -/
theorem wp_startDispatch_begun {tickOk firstTaskOk : Bool} {k : Kernel} :
    wp (startDispatch cfg tickOk firstTaskOk)
      (fun _ k' => k'.lifecycle = .running → ∃ c, k'.Begun cfg c) (fun _ _ => True) k := by
  unfold startDispatch
  rw [wp_bind, wp_get]
  split
  · trivial
  · rename_i c hc
    rw [wp_bind, wp_modify, wp_bind, wp_modify, wp_bind, wp_get, wp_bind, wp_fatalUnless]
    set k₁ := Kernel.count _ _ with hk₁
    have hcur : k₁.currentTask = some c := hc
    refine ⟨fun hvalid => ?_, fun _ => trivial⟩
    rw [wp_ite]
    split
    · rw [wp_bind]
      exact wp_mono startRollback_lifecycle (fun _ _ hne hr => absurd hr hne) fun _ _ => id
    · intro _
      simp only [CurrentIsValid, hcur] at hvalid
      exact ⟨c, hcur, hvalid.2.2, by simp [hk₁, runtimeTaskStarted]⟩

theorem start_begun {isr tickOk firstTaskOk : Bool} {status : Status} {k k' : Kernel}
    (hl : k.lifecycle ≠ .running) (h : start cfg isr tickOk firstTaskOk k = .ret status k')
    (hr : k'.lifecycle = .running) : ∃ c, k'.Begun cfg c := by
  have hestablish (t : TaskId) :
      Leads Kernel.outline (OnLedger (·.lifecycle ≠ .running)) (OnLedger (·.lifecycle ≠ .running))
      (schedulerCurrentEstablish cfg t) := by
    unfold schedulerCurrentEstablish
    repeat' first | with_reducible apply leads_bind_same | intro _ | split
    all_goals try simp
    all_goals exact leads_modify fun _ hk => hk
  suffices hspec : wp (start cfg isr tickOk firstTaskOk)
      (fun _ k' => k'.lifecycle = .running → ∃ c, k'.Begun cfg c) (fun _ _ => True) k from
    wp_ret hspec h hr
  have hstays : k.lifecycle = .running → ∃ c, k.Begun cfg c := fun hr => absurd hr hl
  unfold start
  rw [wp_ite]
  split
  · rw [wp_bind, wp_rtsAssert]
    exact ⟨fun _ => hstays, fun _ => trivial⟩
  · rw [wp_bind, wp_get]
    split
    · exact hstays
    · exact hstays
    · rw [wp_bind, wp_rtsAssert]
      refine ⟨fun _ => ?_, fun _ => trivial⟩
      rw [wp_ite]
      split
      · exact hstays
      · refine wp_bind_of_leads
          (leads_schedulerSelectHighestReady (P := OnLedger (·.lifecycle ≠ .running))) hl
          (fun selected k₁ hk₁ => ?_) fun _ _ => trivial
        split
        · simp
        · rw [wp_bind, wp_fatalUnless]
          refine ⟨fun _ => ?_, fun _ => trivial⟩
          rw [wp_bind, wp_fatalUnless]
          refine ⟨fun _ => ?_, fun _ => trivial⟩
          refine wp_bind_of_leads (hestablish _) hk₁ (fun established k₂ hk₂ => ?_)
            fun _ _ => trivial
          rw [wp_ite]
          split
          · exact fun hr => absurd hr hk₂
          · exact wp_startDispatch_begun

end RtsKernel
