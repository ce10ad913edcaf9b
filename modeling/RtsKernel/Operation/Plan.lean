import RtsKernel.Invariant.Waiting

/-!
# Selection and switch planning

The checks that no state of the invariant fails, and the operations that only plan: selection,
preparation, and the two steps of a context switch.
-/

namespace RtsKernel

open Halting Prog

variable {cfg : Config} {base : Tick} {stale : TaskId → Prop} {k k' k'' : Kernel}
  {t u c next : TaskId} {E : Fatal → Kernel → Prop}

/-! ## Checks -/

/-- The current task is `READY`, which no check of an outgoing task accepts. -/
def Kernel.CurrentReady (k : Kernel) : Prop :=
  ∃ c, k.currentTask = some c ∧ (k.tasks c).state = .ready

/-- The idle task owns a mutex. Its priority can then be boosted, and not be restored. -/
def Kernel.IdleOwns (k : Kernel) : Prop := ∃ m, (k.mutexes m).owner = some .idle

/-- The checks that the invariant rules out, `idleOwns` being when the idle task can own a mutex. -/
def Site.Excluded (idleOwns : Prop) : Site → Prop
  | .readyQueue | .delayQueue | .delayHalfRange | .waitObject | .priorityWaiters | .priorityOwned
  | .recomputeVisited | .recomputeDepth | .mutexInit | .mutexOwnerLink | .mutexOwnerUnlink
  | .mutexWouldCycle | .mutexLock | .mutexHandoff | .mutexTimeout | .semaphoreInit
  | .semaphoreTake | .semaphoreMakeReady | .taskDelay | .tickWakeTask | .nullCurrent | .selectNone
  | .selectLifecycle | .selectBlockedCurrent | .preparePlan | .prepareIncoming | .timerQueue
  | .timerInvalidate | .timerCallback | .serviceWake | .serviceBlock | .serviceCancel => True
  | .recomputeChain start => start = .idle → ¬ idleOwns
  | _ => False

/-- The checks on the state of the outgoing task. -/
def Site.Outgoing : Site → Prop
  | .prepareOutgoing | .acquireOutgoing | .completeOutgoing | .tickOutgoing => True
  | _ => False

/-- How an operation may halt in a state of the invariant, `ready` being when the current task can
be `READY`. -/
def Tolerated (ready idleOwns : Prop) : Fatal → Kernel → Prop
  | .assertion site, _ => ¬ site.Excluded idleOwns ∧ (site.Outgoing → ready)
  | .stackCorruption, _ => True
  | .timerCorruption, _ | .timerCallbackQueueOverflow, _ => False

/-! ## Plan-only changes -/

/-- No switch is planned or under way. -/
def Kernel.Settled (k : Kernel) : Prop :=
  k.switchPlan.pending = false ∧ k.switchPlan.active = false

instance (k : Kernel) : Decidable k.Settled := inferInstanceAs (Decidable (_ ∧ _))

/-- Only the plan, the counters and the requests to the port have changed. -/
def Replanned (k k' : Kernel) : Prop :=
  k' = { k with
    switchPlan := k'.switchPlan
    counters := k'.counters
    rescheduleRequests := k'.rescheduleRequests }

theorem Replanned.refl (k : Kernel) : Replanned k k := rfl

theorem Replanned.trans (h : Replanned k k') (h' : Replanned k' k'') : Replanned k k'' := by
  unfold Replanned at *
  rw [h] at h'
  exact h'

theorem Inv.replanned (h : Inv cfg base stale k) (hk : Replanned k k')
    (hplan : PlanOk k.currentTask k'.switchPlan)
    (hl : k.lifecycle = .running ∨ k'.switchPlan = k.switchPlan) : Inv cfg base stale k' := by
  have hphase : k'.switchPlan = k.switchPlan ∨ k.lifecycle = .running := hl.symm
  rw [hk]
  refine ⟨h.tasks, h.ready, h.delay, h.wait, h.locks, h.semaphores, h.running, ?_, hplan⟩
  obtain ⟨h1, h2, h3, h4, h5, h6, h6', h7⟩ := h.phase
  refine ⟨h1, h2, h3, h4, h5, fun hne => ?_, h6', h7⟩
  obtain hp | hp := hphase
  · simp only [hp]
    exact h6 hne
  · exact absurd hp hne

/-! ## Selection -/

theorem Inv.exists_pick (h : Inv cfg base stale k) (hl : k.lifecycle ≠ .reset) :
    ∃ p, policyPickNext cfg k = some p :=
  Option.ne_none_iff_exists'.mp (policyPickNext_ne_none h.ready (h.phase.idle hl))

theorem Inv.pick_runnable (h : Inv cfg base stale k) (hp : policyPickNext cfg k = some t) :
    (k.tasks t).Runnable := policyPickNext_mem h.ready hp

/-- Selection returns the pick of the policy; it fails only for a boosted idle task. -/
theorem wp_select {Q : Option TaskId → Kernel → Prop} (h : Inv cfg base stale k)
    (hl : k.lifecycle ≠ .reset)
    (hQ : ∀ p, policyPickNext cfg k = some p → TaskIsRunnable cfg k p → Q (some p) k)
    (hE : policyPickNext cfg k = some .idle → (k.tasks .idle).priority ≠ 0 →
      E (.assertion .selectRunnable) k) :
    wp (schedulerSelectHighestReady cfg) Q E k := by
  obtain ⟨p, hp⟩ := h.exists_pick hl
  have hlife : k.lifecycle = .initialized ∨ k.lifecycle = .running := by
    cases hk : k.lifecycle <;> simp_all
  have hnot : ¬ (k.lifecycle ≠ .initialized ∧ k.lifecycle ≠ .running) := by tauto
  unfold schedulerSelectHighestReady
  rw [wp_bind, wp_get, wp_bind, wp_rtsAssert_of hlife, wp_ite, if_neg hnot]
  simp only [hp, wp_bind, wp_fatalUnless, wp_pure]
  refine ⟨fun hrun => hQ p hp hrun, fun hnot => ?_⟩
  have hboosted : ¬ (p = .idle → (k.tasks p).priority = 0) := fun hidle =>
    hnot (h.taskIsRunnable_iff.mpr ⟨h.pick_runnable hp, hidle⟩)
  rw [Classical.not_imp] at hboosted
  obtain ⟨rfl, hprio⟩ := hboosted
  exact hE hp hprio

/-! ## Preparation -/

/-- The plan after `rts_scheduler_prepare_switch` has accepted both tasks: an active switch is
told to reselect; otherwise the plan leads from the current task to the next one, or there is no
plan when they are the same. A plan that is new is reported. -/
structure Prepared (k k' : Kernel) (c next : TaskId) (report : Bool) : Prop where
  replanned : Replanned k k'
  requests : k'.rescheduleRequests = k.rescheduleRequests
  reported : report = true ↔ k.switchPlan.pending = false ∧ k'.switchPlan.pending = true
  active : k'.switchPlan.active = k.switchPlan.active
  deferred : k.switchPlan.active = true → k'.switchPlan = { k.switchPlan with
    reselectionRequired := true }
  reselection : k.switchPlan.active = false → k'.switchPlan.reselectionRequired = false
  cancelled : k.switchPlan.active = false → next = c → k'.switchPlan.pending = false
  planned : k.switchPlan.active = false → next ≠ c → k'.switchPlan.pending = true ∧
    k'.switchPlan.fromTask = some c ∧ k'.switchPlan.toTask = some next

theorem Prepared.planOk {b : Bool} (h : Prepared k k' c next b)
    (hp : PlanOk k.currentTask k.switchPlan) (hc : k.currentTask = some c) :
    PlanOk k.currentTask k'.switchPlan := by
  by_cases ha : k.switchPlan.active = true
  · obtain ⟨h1, h2, h3⟩ := hp
    rw [h.deferred ha]
    exact ⟨h1, h2, h3⟩
  · rw [Bool.not_eq_true] at ha
    have ha' : k'.switchPlan.active = false := h.active.trans ha
    by_cases hn : next = c
    · have hpend := h.cancelled ha hn
      refine ⟨?_, ?_, ?_⟩ <;> simp [hpend, ha']
    · obtain ⟨hpend, hfrom, hto⟩ := h.planned ha hn
      refine ⟨fun _ => hfrom.trans hc.symm, fun _ => ⟨next, hto, ?_⟩, fun _ => ha'⟩
      rw [hc]
      simpa using Ne.symm hn

/-- Staying with the current task is no news. -/
theorem Prepared.silent {b : Bool} (h : Prepared k k' c c b) : b = false := by
  rw [← Bool.not_eq_true, h.reported]
  rintro ⟨hpend, hpend'⟩
  cases ha : k.switchPlan.active with
  | true => simp [h.deferred ha, hpend] at hpend'
  | false => simp [h.cancelled ha rfl] at hpend'

theorem wp_prepareSwitchTo {Q : Bool → Kernel → Prop} (hplan : PlanOk k.currentTask k.switchPlan)
    (hc : k.currentTask = some c) (hready : next ≠ c → (k.tasks next).state = .ready)
    (hQ : ∀ b k', Prepared k k' c next b → Q b k') :
    wp (prepareSwitchTo cfg c next) Q E k := by
  simp only [prepareSwitchTo, wp_bind, wp_get, wp_ite]
  split <;> rename_i ha
  · simp only [wp_modify, wp_pure]
    refine hQ false _ ⟨rfl, rfl, ?_, rfl, fun _ => rfl, ?_, ?_, ?_⟩ <;> simp +contextual [ha]
  · rw [Bool.not_eq_true] at ha
    simp only [wp_modify]
    by_cases hn : next = c
    · rw [if_pos hn]
      split <;> rename_i hpend
      · have hfrom : k.switchPlan.fromTask = some c := (hplan.source (.inl hpend)).trans hc
        simp only [wp_rtsAssert_of hfrom, wp_pure]
        refine hQ false _ ⟨rfl, rfl, ?_, ?_, ?_, ?_, ?_, ?_⟩ <;>
          simp [ha, hn, hpend, switchPlanClear]
      · rw [Bool.not_eq_true] at hpend
        rw [wp_pure]
        refine hQ false _ ⟨rfl, rfl, ?_, ?_, ?_, ?_, ?_, ?_⟩ <;> simp [ha, hn, hpend]
    · have hst := hready hn
      simp only [if_neg hn, wp_rtsAssert_of hst]
      rw [if_neg (by simp [hst])]
      split <;> rename_i hpend
      · simp only [wp_pure]
        refine hQ true _ ⟨rfl, rfl, ?_, ?_, ?_, ?_, ?_, ?_⟩ <;> simp [ha, hn, hpend]
      · rw [Bool.not_eq_false] at hpend
        have hfrom : k.switchPlan.fromTask = some c := (hplan.source (.inl hpend)).trans hc
        obtain ⟨d, hd, -⟩ := hplan.target (.inl hpend)
        have hto : k.switchPlan.toTask ≠ none := by simp [hd]
        simp only [wp_rtsAssert_of hfrom, wp_rtsAssert_of hto]
        rw [if_neg (by simp [hfrom, hd])]
        split <;> rename_i hne
        · simp only [wp_pure]
          refine hQ false _ ⟨rfl, rfl, ?_, ?_, ?_, ?_, ?_, ?_⟩ <;> simp [ha, hn, hpend, hfrom]
        · rw [not_not] at hne
          rw [wp_pure]
          refine hQ false _ ⟨rfl, rfl, ?_, ?_, ?_, ?_, ?_, ?_⟩ <;> simp [ha, hn, hpend, hfrom, hne]

theorem TaskIsRunnable.ready_of_ne (h : TaskIsRunnable cfg k next) (hc : k.currentTask = some c)
    (hne : next ≠ c) : (k.tasks next).state = .ready := by
  obtain hready | ⟨hcur, -⟩ := h.2.2.2.2.2.2.2.2.2.2.1
  · exact hready
  · rw [hc] at hcur
    exact absurd (Option.some.inj hcur).symm hne

/-- Preparation is rejected only while the current task is `READY`. -/
theorem wp_prepareSwitch {Q : Bool → Kernel → Prop} (h : Inv cfg base stale k) (hs : ¬ stale .idle)
    (hc : k.currentTask = some c) (hnext : TaskIsRunnable cfg k next)
    (hrej : k.CurrentReady → cfg.enableAssertions = false → Q false k)
    (hQ : ∀ b k', Prepared k k' c next b → (k.tasks c).state ≠ .ready → Q b k')
    (hE : k.CurrentReady → cfg.enableAssertions = true → E (.assertion .prepareOutgoing) k) :
    wp (schedulerPrepareSwitch cfg (some next)) Q E k := by
  have hl := h.running_of_current hc
  have hout := h.switchOutgoingIsValid_iff hs hc
  unfold schedulerPrepareSwitch
  rw [wp_bind, wp_get, wp_bind, wp_rtsAssert_of hl]
  simp only [hc, wp_bind]
  by_cases hst : (k.tasks c).state = .ready
  · have hnot : ¬ SwitchOutgoingIsValid cfg k c := by simp [hout, hst]
    have hready : k.CurrentReady := ⟨c, hc, hst⟩
    rw [wp_rtsAssert]
    refine ⟨fun hoff => ?_, fun hon => hE hready hon.1⟩
    rw [wp_rtsAssert_of hnext, wp_ite, if_pos (.inr (.inl hnot)), wp_pure]
    exact hrej hready (Bool.eq_false_iff.mpr fun hon => hnot (hoff hon))
  · have hvalid := hout.mpr hst
    rw [wp_rtsAssert_of hvalid, wp_rtsAssert_of hnext, wp_ite,
      if_neg (by simp [hl, hvalid, hnext])]
    exact wp_prepareSwitchTo h.plan hc (hnext.ready_of_ne hc) fun b k' hp => hQ b k' hp hst

/-! ## Select and plan -/

/-- The end of an operation that has changed the ready set: nothing happens while the current
task is `READY`, which passes only without assertions; otherwise the plan follows the pick of the
policy. -/
inductive Planned (cfg : Config) (k : Kernel) : Kernel → Bool → Prop where
  | rejected {p : TaskId} (ready : k.CurrentReady) (unchecked : cfg.enableAssertions = false)
      (pick : policyPickNext cfg k = some p) (runnable : TaskIsRunnable cfg k p) :
      Planned cfg k k false
  | prepared {k' : Kernel} {report : Bool} (c p : TaskId) (current : k.currentTask = some c)
      (notReady : (k.tasks c).state ≠ .ready) (pick : policyPickNext cfg k = some p)
      (runnable : TaskIsRunnable cfg k p) (plan : Prepared k k' c p report) :
      Planned cfg k k' report

variable {b : Bool}

theorem Planned.replanned (h : Planned cfg k k' b) : Replanned k k' := by
  cases h with
  | rejected => exact .refl k
  | prepared _ _ _ _ _ _ plan => exact plan.replanned

theorem Planned.inv (hp : Planned cfg k k' b) (h : Inv cfg base stale k) :
    Inv cfg base stale k' := by
  cases hp with
  | rejected => exact h
  | prepared c p hc _ _ _ plan =>
    exact h.replanned plan.replanned (plan.planOk h.plan hc) (.inl (h.running_of_current hc))

theorem wp_planAfterWake {Q : Bool → Kernel → Prop} (h : Inv cfg base stale k)
    (hs : ¬ stale .idle) (hc : k.currentTask = some c) (hQ : ∀ b k', Planned cfg k k' b → Q b k')
    (hE : policyPickNext cfg k = some .idle → (k.tasks .idle).priority ≠ 0 →
      E (.assertion .selectRunnable) k)
    (hE' : k.CurrentReady → cfg.enableAssertions = true → E (.assertion .prepareOutgoing) k) :
    wp (planAfterWake cfg) Q E k := by
  have hl := h.running_of_current hc
  unfold planAfterWake
  rw [wp_bind]
  refine wp_select h (by simp [hl]) (fun p hp hrun => ?_) hE
  rw [wp_bind, wp_get]
  simp only [hc, wp_ite]
  split <;> rename_i hpc
  · subst hpc
    rw [wp_bind]
    refine wp_prepareSwitch h hs hc hrun (fun hr hoff => ?_) (fun b k' hprep hst => ?_) hE'
    · rw [wp_pure]
      exact hQ false k (.rejected hr hoff hp hrun)
    · rw [wp_pure]
      exact hQ false k' (.prepared p p hc hst hp hrun (hprep.silent ▸ hprep))
  · refine wp_prepareSwitch h hs hc hrun (fun hr hoff => ?_) (fun b k' hprep hst => ?_) hE'
    · exact hQ false k (.rejected hr hoff hp hrun)
    · exact hQ b k' (.prepared c p hc hst hp hrun hprep)

theorem wp_planAfterBlock {Q : Bool → Kernel → Prop} (h : Inv cfg base stale k)
    (hs : ¬ stale .idle) (hc : k.currentTask = some c) (hb : (k.tasks c).state = .blocked)
    (hQ : ∀ b k', Planned cfg k k' b → Q b k') (hE : E (.assertion .selectRunnable) k) :
    wp (planAfterBlock cfg c) Q E k := by
  have hl := h.running_of_current hc
  have hnr : ¬ k.CurrentReady := by
    rintro ⟨c', hc', hst⟩
    rw [hc] at hc'
    rw [← Option.some.inj hc', hb] at hst
    simp at hst
  unfold planAfterBlock
  rw [wp_bind]
  refine wp_select h (by simp [hl]) (fun p hp hrun => ?_) (fun _ _ => hE)
  have hpc : p ≠ c := by
    rintro rfl
    exact Tcb.not_runnable_of_blocked hb (h.pick_runnable hp)
  simp only [wp_bind, wp_fatalUnless_of hpc]
  refine wp_prepareSwitch h hs hc hrun (fun hr => absurd hr hnr) (fun b k' hprep hst => ?_)
    fun hr => absurd hr hnr
  exact hQ b k' (.prepared c p hc hst hp hrun hprep)

/-- The state after a report has been passed on to the port. -/
def Kernel.notify (k : Kernel) (report : Bool) : Kernel :=
  { k with rescheduleRequests := k.rescheduleRequests + report.toNat }

theorem Replanned.notify (k : Kernel) (b : Bool) : Replanned k (k.notify b) := rfl

theorem wp_notifyPort {Q : Unit → Kernel → Prop} (hQ : Q () (k.notify b)) :
    wp (notifyPort b) Q E k := by
  cases b <;> exact hQ

/-! ## The context switch -/

/-- The pending plan has become the active one. -/
structure Acquired (cfg : Config) (k k' : Kernel) (d : TaskId) : Prop where
  replanned : Replanned k k'
  pending : k.switchPlan.pending = true
  inactive : k.switchPlan.active = false
  target : k.switchPlan.toTask = some d
  ready : (k.tasks d).state = .ready
  runnable : TaskIsRunnable cfg k d
  plan : k'.switchPlan = { k.switchPlan with pending := false, active := true }
  requests : k'.rescheduleRequests = k.rescheduleRequests

/-- The snapshot of a plan. -/
def SwitchSnapshot.Matches (snapshot : SwitchSnapshot) (plan : SwitchPlan) : Prop :=
  plan.fromTask = some snapshot.fromTask ∧ plan.toTask = some snapshot.toTask ∧
  plan.generation = snapshot.generation

/-- No switch is under way, and the task a plan leads to can be switched in. -/
def Kernel.CanAcquire (cfg : Config) (k : Kernel) : Prop :=
  k.switchPlan.active = false ∧
  ∀ d, k.switchPlan.toTask = some d → (k.tasks d).state = .ready ∧ TaskIsRunnable cfg k d

theorem wp_switchAcquire {Q : Option SwitchSnapshot → Kernel → Prop} (h : Inv cfg base stale k)
    (hs : ¬ stale .idle) (hl : k.lifecycle = .running)
    (hnone : (k.switchPlan.pending = true → k.CanAcquire cfg → k.CurrentReady) → Q none k)
    (hQ : ∀ snapshot k' d, Acquired cfg k k' d → snapshot.Matches k.switchPlan →
      Q (some snapshot) k')
    (hE : ¬ k.CanAcquire cfg → E (.assertion .acquire) k)
    (hE' : k.CurrentReady → E (.assertion .acquireOutgoing) k) :
    wp (schedulerSwitchAcquire cfg) Q E k := by
  unfold schedulerSwitchAcquire
  rw [wp_bind, wp_get, wp_bind, wp_rtsAssert_of hl, wp_bind, wp_rtsAssert]
  refine ⟨fun _ => ?_, fun hact => hE fun hcan => hact.2 hcan.1⟩
  simp only [wp_ite]
  split <;> rename_i hact
  · exact hnone fun _ hcan => by simp [hl, hcan.1] at hact
  split <;> rename_i hpend
  · exact hnone fun hc => by simp [hc] at hpend
  rw [Bool.not_eq_false] at hpend
  have hinact : k.switchPlan.active = false := by simpa [hl] using hact
  obtain ⟨d, hd, hne⟩ := h.plan.target (.inl hpend)
  obtain ⟨c, hc, -⟩ := h.phase.current hl
  have hfrom : k.switchPlan.fromTask = some c := (h.plan.source (.inl hpend)).trans hc
  have hcd : c ≠ d := by
    rintro rfl
    exact hne hc
  simp only [hfrom, hd, wp_bind, wp_rtsAssert_of hc, wp_rtsAssert_of hcd]
  rw [wp_rtsAssert]
  refine ⟨fun _ => ?_, fun hv => hE' ?_⟩
  · rw [wp_rtsAssert]
    refine ⟨fun _ => ?_, fun hnot => hE fun hcan => hnot.2 (hcan.2 d hd).1⟩
    rw [wp_rtsAssert]
    refine ⟨fun _ => ?_, fun hnot => hE fun hcan => hnot.2 (hcan.2 d hd).2⟩
    rw [wp_ite]
    split <;> rename_i hchk
    · refine hnone fun _ hcan => ⟨c, hc, ?_⟩
      have hcan := hcan.2 d hd
      have hout := h.switchOutgoingIsValid_iff hs hc
      grind
    · simp only [ne_eq, not_or, not_not] at hchk
      simp only [wp_bind, wp_modify, wp_pure]
      exact hQ _ _ d ⟨rfl, hpend, hinact, hd, hchk.2.2.2.1, hchk.2.2.2.2, rfl, rfl⟩ ⟨hfrom, hd, rfl⟩
  · rw [h.switchOutgoingIsValid_iff hs hc, not_not] at hv
    exact ⟨c, hc, hv.2⟩

theorem Acquired.inv {d : TaskId} (ha : Acquired cfg k k' d) (h : Inv cfg base stale k)
    (hl : k.lifecycle = .running) : Inv cfg base stale k' := by
  refine h.replanned ha.replanned ?_ (.inl hl)
  rw [ha.plan]
  obtain ⟨h1, h2, -⟩ := h.plan
  exact ⟨fun _ => h1 (.inl ha.pending), fun _ => h2 (.inl ha.pending), fun hc => by simp at hc⟩

/-- The context switch is complete. -/
structure Switched (cfg : Config) (k k' : Kernel) (src dst : TaskId) : Prop where
  rest : k'.rest = k.rest
  source : k.currentTask = some src
  active : k.switchPlan.active = true
  target : k.switchPlan.toTask = some dst
  ne : src ≠ dst
  notReady : (k.tasks src).state ≠ .ready
  ready : (k.tasks dst).state = .ready
  runnable : TaskIsRunnable cfg k dst
  currentTask : k'.currentTask = some dst
  switchPlan : k'.switchPlan = switchPlanClear k.switchPlan
  readySet : k'.readySet = k.readySet
  edfReady : k'.edfReady = k.edfReady
  delayQueue : k'.delayQueue = k.delayQueue
  semaphores : k'.semaphores = k.semaphores
  mutexes : k'.mutexes = k.mutexes
  requests : k'.rescheduleRequests = k.rescheduleRequests
  sourceTask : Tcb.SameButRelease { k.tasks src with
    state := if (k.tasks src).state = .running then .ready else (k.tasks src).state } (k'.tasks src)
  targetTask : Tcb.SameButRelease { k.tasks dst with state := .running } (k'.tasks dst)
  others : ∀ u, u ≠ src → u ≠ dst → k'.tasks u = k.tasks u

namespace Switched

variable {src dst : TaskId}

theorem task (h : Switched cfg k k' src dst) (u : TaskId) :
    Tcb.SameButRelease { k.tasks u with state := (k'.tasks u).state } (k'.tasks u) := by
  by_cases hu : u = src
  · subst hu
    unfold Tcb.SameButRelease
    rw [h.sourceTask]
  · by_cases hd : u = dst
    · subst hd
      unfold Tcb.SameButRelease
      rw [h.targetTask]
    · rw [h.others u hu hd]
      exact .refl _

theorem state_eq (h : Switched cfg k k' src dst) (u : TaskId) : (k'.tasks u).state =
    if u = dst then .running
    else if u = src ∧ (k.tasks src).state = .running then .ready else (k.tasks u).state := by
  by_cases hd : u = dst
  · subst hd
    rw [h.targetTask]
    simp
  · by_cases hu : u = src
    · subst hu
      rw [h.sourceTask]
      simp [hd]
    · rw [h.others u hu hd]
      simp [hd, hu]

theorem blocked_iff (h : Switched cfg k k' src dst) (u : TaskId) :
    (k'.tasks u).state = .blocked ↔ (k.tasks u).state = .blocked := by
  have hready := h.ready
  rw [h.state_eq]
  grind

theorem runnable_iff (h : Switched cfg k k' src dst) (u : TaskId) :
    (k'.tasks u).Runnable ↔ (k.tasks u).Runnable := by
  have hready := h.ready
  unfold Tcb.Runnable
  rw [h.state_eq]
  grind

theorem dormant_iff (h : Switched cfg k k' src dst) (u : TaskId) :
    (k'.tasks u).state = .dormant ↔ (k.tasks u).state = .dormant := by
  have hready := h.ready
  rw [h.state_eq]
  grind

end Switched

theorem TaskOk.of_state {a b : Tcb} (h : TaskOk cfg t a)
    (hab : Tcb.SameButRelease { a with state := b.state } b)
    (hblocked : b.state = .blocked ↔ a.state = .blocked)
    (hdormant : b.state = .dormant ↔ a.state = .dormant) : TaskOk cfg t b := by
  have hok : TaskOk cfg t { a with state := b.state } := by
    obtain ⟨h1, h2, h3, h4⟩ := h
    refine ⟨fun hd => h1 (hdormant.mp hd), fun hd => ?_, fun hb => h3 (mt hblocked.mpr hb),
      fun hb => ?_⟩
    · obtain ⟨g1, g2, g3, g4, g5, g6, g7, g8⟩ := h2 (mt hdormant.mpr hd)
      exact ⟨g1, g2, g3, g4, g5, g6, g7, g8⟩
    · obtain ⟨hres, hw⟩ := h4 (hblocked.mp hb)
      refine ⟨hres, ?_⟩
      cases hw with
      | delay h1 h2 h3 h4 h5 => exact .delay h1 h2 h3 h4 h5
      | semaphore i h1 h2 h3 h4 => exact .semaphore i h1 h2 h3 h4
      | mutex m h1 h2 h3 h4 h5 => exact .mutex m h1 h2 h3 h4 h5
      | service h1 h2 h3 h4 h5 => exact .service h1 h2 h3 h4 h5
  refine hok.sameButBooks hab.sameButBooks fun _ => ?_
  rw [hab]

theorem Tcb.SameLocks.of_state {a b : Tcb} (hab : Tcb.SameButRelease { a with state := b.state } b)
    (hblocked : b.state = .blocked ↔ a.state = .blocked)
    (hdormant : b.state = .dormant ↔ a.state = .dormant) : a.SameLocks b := by
  have hawaited : b.awaited = a.awaited := by
    have hwait : b.wait = a.wait := by rw [hab]
    unfold Tcb.awaited
    simp only [hblocked, hwait]
  refine ⟨?_, ?_, ?_, ?_, ?_, hdormant.mp, hawaited⟩ <;> rw [hab]

theorem Inv.switched {src dst : TaskId} (h : Inv cfg base stale k) (hs : ¬ stale .idle)
    (hsw : Switched cfg k k' src dst) : Inv cfg base stale k' := by
  have hl := h.running_of_current hsw.source
  have hprio : k'.prio = k.prio := funext fun u => by
    simp only [Kernel.prio]
    rw [hsw.task u]
  have hwait : ∀ u, (k'.tasks u).wait = (k.tasks u).wait := fun u => by rw [hsw.task u]
  have howner : k'.waitOwners = k.waitOwners := funext fun u => by
    simp only [Kernel.waitOwners]
    rw [hsw.task u]
  have hlists : k'.waiters = k.waiters := by
    funext o
    cases o <;> simp [Kernel.waiters, hsw.semaphores, hsw.mutexes]
  refine ⟨fun u => ?_, ?_, ?_, ?_, ?_, ?_, fun u hu => ?_, ?_, ?_⟩
  · exact (h.tasks u).of_state (hsw.task u) (hsw.blocked_iff u) (hsw.dormant_iff u)
  · rw [hsw.readySet, hsw.edfReady, hprio]
    exact h.ready.congr hsw.runnable_iff fun _ => rfl
  · rw [hsw.delayQueue]
    refine h.delay.congr (fun u => ?_) fun u _ => ?_
    · simp only [Tcb.Timed, hsw.blocked_iff, hwait]
    · simp only [Kernel.wake, hwait]
  · rw [hlists, hprio, howner]
    exact h.wait
  · rw [hsw.mutexes, hsw.currentTask]
    have hlocks : Locks cfg stale k.mutexes k'.tasks none :=
      h.locks.congr_tasks (fun u => .of_state (hsw.task u) (hsw.blocked_iff u) (hsw.dormant_iff u))
        (by simp)
    refine { hlocks with idle := fun hidle m hm => ?_ }
    obtain rfl : dst = .idle := Option.some.inj hidle
    have hzero := (h.taskIsRunnable_iff.mp hsw.runnable).2 rfl
    rw [List.eq_nil_iff_forall_not_mem]
    intro u hu
    have hle := (h.locks.inherits .idle hs).2 (.inr ⟨m, u, hm, hu, rfl⟩)
    have hb := (Tcb.awaited_eq_some.mp ((h.locks.waiting m u).mp hu)).1
    have hpos := h.prio_pos (t := u) (by simp [hb]) (by
      rintro rfl
      exact h.idle_not_blocked hb)
    omega
  · rw [hsw.semaphores]
    exact h.semaphores
  · rw [hsw.currentTask]
    rw [hsw.state_eq] at hu
    have hrun := h.running u
    have hsrc := hsw.source
    grind
  · obtain ⟨h1, h2, h3, h4, h5, -, -, -⟩ := h.phase
    have hlife : k'.lifecycle = .running := (Kernel.of_rest Kernel.lifecycle hsw.rest).trans hl
    have hreset : k.lifecycle ≠ .reset := by simp [hl]
    refine ⟨fun hc => ?_, fun _ => ?_, fun _ => ?_, fun _ => ?_, fun _ => ?_,
      fun hc => absurd hlife hc, fun hc => absurd hlife hc, fun _ => ?_⟩
    · simp [hlife] at hc
    · exact (Kernel.of_rest Kernel.idleTask hsw.rest).trans (h2 hreset)
    · exact (Kernel.of_rest Kernel.timerServiceTask hsw.rest).trans (h3 hreset)
    · exact (hsw.runnable_iff _).mpr (h4 hreset)
    · exact mt (hsw.dormant_iff _).mp (h5 hreset)
    · refine ⟨dst, hsw.currentTask, mt (hsw.dormant_iff dst).mp ?_⟩
      simp [hsw.ready]
  · rw [hsw.switchPlan]
    refine ⟨?_, ?_, ?_⟩ <;> simp [switchPlanClear]

theorem wp_switchComplete {Q : Unit → Kernel → Prop} {snapshot : SwitchSnapshot}
    {stacksIntact : Bool} (h : Inv cfg base stale k) (hs : ¬ stale .idle)
    (hsame : (CompletePlanIsValid cfg k snapshot → k.CurrentReady) → Q () k)
    (hQ : ∀ k', CompletePlanIsValid cfg k snapshot →
      Switched cfg k k' snapshot.fromTask snapshot.toTask → Q () k')
    (hE : ¬ CompletePlanIsValid cfg k snapshot → E (.assertion .complete) k)
    (hE' : k.CurrentReady → E (.assertion .completeOutgoing) k)
    (hE'' : stacksIntact = false → E .stackCorruption k) :
    wp (schedulerSwitchComplete cfg snapshot stacksIntact) Q E k := by
  obtain ⟨src, dst, generation⟩ := snapshot
  unfold schedulerSwitchComplete
  rw [wp_ite]
  split <;> rename_i hintact
  · exact hE'' hintact
  rw [wp_bind, wp_get, wp_bind, wp_rtsAssert]
  refine ⟨fun hassert => ?_, fun hnot => hE hnot.2⟩
  rw [wp_bind, wp_rtsAssert]
  refine ⟨fun _ => ?_, fun hv => hE' ?_⟩
  · rw [wp_ite]
    split <;> rename_i hchk
    · refine hsame fun hvalid => ?_
      have hcur : k.currentTask = some src := hvalid.2.2.2.2.2.2.2.1
      have hout := hchk.resolve_left (not_not.mpr hvalid)
      rw [h.switchOutgoingIsValid_iff hs hcur, not_not] at hout
      exact ⟨src, hcur, hout⟩
    · simp only [not_or, not_not] at hchk
      obtain ⟨hvalid, hout⟩ := hchk
      obtain ⟨hl, hact, -, -, -, hto, hne, hcur, hready, hrun⟩ := id hvalid
      have hnr := (h.switchOutgoingIsValid_iff hs hcur).mp hout
      simp only at hne hcur hready hrun hto hout hnr
      have hblocked : (k.tasks src).state ≠ .running → (k.tasks src).state = .blocked := by
        obtain ⟨-, ⟨hc, -⟩ | ⟨hc, -⟩⟩ := hout
        · exact fun hn => absurd hc hn
        · exact fun _ => hc
      have hfin : ∀ k', Switched cfg k k' src dst → (CurrentIsValid cfg k' → Q () k') ∧
          (¬ CurrentIsValid cfg k' → E (.assertion .complete) k') := by
        intro k' hsw
        have hrunning : (k'.tasks dst).state = .running := by simp [hsw.state_eq]
        refine ⟨fun _ => hQ k' hvalid hsw, fun hnot => absurd ?_ hnot⟩
        exact (h.switched hs hsw).currentIsValid hs hsw.currentTask hrunning
      simp only [wp_bind, wp_modify, wp_ite, wp_get, wp_fatalUnless]
      split <;> rename_i hst
      · refine hfin _ ⟨rfl, hcur, hact, hto, hne, hnr, hready, hrun, rfl, rfl, rfl, rfl, rfl, rfl,
          rfl, rfl, ?_, ?_, ?_⟩
        · simp [hne, hst, Tcb.SameButRelease, runtimeTaskStopped]
        · simp [Ne.symm hne, Tcb.SameButRelease, runtimeTaskStarted]
        · intro u hu hd
          simp [hu, hd]
      · have hb := hblocked hst
        refine ⟨fun _ => ?_, fun hc => absurd hb hc⟩
        refine hfin _ ⟨rfl, hcur, hact, hto, hne, hnr, hready, hrun, rfl, rfl, rfl, rfl, rfl, rfl,
          rfl, rfl, ?_, ?_, ?_⟩
        · simp [hne, hst, Tcb.SameButRelease, runtimeTaskStopped]
        · simp [Ne.symm hne, Tcb.SameButRelease, runtimeTaskStarted]
        · intro u hu hd
          simp [hu, hd]
  · have hplan := hassert hv.1
    have hcur : k.currentTask = some src := hplan.2.2.2.2.2.2.2.1
    have hnot := hv.2
    rw [h.switchOutgoingIsValid_iff hs hcur, not_not] at hnot
    exact ⟨src, hcur, hnot⟩

/-- Reselection plans anew and leaves nothing to reselect, unless the current task is `READY`. -/
theorem wp_reselectAfterSwitch {Q : Bool → Kernel → Prop} (h : Inv cfg base stale k)
    (hs : ¬ stale .idle) (hl : k.lifecycle = .running)
    (hsame : k.switchPlan.reselectionRequired = false → Q false k)
    (hQ : ∀ b k', Planned cfg k k' b → Q b k')
    (hE : policyPickNext cfg k = some .idle → (k.tasks .idle).priority ≠ 0 →
      E (.assertion .selectRunnable) k)
    (hE' : k.CurrentReady → E (.assertion .prepareOutgoing) k)
    (hE'' : (∀ c, k.currentTask = some c → (k.tasks c).state ≠ .running) →
      E (.assertion .reselectCurrent) k) :
    wp (schedulerReselectAfterSwitch cfg) Q E k := by
  obtain ⟨c, hc, -⟩ := h.phase.current hl
  unfold schedulerReselectAfterSwitch
  rw [wp_bind, wp_get, wp_ite]
  split <;> rename_i hres
  · exact hsame hres
  simp only [hc, wp_bind, wp_fatalUnless]
  refine ⟨fun _ => ?_, fun hst => hE'' fun d hd => ?_⟩
  swap
  · obtain rfl : c = d := Option.some.inj (hc.symm.trans hd)
    exact hst
  refine wp_select h (by simp [hl]) (fun p hp hrun => ?_) hE
  simp only [wp_ite]
  split <;> rename_i hpc
  · refine wp_prepareSwitch h hs hc hrun (fun hr hoff => ?_) (fun b k' hprep hst => ?_)
      fun hr _ => hE' hr
    · exact hQ false k (.rejected hr hoff hp hrun)
    · exact hQ b k' (.prepared c p hc hst hp hrun hprep)
  · rw [not_not] at hpc
    subst hpc
    rw [wp_bind]
    refine wp_prepareSwitch h hs hc hrun (fun hr hoff => ?_) (fun b k' hprep hst => ?_)
      fun hr _ => hE' hr
    · rw [wp_pure]
      exact hQ false k (.rejected hr hoff hp hrun)
    · rw [wp_pure]
      exact hQ false k' (.prepared p p hc hst hp hrun (hprep.silent ▸ hprep))

end RtsKernel
