import RtsKernel.Operation.Startup

/-!
# The start of the scheduler

`rts_start` makes the pick of the policy the current task. When the port refuses afterwards the
task goes back to the ready state, and only the record of its dispatch is left.
-/

namespace RtsKernel

open Halting Prog

variable {cfg : Config} {base : Tick} {stale : TaskId → Prop} {k k' : Kernel} {t u : TaskId}
  {owns : Prop} {E : Fatal → Kernel → Prop}

/-- The start that the diagnostics record. -/
def Kernel.dispatched (k : Kernel) (t : TaskId) : Kernel :=
  (k.updateTask t (runtimeTaskStarted k.currentTick)).count fun c =>
    { c with schedulerStarts := diagnosticCounterIncrement c.schedulerStarts }

/-- The selected task runs. -/
structure Launched (cfg : Config) (k : Kernel) (t : TaskId) (k' : Kernel) : Prop where
  initialized : k.lifecycle = .initialized
  pick : policyPickNext cfg k = some t
  ready : (k.tasks t).state = .ready
  frame : k' = { k with
    lifecycle := .running
    currentTask := some t
    tasks := k'.tasks
    counters := k'.counters }
  task : ∀ u, Tcb.SameButRelease
    { k.tasks u with state := if u = t then .running else (k.tasks u).state } (k'.tasks u)

namespace Launched

theorem state (h : Launched cfg k t k') (u : TaskId) :
    (k'.tasks u).state = if u = t then .running else (k.tasks u).state := by rw [h.task u]

theorem sameButState (h : Launched cfg k t k') (u : TaskId) :
    Tcb.SameButRelease { k.tasks u with state := (k'.tasks u).state } (k'.tasks u) := by
  rw [h.state]
  exact h.task u

theorem blocked_iff (h : Launched cfg k t k') (u : TaskId) :
    (k'.tasks u).state = .blocked ↔ (k.tasks u).state = .blocked := by
  have hready := h.ready
  rw [h.state]
  grind

theorem dormant_iff (h : Launched cfg k t k') (u : TaskId) :
    (k'.tasks u).state = .dormant ↔ (k.tasks u).state = .dormant := by
  have hready := h.ready
  rw [h.state]
  grind

theorem runnable_iff (h : Launched cfg k t k') (u : TaskId) :
    (k'.tasks u).Runnable ↔ (k.tasks u).Runnable := by
  have hready := h.ready
  unfold Tcb.Runnable
  rw [h.state]
  grind

theorem prio_eq (h : Launched cfg k t k') : k'.prio = k.prio := by
  funext u
  simp only [Kernel.prio]
  rw [h.task u]

theorem waiters (h : Launched cfg k t k') (hk : Unstarted cfg k) (o : WaitObject) :
    k'.waiters o = [] := by
  rw [h.frame]
  exact hk.waiters o

theorem waitOwner (h : Launched cfg k t k') (hk : Unstarted cfg k) (u : TaskId) :
    (k'.tasks u).waitOwner = none := by
  rw [h.task u]
  exact hk.waitOwner u

theorem not_timed (h : Launched cfg k t k') (hk : Unstarted cfg k) (u : TaskId) :
    ¬ (k'.tasks u).Timed := by
  have hwait : (k'.tasks u).wait = (k.tasks u).wait := by rw [h.task u]
  rw [Tcb.Timed, h.blocked_iff, hwait]
  exact hk.not_timed u

theorem locks (h : Launched cfg k t k') (hk : Unstarted cfg k) :
    Locks cfg stale k'.mutexes k'.tasks k'.currentTask := by
  have hmutexes : k'.mutexes = k.mutexes := by rw [h.frame]
  have hnone : Locks cfg stale k.mutexes k'.tasks none :=
    hk.locks.congr_tasks
      (fun u => .of_state (h.sameButState u) (h.blocked_iff u) (h.dormant_iff u)) (by simp)
  rw [hmutexes]
  exact { hnone with idle := fun _ m _ => (hk.mutexes m).2.1 }

theorem phase (h : Launched cfg k t k') (hk : Unstarted cfg k) : PhaseOk k' := by
  have hlife : k'.lifecycle = .running := by rw [h.frame]
  obtain ⟨hidle, hservice, hidleState, hserviceState⟩ := hk.named (by simp [h.initialized])
  refine ⟨fun hr => ?_, fun _ => ?_, fun _ => ?_, fun _ => ?_, fun _ => ?_,
    fun hr => absurd hlife hr, fun hr => absurd hlife hr, fun _ => ⟨t, ?_, ?_⟩⟩
  · simp [hlife] at hr
  · rw [h.frame]
    exact hidle
  · rw [h.frame]
    exact hservice
  · rw [h.runnable_iff]
    exact .inl ((hk.state .idle).resolve_left hidleState)
  · rwa [Ne, h.dormant_iff]
  · rw [h.frame]
  · simp [h.state]

theorem inv (h : Launched cfg k t k') (hk : Unstarted cfg k) : Inv cfg base stale k' := by
  have hdelay : k'.delayQueue = [] := by
    rw [h.frame]
    exact hk.delayQueue
  have hcur : k'.currentTask = some t := by rw [h.frame]
  have hplan : k'.switchPlan = k.switchPlan := by rw [h.frame]
  refine ⟨fun u => ?_, ?_, ?_, ?_, h.locks hk, ?_, fun u hu => ?_, h.phase hk, ?_⟩
  · exact (hk.tasks u).of_state (h.sameButState u) (h.blocked_iff u) (h.dormant_iff u)
  · have hready := hk.ready
    have hrs : k'.readySet = k.readySet := by rw [h.frame]
    have her : k'.edfReady = k.edfReady := by rw [h.frame]
    rw [hrs, her, h.prio_eq]
    exact hready.congr h.runnable_iff fun _ => rfl
  · rw [hdelay]
    exact ⟨List.nodup_nil, fun u => by simp [h.not_timed hk u],
      fun u hu => absurd hu (h.not_timed hk u), .nil⟩
  · refine ⟨fun o => ?_, fun o u => ?_, fun o => ?_, fun u hu => ?_⟩
    · simp [h.waiters hk]
    · simp [h.waiters hk, Kernel.waitOwners, h.waitOwner hk]
    · simp [h.waiters hk]
    · simp [Kernel.waitOwners, h.waitOwner hk] at hu
  · rw [h.frame]
    exact fun i => (hk.semaphores i).1
  · rw [h.state] at hu
    split at hu <;> rename_i hut
    · rw [hcur, hut]
    · rcases hk.state u with hst | hst
      · simp [hu] at hst
      · rw [hu] at hst
        split at hst <;> simp at hst
  · obtain ⟨-, hpend, hact⟩ := hk.still
    rw [hplan]
    refine ⟨?_, ?_, ?_⟩ <;> simp [hpend, hact]

theorem starts (h : Launched cfg k t k') (hk : Unstarted cfg k) (ht : TimersOk cfg k) :
    Starts cfg k k' := by
  have hcur : k'.currentTask = some t := by rw [h.frame]
  have hplan : k'.switchPlan = k.switchPlan := by rw [h.frame]
  have hpick : policyPickNext cfg k' = some t := by
    rw [← h.pick]
    exact policyPickNext_congr (by rw [h.frame]) (by rw [h.frame])
  obtain ⟨-, hpend, hact⟩ := hk.still
  have htimers : SameTimers k k' :=
    ⟨by rw [h.frame], fun hr => by rw [h.frame] at hr; simp at hr, (h.blocked_iff _).mp⟩
  refine ⟨hk.lifecycle, ⟨h.inv hk, fun c hc hb => ?_⟩, htimers.timersOk ht,
    fun hl => ?_, ?_, by rw [h.frame], h.waiters hk, by rw [h.frame], by rw [h.frame],
    fun _ => by rw [h.frame], htimers.ahead, fun hb => .inl (htimers.service hb), ?_,
    ⟨fun c p hc hp _ _ => ?_, fun d ha => ?_⟩, ?_⟩
  · obtain rfl : t = c := Option.some.inj (hcur.symm.trans hc)
    simp [h.state] at hb
  · exact absurd (by rw [h.frame]) hl
  · refine ⟨fun u => ⟨?_, fun hb => ?_⟩, ?_, ?_⟩
    · rw [h.task u]
      exact (hk.calm.tasks u).1
    · exact (hk.calm.tasks u).2 ((h.blocked_iff u).mp hb)
    · rw [h.frame]
      exact hk.calm.delayQueue
    · rw [h.frame]
      exact hk.calm.owners
  · rintro ⟨c, hc, hr⟩
    obtain rfl : t = c := Option.some.inj (hcur.symm.trans hc)
    simp [h.state] at hr
  · obtain rfl : t = c := Option.some.inj (hcur.symm.trans hc)
    obtain rfl : t = p := Option.some.inj (hpick.symm.trans hp)
    rw [hplan]
    exact ⟨fun hne => absurd rfl hne, fun _ => hpend⟩
  · simp [hplan, hact] at ha
  · rw [hplan]
    exact ⟨hpend, hact⟩

end Launched

/-! ## A start that is taken back -/

theorem dispatched_task (k : Kernel) (t u : TaskId) :
    (k.tasks u).SameButRelease ((k.dispatched t).tasks u) := by
  rcases eq_or_ne u t with rfl | hu
  · have hself : (k.dispatched u).tasks u = runtimeTaskStarted k.currentTick (k.tasks u) := by
      simp [Kernel.dispatched, Kernel.count]
    rw [hself]
    rfl
  · have hother : (k.dispatched t).tasks u = k.tasks u := by
      simp [Kernel.dispatched, Kernel.count, hu]
    rw [hother]
    exact .refl _

theorem dispatched_state (k : Kernel) (t u : TaskId) :
    ((k.dispatched t).tasks u).state = (k.tasks u).state := by rw [dispatched_task k t u]

theorem Unstarted.dispatched (h : Unstarted cfg k) (t : TaskId) :
    Unstarted cfg (k.dispatched t) := by
  have hst := dispatched_state k t
  have hprio : (k.dispatched t).prio = k.prio := by
    funext u
    simp only [Kernel.prio]
    rw [dispatched_task k t u]
  constructor
  · exact h.lifecycle
  · exact fun u => (h.tasks u).of_state (by rw [hst]; exact dispatched_task k t u) (by rw [hst])
      (by rw [hst])
  · intro u
    obtain ⟨h1, h2, h3, h4, h5⟩ := h.plain u
    rw [dispatched_task k t u]
    exact ⟨h1, h2, h3, h4, h5⟩
  · exact fun u => by rw [hst]; exact h.state u
  · rw [hprio]
    exact h.ready.congr (fun u => by simp only [Tcb.Runnable, hst]) fun _ => rfl
  · exact fun hr u => by rw [hst]; exact h.reset hr u
  · intro hr
    rw [hst, hst]
    exact h.named hr
  · exact h.still
  · exact h.delayQueue
  · exact h.semaphores
  · exact h.mutexes

theorem Pool.dispatched (h : Pool cfg k) (ht : (k.tasks t).state ≠ .dormant) :
    Pool cfg (k.dispatched t) := by
  have hst := dispatched_state k t
  constructor
  · intro u hd
    rw [hst] at hd
    have hne : u ≠ t := by
      rintro rfl
      exact ht hd
    simpa [Kernel.dispatched, Kernel.count, hne] using h.fresh u hd
  · exact fun i => by rw [hst]; exact h.taken i
  · exact h.count_le
  · exact h.hint
  · intro u hd
    have hslice : ((k.dispatched t).tasks u).sliceRemaining = (k.tasks u).sliceRemaining := by
      rcases eq_or_ne u t with rfl | hu
      · simp [Kernel.dispatched, Kernel.count, runtimeTaskStarted]
      · simp [Kernel.dispatched, Kernel.count, hu]
    rw [hst] at hd
    rw [hslice]
    exact h.slice u hd

/-! ## `rts_start` -/

/-- A start makes the pick run; a failed one leaves at most the record of a dispatch. -/
structure Launches (cfg : Config) (k : Kernel) (status : Status) (k' : Kernel) : Prop where
  starts : Starts cfg k k' ∨ k' = k
  failed : status ≠ .ok → k' = k ∨ ∃ t, policyPickNext cfg k = some t ∧ k' = k.dispatched t
  done : status = .ok → ∃ t, Launched cfg k t k'

/-- The selected task has been made current. -/
def Kernel.establish (k : Kernel) (t : TaskId) : Kernel :=
  ({ k with currentTask := some t }).updateTask t fun task => { task with state := .running }

theorem wp_schedulerCurrentEstablish {Q : Bool → Kernel → Prop} (h : Unstarted cfg k)
    (hp : Pool cfg k) (hl : k.lifecycle = .initialized) (hpick : policyPickNext cfg k = some t)
    (hready : (k.tasks t).state = .ready) (hQ : Q true (k.establish t))
    (hE : ∀ site k, ¬ site.Excluded owns → ¬ site.Outgoing → E (.assertion site) k) :
    wp (schedulerCurrentEstablish cfg t) Q E k := by
  have hinv : Inv cfg k.currentTick noneStale k := h.inv
  have hslice := hp.slice t (by simp [hready])
  unfold schedulerCurrentEstablish
  rw [wp_bind, wp_get, wp_bind, wp_rtsAssert_of hl, wp_bind, wp_rtsAssert_of h.still.1, wp_ite,
    if_neg (by simp [hl, h.still.1]), wp_bind]
  refine wp_select hinv (by simp [hl]) (fun p hp' _ => ?_)
    fun _ _ => hE _ _ (by simp [Site.Excluded]) (by simp [Site.Outgoing])
  obtain rfl : t = p := Option.some.inj (hpick.symm.trans hp')
  rw [wp_bind, wp_get, wp_bind, wp_rtsAssert_of rfl, wp_bind, wp_rtsAssert_of hready, wp_ite,
    if_neg (by simp [hready]), wp_bind, wp_modify, wp_bind, wp_get, wp_bind, wp_fatalUnless]
  have heq : (({ k with currentTask := some t }).updateTask t fun task =>
      { task with state := .running, sliceRemaining := cfg.timeSliceTicks }) = k.establish t := by
    simp [Kernel.establish, Kernel.updateTask, ← hslice]
  rw [heq]
  refine ⟨fun _ => ?_, fun _ => hE _ _ (by simp [Site.Excluded]) (by simp [Site.Outgoing])⟩
  rw [wp_pure]
  exact hQ

/-- The kernel once the first task has been dispatched. -/
def Kernel.launch (k : Kernel) (t : TaskId) : Kernel :=
  { (k.establish t).dispatched t with lifecycle := .running }

theorem launched_launch (hl : k.lifecycle = .initialized) (hpick : policyPickNext cfg k = some t)
    (hready : (k.tasks t).state = .ready) : Launched cfg k t (k.launch t) := by
  refine ⟨hl, hpick, hready, rfl, fun u => ?_⟩
  have htask : (k.launch t).tasks u = ((k.establish t).dispatched t).tasks u := rfl
  have hest : (k.establish t).tasks u =
      { k.tasks u with state := if u = t then .running else (k.tasks u).state } := by
    rcases eq_or_ne u t with rfl | hu
    · simp [Kernel.establish]
    · simp [Kernel.establish, hu]
  rw [htask, ← hest]
  exact dispatched_task _ t u

/-- Releasing the first task takes the launch back. -/
theorem launch_released (hl : k.lifecycle = .initialized) (hcur : k.currentTask = none)
    (hready : (k.tasks t).state = .ready) :
    (({ k.launch t with lifecycle := .initialized, currentTask := none }).updateTask t fun task =>
      { task with state := .ready }) = k.dispatched t := by
  have htasks : Function.update (k.launch t).tasks t
      { (k.launch t).tasks t with state := .ready } = (k.dispatched t).tasks := by
    funext u
    rcases eq_or_ne u t with rfl | hu
    · simp [Kernel.launch, Kernel.establish, Kernel.dispatched, Kernel.count, runtimeTaskStarted,
        ← hready]
    · simp [Kernel.launch, Kernel.establish, Kernel.dispatched, Kernel.count, hu]
  have hback : { k.launch t with
      lifecycle := .initialized
      currentTask := none
      tasks := (k.dispatched t).tasks } = k.dispatched t := by
    rw [← hl, ← hcur]
    rfl
  rw [← htasks] at hback
  exact hback

theorem wp_startRollback {Q : Unit → Kernel → Prop} (hl : k.lifecycle = .initialized)
    (hcur : k.currentTask = none) (hready : (k.tasks t).state = .ready)
    (hQ : Q () (k.dispatched t))
    (hE : ∀ site k, ¬ site.Excluded owns → ¬ site.Outgoing → E (.assertion site) k) :
    wp (startRollback cfg) Q E (k.launch t) := by
  have hstate : ((k.launch t).tasks t).state = .running := by
    simp [Kernel.launch, Kernel.establish, Kernel.dispatched, Kernel.count, runtimeTaskStarted]
  have hstartup : ∀ k, E (.assertion .startup) k := fun k =>
    hE _ _ (by simp [Site.Excluded]) (by simp [Site.Outgoing])
  unfold startRollback schedulerCurrentReleaseInitial
  rw [wp_bind, wp_modify, wp_bind, wp_bind, wp_get, wp_bind, wp_rtsAssert_of rfl]
  have hsome : (k.launch t).currentTask = some t := rfl
  simp only [hsome]
  rw [wp_bind, wp_rtsAssert_of hstate, wp_ite, if_neg (by simp [hstate]), wp_bind, wp_modify,
    launch_released hl hcur hready, wp_bind, wp_get, wp_bind, wp_fatalUnless]
  refine ⟨fun _ => ?_, fun _ => hE _ _ (by simp [Site.Excluded]) (by simp [Site.Outgoing])⟩
  rw [wp_pure, wp_bind, wp_fatalUnless]
  refine ⟨fun _ => ?_, fun _ => hstartup _⟩
  rw [wp_bind, wp_get, wp_bind, wp_fatalUnless]
  refine ⟨fun _ => ?_, fun _ => hstartup _⟩
  rw [wp_fatalUnless]
  exact ⟨fun _ => hQ, fun _ => hstartup _⟩

theorem wp_startDispatch {tickOk firstTaskOk : Bool} {Q : Status → Kernel → Prop}
    (hl : k.lifecycle = .initialized)
    (hcur : k.currentTask = none) (hready : (k.tasks t).state = .ready)
    (hok : Q .ok (k.launch t)) (hfail : Q .portError (k.dispatched t))
    (hE : ∀ site k, ¬ site.Excluded owns → ¬ site.Outgoing → E (.assertion site) k) :
    wp (startDispatch cfg tickOk firstTaskOk) Q E (k.establish t) := by
  have hsome : (k.establish t).currentTask = some t := rfl
  unfold startDispatch
  rw [wp_bind, wp_get]
  simp only [hsome]
  rw [wp_bind, wp_modify, wp_bind, wp_modify]
  change wp _ Q E (k.launch t)
  rw [wp_bind, wp_get, wp_bind, wp_fatalUnless]
  refine ⟨fun _ => ?_, fun _ => hE _ _ (by simp [Site.Excluded]) (by simp [Site.Outgoing])⟩
  rw [wp_ite]
  split
  · rw [wp_bind]
    exact wp_startRollback hl hcur hready hfail hE
  · exact hok

theorem start_spec {isr tickOk firstTaskOk : Bool} (h : KernelOk cfg k) (ht : TimersOk cfg k)
    (hp : k.lifecycle ≠ .running → Pool cfg k) :
    wp (start cfg isr tickOk firstTaskOk) (Launches cfg k)
      (Tolerated k.CurrentReady k.IdleOwns) k := by
  have hrefuse : ∀ status, status ≠ .ok → Launches cfg k status k := fun status hs =>
    ⟨.inr rfl, fun _ => .inl rfl, fun hok => absurd hok hs⟩
  have hE : ∀ site k', ¬ site.Excluded k.IdleOwns → ¬ site.Outgoing →
      Tolerated k.CurrentReady k.IdleOwns (.assertion site) k' :=
      fun site k' h1 h2 => ⟨h1, fun h => absurd h h2⟩
  unfold start
  split
  · rw [wp_bind, wp_rtsAssert]
    exact ⟨fun _ => hrefuse _ (by simp), fun _ => tolerated_startup _ _ _⟩
  rw [wp_bind, wp_get]
  cases hl : k.lifecycle with
  | reset => exact hrefuse _ (by simp)
  | running => exact hrefuse _ (by simp)
  | initialized =>
    have hrun : k.lifecycle ≠ .running := by simp [hl]
    have hun := h.inv.unstarted hrun
    have hpool := hp hrun
    simp only []
    rw [wp_bind, wp_rtsAssert]
    refine ⟨fun _ => ?_, fun _ => tolerated_startup _ _ _⟩
    rw [wp_ite]
    split
    · exact hrefuse _ (by simp)
    rw [wp_bind]
    refine wp_select h.inv (by simp [hl]) (fun t hpick hrunnable => ?_)
      fun _ _ => hE _ _ (by simp [Site.Excluded]) (by simp [Site.Outgoing])
    have hready : (k.tasks t).state = .ready :=
      hun.runnable_iff.mp (h.inv.pick_runnable hpick)
    simp only []
    rw [wp_bind, wp_fatalUnless_of hready, wp_bind, wp_fatalUnless_of hrunnable, wp_bind]
    refine wp_schedulerCurrentEstablish hun hpool hl hpick hready ?_ hE
    rw [wp_ite, if_neg (by simp)]
    refine wp_startDispatch hl hun.still.1 hready ?_ ?_ hE
    · have hlaunched := launched_launch hl hpick hready
      exact ⟨.inl (hlaunched.starts hun ht), by simp, fun _ => ⟨t, hlaunched⟩⟩
    · have htimers : SameTimers k (k.dispatched t) :=
        ⟨rfl, id, fun hb => dispatched_state k t _ ▸ hb⟩
      have hpool' := hpool.dispatched (t := t) (by simp [hready])
      exact ⟨.inl ((hun.dispatched t).starts_same hrun htimers ht hpool'),
        fun _ => .inr ⟨t, hpick, rfl⟩, by simp⟩

end RtsKernel
