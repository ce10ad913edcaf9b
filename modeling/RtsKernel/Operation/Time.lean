import RtsKernel.Operation.Expiry
import RtsKernel.Operation.Mutex
import RtsKernel.Operation.Semaphore
import RtsKernel.Operation.Task

/-!
# Time advance

`rts_kernel_time_advance_common` in its four parts: the waits that expire, the timers that expire,
the time slice, and the selection. The delay loop runs while the window of the delay queue still
starts at the old tick; afterwards nothing due is left and the window can be moved.
-/

namespace RtsKernel

open Halting Prog

variable {cfg : Config} {base now elapsed : Tick} {stale : TaskId → Prop} {k k₁ k₂ k' k'' : Kernel}
  {t u c : TaskId} {b : Bool} {result : WaitResult} {E : Fatal → Kernel → Prop}

/-! ## The end of one wait -/

theorem Inv.blocked_of_mem_delayQueue (h : Inv cfg base stale k) (ht : t ∈ k.delayQueue) :
    (k.tasks t).state = .blocked ∧ t.IsApplication cfg := by
  obtain ⟨hb, htimed⟩ := h.mem_delayQueue.mp ht
  refine ⟨hb, ?_⟩
  cases ((h.tasks t).waits hb).2 with
  | delay happ => exact happ
  | semaphore _ happ => exact happ
  | mutex _ happ => exact happ
  | service _ hr _ hto => simp [hr, hto] at htimed

theorem wp_delayExpireTask {Q : Bool → Kernel → Prop} (h : Inv cfg base stale k)
    (ht : t ∈ k.delayQueue) (hr : (k.tasks t).wait.reason = .delay)
    (hQ : ∀ k', Wakes cfg k k' t .none → KeepsOwners k k' → Inv cfg base stale k' → Q true k') :
    wp (delayExpireTask cfg t) Q E k := by
  obtain ⟨hb, happ⟩ := h.blocked_of_mem_delayQueue ht
  have hl := h.running_of_blocked hb happ.ne_timerService
  have hnone : (k.tasks t).waitOwner = none := by
    cases ((h.tasks t).waits hb).2 with
    | delay _ _ _ _ hwo => exact hwo
    | semaphore _ _ hr' => simp [hr] at hr'
    | mutex _ _ hr' => simp [hr] at hr'
    | service _ hr' => simp [hr] at hr'
  have hdet : Detached k { k with delayQueue := k.delayQueue.erase t } t := by
    refine ⟨rfl, rfl, rfl, rfl, rfl, rfl, ?_, fun u hu => ⟨.refl _, le_rfl⟩, rfl, fun o => ?_,
      fun i => rfl⟩
    · rw [← hnone]
      exact .refl _
    · have hnot : t ∉ k.waiters o := by
        rw [h.wait.mem]
        simp [Kernel.waitOwners, hnone]
      rw [List.erase_of_not_mem hnot]
      cases o <;> rfl
  unfold delayExpireTask
  rw [wp_bind]
  apply wp_delayRemove ht
  have hgone : t ∉ k.delayQueue.erase t := h.delay.nodup.not_mem_erase
  rw [wp_bind, wp_get, wp_bind, wp_fatalUnless_of hgone, wp_bind]
  apply hdet.wp_releaseTask h hb
  intro k₁ hw ho
  simp only [wp_bind, wp_modify, wp_get]
  have hown : KeepsOwners k k₁ := ⟨ho.mutexes, ho.tasks⟩
  have hinv : Inv cfg base stale (k₁.count fun c =>
      { c with delayWakeups := diagnosticCounterIncrement c.delayWakeups }) := by
    refine h.wakes_keepsOwners hl hb (hw.count _) (hown.count _) fun u hu => hu.resolve_right ?_
    rw [awaits_eq_none (.inr (by simp [hr]))]
    simp
  have hrun := hinv.taskIsRunnable_iff.mpr ⟨(hw.count _).runnable, fun hi => absurd hi happ.ne_idle⟩
  rw [wp_fatalUnless_of hrun, wp_pure]
  exact hQ _ (hw.count _) (hown.count _) hinv

/-- A wait whose deadline is reached ends with its own result; a mutex waiter takes its demand
back. -/
theorem wp_tickWakeTask {Q : Bool → Kernel → Prop} (h : Inv cfg base noneStale k)
    (ht : t ∈ k.delayQueue)
    (hQ : ∀ k₁ k', Wakes cfg k k₁ t (k.tasks t).wait.expiryResult → KeepsOwners k k₁ →
      Repriced .down k₁ k' → Inv cfg base noneStale k' → Q true k')
    (hE : k.IdleOwns → ∀ k', E (.assertion (.recomputeChain .idle)) k') :
    wp (tickWakeTask cfg t) Q E k := by
  obtain ⟨hb, happ⟩ := h.blocked_of_mem_delayQueue ht
  have hl := h.running_of_blocked hb happ.ne_timerService
  have hidle : k.idleTask ≠ some t := by
    rw [h.phase.idleTask (by simp [hl])]
    simpa using happ.ne_idle.symm
  have htimed := (h.mem_delayQueue.mp ht).2
  have hvalid : TickExpiredTaskIsValid cfg k t := by
    refine ⟨hidle, (h.taskIsBlocked hb).imp And.right fun ⟨hr, hw⟩ => ⟨hw, ?_⟩⟩
    exact htimed.resolve_left hr
  unfold tickWakeTask
  rw [wp_bind, wp_get, wp_bind, wp_fatalUnless_of hvalid, wp_ite]
  split <;> rename_i hsem
  · have hto : (k.tasks t).wait.timeoutActive = true := htimed.resolve_left (by simp [hsem])
    have hwait : TaskIsBlockedWait cfg k t :=
      (h.taskIsBlocked hb).elim (fun hd => by simp [hsem] at hd) And.right
    unfold semaphoreTimeoutTask
    rw [wp_bind, wp_get, wp_ite, if_neg (by simp [hwait, hto]), wp_bind]
    apply wp_semaphoreMakeReady h hb hsem
    intro k₁ hw ho hinv
    rw [wp_pure]
    exact hQ k₁ k₁ (by simpa [Wait.expiryResult, hsem] using hw) ho (.refl _ _) hinv
  rw [wp_ite]
  split <;> rename_i hmut
  · have hto : (k.tasks t).wait.timeoutActive = true := htimed.resolve_left (by simp [hmut])
    apply wp_mutexTimeoutTask h hb hmut hto
    · intro k₁ k' hw
      exact hQ k₁ k' (by simpa [Wait.expiryResult, hmut] using hw)
    · exact hE
  · have hdelay : (k.tasks t).wait.reason = .delay := by
      cases ((h.tasks t).waits hb).2 with
      | delay _ hr => exact hr
      | semaphore _ _ hr => exact absurd hr hsem
      | mutex _ _ hr => exact absurd hr hmut
      | service ht => exact absurd ht happ.ne_timerService
    apply wp_delayExpireTask h ht hdelay
    intro k₁ hw ho hinv
    exact hQ k₁ k₁ (by simpa [Wait.expiryResult, hdelay] using hw) ho (.refl _ _) hinv

/-! ## The delay loop -/

theorem Expired.nil (k : Kernel) : Expired cfg k k [] where
  rest := rfl
  currentTask := rfl
  switchPlan := rfl
  requests := rfl
  delayQueue := rfl
  ended t ht := by simp at ht
  executing t ht := by simp at ht
  kept _ _ := ⟨rfl, rfl⟩
  owners _ := rfl
  semaphores _ := rfl
  waiters o u := by simp
  prio_le _ := le_rfl
  fifo := .refl k
  turns := .refl _ _

theorem Expired.cons {l woken : List TaskId} (hk : Inv cfg base stale k)
    (hq : k.delayQueue = t :: l) (hw : Wakes cfg k k₁ t (k.tasks t).wait.expiryResult)
    (ho : KeepsOwners k k₁) (hp : Repriced .down k₁ k₂) (h : Expired cfg k₂ k' woken) :
    Expired cfg k k' (t :: woken) := by
  have hmem : t ∈ k.delayQueue := by simp [hq]
  have happ := (hk.blocked_of_mem_delayQueue hmem).2
  have hl : k₂.delayQueue = l := by
    rw [hp.delayQueue, hw.delayQueue, hq]
    simp
  have hnodup : t ∉ l := by
    have := hk.delay.nodup
    rw [hq] at this
    exact (List.nodup_cons.mp this).1
  have hsub : ∀ u ∈ woken, u ∈ l := by
    intro u hu
    rw [← hl, h.delayQueue]
    simp [hu]
  have hself : t ∉ woken := fun hin => hnodup (hsub t hin)
  have hne : ∀ u ∈ woken, u ≠ t := by
    rintro u hu rfl
    exact hself hu
  have hsame :
      ∀ u, (k₂.tasks u).wait = (k₁.tasks u).wait ∧ (k₂.tasks u).state = (k₁.tasks u).state := by
    intro u
    rw [hp.tasks u]
    exact ⟨rfl, rfl⟩
  have hothers : ∀ u, u ≠ t → (k₂.tasks u).wait = (k.tasks u).wait ∧
      (k₂.tasks u).state = (k.tasks u).state := by
    intro u hu
    rw [(hsame u).1, (hsame u).2, (hw.others u hu).1]
    exact ⟨rfl, rfl⟩
  have hcur : k₂.currentTask = k.currentTask := hp.currentTask.trans hw.currentTask
  have hwaiters : ∀ o u, u ∈ k₂.waiters o ↔ u ∈ k.waiters o ∧ u ≠ t := fun o u =>
    (hp.waiters o u).trans (hw.mem_waiters hk.wait o u)
  have hdown : ∀ u, Direction.down.Le (k.prio u) (k₂.prio u) := by
    intro u
    rw [← hw.prio_eq]
    exact hp.direction u
  have hfifo : Fifo k k₂ := by
    refine hw.fifo.trans hp.fifo (fun u => ?_) hp.direction
      fun o b hb hnot => absurd ((hp.waiters o b).mp hb) hnot
    rw [hw.prio_eq]
    exact .refl _ _
  have hturns : KeepsTurns k k₂ := by
    refine hw.turns.trans hp.turns fun u _ => ?_
    rw [hw.prio_eq]
  constructor
  · exact h.rest.trans (hp.rest.trans hw.rest)
  · exact h.currentTask.trans hcur
  · exact h.switchPlan.trans (hp.switchPlan.trans hw.switchPlan)
  · exact h.requests.trans (hp.requests.trans hw.requests)
  · rw [hq, ← hl, h.delayQueue]
    rfl
  · intro u hu
    obtain rfl | hu := List.mem_cons.mp hu
    · obtain ⟨hwait, hstate⟩ := h.kept u hself
      refine ⟨?_, ?_⟩
      · unfold Tcb.Runnable
        rw [hstate, (hsame u).2]
        exact hw.runnable
      · rw [hwait, (hsame u).1, hw.wait.2.2.2]
    · obtain ⟨hrun, hres⟩ := h.ended u hu
      rw [(hothers u (hne u hu)).1] at hres
      exact ⟨hrun, hres⟩
  · intro u hu hc
    obtain rfl | hu := List.mem_cons.mp hu
    · rw [(h.kept u hself).2, (hsame u).2]
      exact hw.executing happ.ne_timerService hc
    · exact h.executing u hu (hcur.trans hc)
  · intro u hu
    obtain ⟨hut, hu⟩ : u ≠ t ∧ u ∉ woken := by simpa using hu
    obtain ⟨hwait, hstate⟩ := h.kept u hu
    obtain ⟨hwait₂, hstate₂⟩ := hothers u hut
    exact ⟨hwait.trans hwait₂, hstate.trans hstate₂⟩
  · intro m
    rw [h.owners m, hp.mutexes m]
    exact ho.owner m
  · exact fun i => ((hw.semaphores i).trans (hp.semaphores i)).trans (h.semaphores i)
  · intro o u
    rw [h.waiters o u, hwaiters o u]
    simp [and_assoc]
  · exact fun u => (h.prio_le u).trans (hdown u)
  · refine hfifo.trans h.fifo hdown h.prio_le fun o b hb hnot => ?_
    exact absurd ((h.waiters o b).mp hb).1 hnot
  · exact hturns.trans h.turns fun u => (hdown u).squeeze (h.prio_le u)

theorem head_of_delayPeekExpired (h : delayPeekExpired k now = some t) :
    k.delayQueue.head? = some t ∧ tickReached now (k.wake t) := by
  unfold delayPeekExpired at h
  cases hq : k.delayQueue with
  | nil => simp [hq] at h
  | cons a l =>
    simp only [hq] at h
    split at h <;> simp_all

/-- The loop ends the waits that are due, in the order of the delay queue, and leaves no task in it
that is due. -/
theorem wp_delayLoop {Q : Option (List TaskId) → Kernel → Prop} {fuel : Nat}
    (h : Inv cfg base noneStale k) (hfuel : k.delayQueue.length ≤ fuel)
    (hQ : ∀ k' woken, Expired cfg k k' woken →
      (∀ t ∈ woken, tickReached k.currentTick (k.wake t)) →
      delayPeekExpired k' k.currentTick = none → (woken = [] → k' = k) →
      Inv cfg base noneStale k' → Q (some woken) k')
    (hE : k.IdleOwns → ∀ k', E (.assertion (.recomputeChain .idle)) k') :
    wp (delayLoop cfg fuel) Q E k := by
  induction fuel generalizing k Q with
  | zero =>
    have hnil : k.delayQueue = [] := List.length_eq_zero_iff.mp (by omega)
    have hpeek : delayPeekExpired k k.currentTick = none := by simp [delayPeekExpired, hnil]
    simp only [delayLoop, wp_bind, wp_get, hpeek, wp_pure]
    exact hQ k [] (.nil k) (by simp) hpeek (fun _ => rfl) h
  | succ fuel ih =>
    simp only [delayLoop, wp_bind, wp_get]
    cases hpeek : delayPeekExpired k k.currentTick with
    | none =>
      simp only [wp_pure]
      exact hQ k [] (.nil k) (by simp) hpeek (fun _ => rfl) h
    | some t =>
      obtain ⟨hhead, hreached⟩ := head_of_delayPeekExpired hpeek
      obtain ⟨l, hq⟩ : ∃ l, k.delayQueue = t :: l := by
        cases hk : k.delayQueue with
        | nil => simp [hk] at hhead
        | cons a l => exact ⟨l, by simp_all⟩
      simp only [wp_bind]
      apply wp_tickWakeTask h (by simp [hq])
      · intro k₁ k₂ hw ho hp hinv
        have hone := Expired.cons h hq hw ho hp (.nil k₂)
        have htick : k₂.currentTick = k.currentTick := Kernel.of_rest Kernel.currentTick hone.rest
        have hl : k₂.delayQueue = l := by simpa [hq] using hone.delayQueue.symm
        rw [wp_ite, if_neg (by simp), wp_bind]
        apply ih hinv
        · rw [hl]
          simp [hq] at hfuel
          exact hfuel
        · intro k' woken hexp hdue hend _ hinv'
          rw [wp_pure]
          refine hQ k' (t :: woken) (.cons h hq hw ho hp hexp) ?_ (htick ▸ hend) (by simp) hinv'
          intro u hu
          rcases eq_or_ne u t with rfl | hut
          · exact hreached
          · have hin : u ∈ woken := by simpa [hut] using hu
            have := hdue u hin
            rw [htick] at this
            simpa only [Kernel.wake, (hone.kept u (by simpa using hut)).1] using this
        · rintro ⟨m, hm⟩
          exact hE ⟨m, (hone.owners m).symm.trans hm⟩
      · exact hE

/-- Once nothing due is left, the window of the delay queue starts at the new tick. -/
theorem Inv.rebase (h : Inv cfg base stale k) (he : elapsed ≤ delayMax)
    (hend : delayPeekExpired k (base + elapsed) = none) : Inv cfg (base + elapsed) stale k := by
  have hfar : ∀ u ∈ k.delayQueue, elapsed.toNat < distance base (k.wake u) := by
    cases hq : k.delayQueue with
    | nil => simp
    | cons a l =>
      have ha : ¬ tickReached (base + elapsed) (k.wake a) := by
        simpa [delayPeekExpired, hq] using hend
      have hwin : InWindow base (k.wake a) := h.delay.window a ((h.delay.mem a).mp (by simp [hq]))
      rw [tickReached_add_iff he hwin.2] at ha
      have hsorted := h.delay.sorted
      rw [hq] at hsorted
      intro u hu
      obtain rfl | hu := List.mem_cons.mp hu
      · omega
      · have := (List.pairwise_cons.mp hsorted).1 u hu
        omega
  have hdist : ∀ u ∈ k.delayQueue,
      distance (base + elapsed) (k.wake u) = distance base (k.wake u) - elapsed.toNat :=
    fun u hu => distance_add (hfar u hu).le
  refine { h with delay := ⟨h.delay.nodup, h.delay.mem, fun u hu => ?_, ?_⟩ }
  · have hin := (h.delay.mem u).mpr hu
    have hwin := h.delay.window u hu
    have := hfar u hin
    unfold InWindow at *
    rw [hdist u hin]
    omega
  · refine h.delay.sorted.imp_of_mem fun {a b} ha hb hab => ?_
    rw [hdist a ha, hdist b hb]
    omega

/-- Exactly the tasks that are due have been woken. -/
theorem Expired.exact {woken : List TaskId} (h : Expired cfg k k' woken) (hk : Inv cfg base stale k)
    (hk' : Inv cfg base stale k') (he : elapsed ≤ delayMax)
    (hdue : ∀ t ∈ woken, tickReached (base + elapsed) (k.wake t))
    (hend : delayPeekExpired k' (base + elapsed) = none) (ht : t ∈ k.delayQueue) :
    t ∈ woken ↔ distance base (k.wake t) ≤ elapsed.toNat := by
  have hwin : InWindow base (k.wake t) := hk.delay.window t ((hk.delay.mem t).mp ht)
  rw [← tickReached_add_iff he hwin.2]
  refine ⟨hdue t, fun hreached => ?_⟩
  by_contra hnot
  have hin : t ∈ k'.delayQueue := by
    rw [h.delayQueue] at ht
    exact (List.mem_append.mp ht).resolve_left hnot
  have hwake : k'.wake t = k.wake t := by rw [Kernel.wake, (h.kept t hnot).1]
  have hahead := (hk'.rebase he hend).delay.window t ((hk'.delay.mem t).mp hin)
  rw [hwake] at hahead
  exact not_tickReached_of_inWindow hahead hreached

theorem Expired.currentReady {woken : List TaskId} (h : Expired cfg k k' woken)
    (hr : k'.CurrentReady) : k.CurrentReady := by
  obtain ⟨c, hc, hst⟩ := hr
  rw [h.currentTask] at hc
  have hnot : c ∉ woken := fun hin => by simp [h.executing c hin hc] at hst
  exact ⟨c, hc, (h.kept c hnot).2 ▸ hst⟩

theorem Expired.service {woken : List TaskId} (h : Expired cfg k k' woken)
    (hk : Inv cfg base stale k) :
    (k'.tasks .timerService).state = (k.tasks .timerService).state := by
  refine (h.kept _ fun hin => ?_).2
  exact hk.service_unlinked.1 (h.delayQueue ▸ List.mem_append_left _ hin)

theorem Expired.keepsReady {woken : List TaskId} (h : Expired cfg k k' woken)
    (hk : Inv cfg base stale k) : KeepsReady k k' := by
  intro u hu
  have hnot : u ∉ woken := by
    intro hin
    have hb := (hk.blocked_of_mem_delayQueue (h.delayQueue ▸ List.mem_append_left _ hin)).1
    simp [hb] at hu
  rw [(h.kept u hnot).2]
  exact hu

/-! ## The time slice -/

/-- The slice of the current task is counted down, or it has been moved behind its equals. -/
theorem wp_policyTick_requeued {Q : Bool → Kernel → Prop} (h : Inv cfg base stale k)
    (hc : k.currentTask = some c)
    (hQ : ∀ k' b, Requeued cfg k k' c → (b = false → SameSchedule k k') → Q b k') :
    wp (policyTick cfg elapsed) Q E k := by
  have hmoved : ∀ rs er sequence task, (k.tasks c).SameButRelease task →
      ReadyOk cfg rs er k.prio (fun u => (k.tasks u).Runnable) →
      Requeued cfg k (k.requeue c rs er sequence task) c := by
    intro rs er sequence task hsame hready
    refine ⟨rfl, ?_, fun u hu => ?_, hready⟩
    · simpa using hsame
    · simp [hu]
  have hslice : ∀ task, (k.tasks c).SameButRelease task → SameSchedule k
      (k.requeue c k.readySet k.edfReady k.policyReleaseSequence task) := by
    intro task hsame
    refine ⟨rfl, rfl, rfl, rfl, fun u => ?_⟩
    rcases eq_or_ne u c with rfl | hu
    · simp only [Kernel.requeue_tasks, Function.update_self]
      rw [hsame]
    · simp [hu]
  apply wp_policyTick h.ready fun c' _ hrun => .inr hrun
  · refine hQ k false ?_ fun _ => ⟨rfl, rfl, rfl, rfl, fun _ => rfl⟩
    exact ⟨rfl, .refl _, fun _ _ => rfl, h.ready⟩
  · intro c' task hc' hsame
    obtain rfl : c = c' := Option.some.inj (hc.symm.trans hc')
    exact hQ _ false (hmoved _ _ _ _ hsame h.ready) fun _ => hslice task hsame
  · intro c' rs er sequence task hc' hsame hready
    obtain rfl : c = c' := Option.some.inj (hc.symm.trans hc')
    exact hQ _ true (hmoved rs er sequence task hsame hready) (by simp)

/-! ## Selection -/

theorem tolerated_tickOutgoing {ready owns : Prop} (h : ready) (k : Kernel) :
    Tolerated ready owns (.assertion .tickOutgoing) k := ⟨by simp [Site.Excluded], fun _ => h⟩

theorem wp_planAfterTick {Q : Bool → Kernel → Prop} (h : Inv cfg base stale k) (hs : ¬ stale .idle)
    (hc : k.currentTask = some c) (hQ : ∀ b k', Planned cfg k k' b → Q b k')
    (hE : policyPickNext cfg k = some .idle → (k.tasks .idle).priority ≠ 0 →
      E (.assertion .selectRunnable) k)
    (hE' : k.CurrentReady → E (.assertion .prepareOutgoing) k ∧ E (.assertion .tickOutgoing) k) :
    wp (planAfterTick cfg) Q E k := by
  have hl := h.running_of_current hc
  unfold planAfterTick
  rw [wp_bind, wp_get]
  simp only [hc, wp_bind]
  apply wp_select h (by simp [hl]) _ hE
  intro p hp hrun
  have hprepare : wp (schedulerPrepareSwitch cfg (some p)) Q E k :=
    wp_prepareSwitch h hs hc hrun (fun hr hoff => hQ false k (.rejected hr hoff hp hrun))
      (fun b k' hprep hst => hQ b k' (.prepared c p hc hst hp hrun hprep)) fun hr _ => (hE' hr).1
  simp only [wp_ite]
  split <;> rename_i hpc
  · subst hpc
    rw [wp_bind]
    refine wp_prepareSwitch h hs hc hrun (fun hr hoff => ?_) (fun b k' hprep hst => ?_)
      fun hr _ => (hE' hr).1
    · rw [wp_pure]
      exact hQ false k (.rejected hr hoff hp hrun)
    · rw [wp_pure]
      exact hQ false k' (.prepared p p hc hst hp hrun (hprep.silent ▸ hprep))
  · split <;> rename_i hb
    · rw [wp_bind, wp_fatalUnless_of ((h.taskIsBlocked hb).imp And.right And.right)]
      exact hprepare
    · rw [wp_bind, wp_fatalUnless]
      refine ⟨fun hst => ?_, fun hst => (hE' ⟨c, hc, ?_⟩).2⟩
      · rw [wp_bind, wp_fatalUnless_of (h.currentIsValid hs hc hst)]
        exact hprepare
      · have hd := h.not_dormant_of_current hc
        cases hk : (k.tasks c).state <;> simp_all

/-! ## The advance -/

/-- The current task is the timer service, which has blocked, and a timer falls due: expiry makes
the service `READY` although it has not been switched out. -/
def Kernel.ServiceDue (k : Kernel) (elapsed : Tick) : Prop :=
  k.currentTask = some .timerService ∧ (k.tasks .timerService).state = .blocked ∧
  timerQueuePeekExpired k (k.currentTick + elapsed) ≠ none

instance (k : Kernel) (elapsed : Tick) : Decidable (k.ServiceDue elapsed) :=
  inferInstanceAs (Decidable (_ ∧ _ ∧ _))

/-- What an advance does to the clock, the waits and the timers. -/
structure Ticked (cfg : Config) (k : Kernel) (elapsed : Tick) (k' : Kernel) : Prop where
  timersOk : TimersOk cfg k'
  tick : k'.currentTick = k.currentTick + elapsed
  currentTask : k'.currentTask = k.currentTask
  ready : k'.CurrentReady → k.CurrentReady ∨ k.ServiceDue elapsed
  waits : ∃ k₁ woken, Expired cfg (k.elapse elapsed) k₁ woken ∧ SameWaits k₁ k' ∧
    ∀ t ∈ k.delayQueue, t ∈ woken ↔ distance k.currentTick (k.wake t) ≤ elapsed.toNat
  timer : ∀ i, k'.timers i = k.timers i ∨ (k.timers i).state = .active ∧
    tickReached (k.currentTick + elapsed) (k.expiration i) ∧
    k'.timers i = (k.timers i).expired (k.currentTick + elapsed)
  ahead : k.Ahead → k.Spread (k.currentTick + elapsed) → k'.Ahead
  queue : ∃ works, k'.callbackQueue = k.callbackQueue ++ works ∧
    k.Announces (k.currentTick + elapsed) works
  serviceWork : k'.serviceWork = k.serviceWork
  blocked : (k'.tasks .timerService).state = .blocked → (k.tasks .timerService).state = .blocked
  fifo : Fifo k k'

/-- Neither the order of the waiters nor the ready state of the current task depends on more. -/
structure SameOrder (k k' : Kernel) : Prop where
  waiters : k'.waiters = k.waiters
  prio : k'.prio = k.prio

theorem Fifo.sameOrder (h : Fifo k k') (hs : SameOrder k' k'') : Fifo k k'' := by
  unfold Fifo
  rw [hs.waiters, hs.prio]
  exact h

theorem Ticked.congr (h : Ticked cfg k elapsed k') (hrest : k''.rest = k'.rest)
    (hwaits : SameWaits k' k'') (horder : SameOrder k' k'')
    (hstate : ∀ u, (k''.tasks u).state = (k'.tasks u).state)
    (hcur : k''.currentTask = k'.currentTask) : Ticked cfg k elapsed k'' where
  timersOk := h.timersOk.congr hrest fun hb => .inl (hstate _ ▸ hb)
  tick := hwaits.tick.trans h.tick
  currentTask := hcur.trans h.currentTask
  ready := by
    rintro ⟨c, hc, hst⟩
    exact h.ready ⟨c, hcur ▸ hc, hstate c ▸ hst⟩
  waits := by
    obtain ⟨k₁, woken, hexp, hsame, hexact⟩ := h.waits
    exact ⟨k₁, woken, hexp, hsame.trans hwaits, hexact⟩
  timer := by
    have htimers : k''.timers = k'.timers := Kernel.of_rest Kernel.timers hrest
    rw [htimers]
    exact h.timer
  ahead ha hs := (h.ahead ha hs).congr hrest
  queue := by
    have hqueue : k''.callbackQueue = k'.callbackQueue := Kernel.of_rest Kernel.callbackQueue hrest
    rw [hqueue]
    exact h.queue
  serviceWork := (Kernel.of_rest Kernel.serviceWork hrest).trans h.serviceWork
  blocked hb := h.blocked (hstate _ ▸ hb)
  fifo := h.fifo.sameOrder horder

theorem Replanned.sameOrder (h : Replanned k k') : SameOrder k k' := by
  rw [h]
  refine ⟨?_, rfl⟩
  funext o
  cases o <;> rfl

theorem Ticked.replanned (h : Ticked cfg k elapsed k') (hr : Replanned k' k'') :
    Ticked cfg k elapsed k'' := by
  refine h.congr ?_ hr.sameWaits hr.sameOrder (fun u => ?_) ?_
  · rw [hr]
    rfl
  · rw [hr]
  · rw [hr]

theorem Ticked.requeued (h : Ticked cfg k elapsed k') (hr : Requeued cfg k' k'' c) :
    Ticked cfg k elapsed k'' :=
  h.congr hr.rest hr.sameWaits ⟨hr.waiters, hr.prio_eq⟩ hr.state (by rw [hr.frame])

/-! ### Expiry and the service -/

theorem Aside.sameOrder (h : Aside k k') : SameOrder k k' := by
  rw [h.same]
  refine ⟨?_, rfl⟩
  funext o
  cases o <;> rfl

theorem SameOrder.trans (h : SameOrder k k') (h' : SameOrder k' k'') : SameOrder k k'' :=
  ⟨h'.waiters.trans h.waiters, h'.prio.trans h.prio⟩

theorem ServiceWakes.sameOrder (h : ServiceWakes cfg k k') : SameOrder k k' := by
  refine ⟨?_, h.wakes.prio_eq⟩
  rw [h.frame]
  funext o
  cases o <;> rfl

theorem ServiceWakes.sameWaits (h : ServiceWakes cfg k k') : SameWaits k k' := by
  refine ⟨?_, fun t ht => ?_, ?_, fun m => ?_, fun i => ?_⟩
  · rw [h.frame]
  · rw [h.others t ht]
    exact ⟨rfl, Iff.rfl, id⟩
  · rw [h.frame]
  · rw [h.frame]
  · rw [h.frame]
    rfl

namespace ServiceRun

theorem sameOrder (h : ServiceRun cfg k k' b) : SameOrder k k' := by
  cases h with
  | quiet same => exact same.sameOrder
  | woken k₁ k₂ before _ wakes after =>
    exact (before.sameOrder.trans wakes.sameOrder).trans after.sameOrder

theorem turns (h : ServiceRun cfg k k' b) : KeepsTurns k k' := by
  cases h with
  | quiet same =>
    rw [same.same]
    exact .refl _ _
  | woken k₁ k₂ before blocked wakes after =>
    have hwake := wakes.wakes.turns
    rw [before.same] at hwake
    rw [after.same]
    exact hwake

theorem sameWaits (h : ServiceRun cfg k k' b) : SameWaits k k' := by
  cases h with
  | quiet same => exact same.same.sameWaits same.tick
  | woken k₁ k₂ before _ wakes after =>
    exact ((before.same.sameWaits before.tick).trans wakes.sameWaits).trans
      (after.same.sameWaits after.tick)

theorem currentTask (h : ServiceRun cfg k k' b) : k'.currentTask = k.currentTask := by
  cases h with
  | quiet same => rw [same.same]
  | woken k₁ k₂ before _ wakes after =>
    rw [after.same]
    exact wakes.wakes.currentTask.trans (by rw [before.same])

theorem switchPlan (h : ServiceRun cfg k k' b) : k'.switchPlan = k.switchPlan := by
  cases h with
  | quiet same => rw [same.same]
  | woken k₁ k₂ before _ wakes after =>
    rw [after.same]
    exact wakes.wakes.switchPlan.trans (by rw [before.same])

theorem requests (h : ServiceRun cfg k k' b) : k'.rescheduleRequests = k.rescheduleRequests := by
  cases h with
  | quiet same => exact same.requests
  | woken k₁ k₂ before _ wakes after =>
    exact after.requests.trans (wakes.wakes.requests.trans before.requests)

/-- The service apart, no task changes; the service can only become `READY`. -/
theorem tasks (h : ServiceRun cfg k k' b) (u : TaskId) : k'.tasks u = k.tasks u ∨
    b = true ∧ u = .timerService ∧ (k.tasks u).state = .blocked ∧ (k'.tasks u).state = .ready := by
  cases h with
  | quiet same => exact .inl (by rw [same.same])
  | woken k₁ k₂ before blocked wakes after =>
    have hbefore : k₁.tasks = k.tasks := by rw [before.same]
    have hafter : k'.tasks = k₂.tasks := by rw [after.same]
    rw [hafter]
    rcases eq_or_ne u .timerService with rfl | hu
    · exact .inr ⟨rfl, rfl, blocked, wakes.ready⟩
    · exact .inl (by rw [wakes.others u hu, hbefore])

theorem keepsReady (h : ServiceRun cfg k k' b) : KeepsReady k k' := by
  intro u hu
  rcases h.tasks u with hsame | ⟨-, -, hb, -⟩
  · rw [hsame]
    exact hu
  · simp [hb] at hu

theorem blocked (h : ServiceRun cfg k k' b) (hb : (k'.tasks u).state = .blocked) :
    (k.tasks u).state = .blocked := by
  rcases h.tasks u with hsame | ⟨-, -, -, hr⟩
  · exact hsame ▸ hb
  · simp [hr] at hb

theorem currentReady (h : ServiceRun cfg k k' b) (hr : k'.CurrentReady) : k.CurrentReady ∨
    b = true ∧ k.currentTask = some .timerService ∧ (k.tasks .timerService).state = .blocked := by
  obtain ⟨c, hc, hst⟩ := hr
  rw [h.currentTask] at hc
  rcases h.tasks c with hsame | ⟨hb, rfl, hblocked, -⟩
  · exact .inl ⟨c, hc, hsame ▸ hst⟩
  · exact .inr ⟨hb, hc, hblocked⟩

end ServiceRun

theorem SameTasks.elapse (k : Kernel) (elapsed : Tick) : SameTasks k (k.elapse elapsed) := rfl

/-- The waits and the timers that are due at the new tick have expired. -/
theorem Expired.ticked {woken : List TaskId} (h : Inv cfg k.currentTick noneStale k)
    (he : elapsed ≤ delayMax) (hexp : Expired cfg (k.elapse elapsed) k₁ woken)
    (hexact : ∀ t ∈ k.delayQueue, t ∈ woken ↔ distance k.currentTick (k.wake t) ≤ elapsed.toNat)
    (hrounds : Rounds cfg (k.currentTick + elapsed) k₁ k₂ b) (ht : TimersOk cfg k₂)
    (hend : timerQueuePeekExpired k₂ (k.currentTick + elapsed) = none) :
    Ticked cfg k elapsed k₂ := by
  have hk : Inv cfg k.currentTick noneStale (k.elapse elapsed) := h.sameTasks (.elapse k elapsed)
  have hrun := hrounds.service
  have htick : k₁.currentTick = k.currentTick + elapsed :=
    (Kernel.of_rest Kernel.currentTick hexp.rest :)
  have htimers : k₁.timers = k.timers := (Kernel.of_rest Kernel.timers hexp.rest :)
  have hactive : k₁.activeQueue = k.activeQueue := (Kernel.of_rest Kernel.activeQueue hexp.rest :)
  have hpeek : timerQueuePeekExpired k₁ = timerQueuePeekExpired k := by
    funext now
    unfold timerQueuePeekExpired
    rw [htimers, hactive]
  constructor
  · exact ht
  · exact hrun.sameWaits.tick.trans htick
  · exact hrun.currentTask.trans hexp.currentTask
  · intro hr
    rcases hrun.currentReady hr with hr₁ | ⟨rfl, hc, hb⟩
    · exact .inl (hexp.currentReady hr₁)
    · refine .inr ⟨hexp.currentTask ▸ hc, ?_, hpeek ▸ hrounds.peek rfl⟩
      exact (hexp.service hk) ▸ hb
  · exact ⟨k₁, woken, hexp, hrun.sameWaits, hexact⟩
  · have htimer := hrounds.timer
    simp only [Kernel.expiration, htimers] at htimer
    exact htimer
  · intro ha hs
    obtain ⟨due, ahead, hsift⟩ := Sifted.of_ahead ha he hs
    have hsift₁ : Sifted (k.currentTick + elapsed) k₁ due ahead := by
      obtain ⟨hq, hreached, hspread, hwindow, hsorted⟩ := hsift
      simp only [Kernel.expiration, ← htimers] at hreached hspread hwindow hsorted
      exact ⟨hactive.trans hq, hreached, hspread, hwindow, hsorted⟩
    exact hrounds.ahead hsift₁ hend (hrun.sameWaits.tick.trans htick)
  · obtain ⟨works, hq, hworks⟩ := hrounds.queue
    refine ⟨works,
      hq.trans (congrArg (· ++ works) (Kernel.of_rest Kernel.callbackQueue hexp.rest :)), ?_⟩
    simp only [Kernel.Announces, Kernel.expiration, htimers] at hworks
    exact hworks
  · exact hrounds.serviceWork.trans (Kernel.of_rest Kernel.serviceWork hexp.rest :)
  · exact fun hb => hexp.service hk ▸ hrun.blocked hb
  · have hfifo : Fifo k k₁ := hexp.fifo
    exact hfifo.sameOrder hrun.sameOrder

/-! ### The whole advance -/

/-- What an advance leaves behind, with its report to the port. -/
structure Advanced (cfg : Config) (k : Kernel) (elapsed : Tick) (report : Bool) (k' : Kernel) :
    Prop extends Ticked cfg k elapsed k' where
  ok : KernelOk cfg k'
  selected : SameSchedule k k' ∨ (¬ k'.CurrentReady → k'.Agrees cfg)
  replans : Replans k k'
  requests : k'.rescheduleRequests = k.rescheduleRequests
  reported : report = true ↔ k.Turns k'

theorem Ticked.planned (h : Ticked cfg k elapsed k') (hinv : Inv cfg k'.currentTick noneStale k')
    (hplan : k'.switchPlan = k.switchPlan) (hreq : k'.rescheduleRequests = k.rescheduleRequests)
    (hkeep : KeepsReady k k') (hp : Planned cfg k' k'' b) : Advanced cfg k elapsed b k'' := by
  have hok : KernelOk cfg k'' := by
    refine ⟨?_, hp.parked hinv⟩
    have htick : k''.currentTick = k'.currentTick := by rw [hp.replanned]
    rw [htick]
    exact hp.inv hinv
  refine ⟨h.replanned hp.replanned, hok, .inr hp.agrees, .of_planned hplan hkeep hp,
    hp.requests.trans hreq, ?_⟩
  rw [hp.reported]
  unfold Kernel.Turns
  rw [hplan]

theorem Ticked.unplanned (h : Ticked cfg k elapsed k') (hinv : Inv cfg k'.currentTick noneStale k')
    (hk : k.Parked) (hs : SameSchedule k k')
    (hreq : k'.rescheduleRequests = k.rescheduleRequests) : Advanced cfg k elapsed false k' := by
  have hout : Outcome cfg k k' := .of_sameSchedule hinv hk hs
  refine ⟨h, hout.ok, .inl hs, .of_same hs.switchPlan fun u hu => hs.state u ▸ hu, hreq, ?_⟩
  simp [Kernel.Turns, hs.switchPlan]

/-- The state in which the advance decides on a selection. -/
structure BeforePlan (cfg : Config) (k : Kernel) (elapsed : Tick) (k' : Kernel) : Prop
    extends Ticked cfg k elapsed k' where
  inv : Inv cfg (k.currentTick + elapsed) noneStale k'
  switchPlan : k'.switchPlan = k.switchPlan
  requests : k'.rescheduleRequests = k.rescheduleRequests
  keeps : KeepsReady k k'

theorem BeforePlan.requeued (h : BeforePlan cfg k elapsed k') (hr : Requeued cfg k' k'' c) :
    BeforePlan cfg k elapsed k'' where
  toTicked := h.toTicked.requeued hr
  inv := hr.inv h.inv
  switchPlan := by rw [hr.frame]; exact h.switchPlan
  requests := by rw [hr.frame]; exact h.requests
  keeps := h.keeps.trans fun u hu => hr.state u ▸ hu

/-- The checks that the end of an advance can fail, with what they find. -/
inductive EndFails (cfg : Config) (k : Kernel) : Fatal → Prop where
  | timers (invalid : ¬ TimerManagerValidate cfg k) : EndFails cfg k (.assertion .timerManager)
  | boosted (idle : k.prio .idle ≠ 0) : EndFails cfg k (.assertion .selectRunnable)
  | prepare (ready : k.CurrentReady) : EndFails cfg k (.assertion .prepareOutgoing)
  | outgoing (ready : k.CurrentReady) : EndFails cfg k (.assertion .tickOutgoing)

/-- How an advance halts: while waits expire only if the idle task owns a mutex, and otherwise with
all waits and timers expired that are due. -/
inductive AdvanceHalts (cfg : Config) (k : Kernel) (elapsed : Tick) : Fatal → Kernel → Prop where
  | waits (k' : Kernel) (owns : k.IdleOwns) :
      AdvanceHalts cfg k elapsed (.assertion (.recomputeChain .idle)) k'
  | ending {e : Fatal} {k' : Kernel} (before : BeforePlan cfg k elapsed k')
      (fails : EndFails cfg k' e) : AdvanceHalts cfg k elapsed e k'

/-- The end of the advance: a selection, or none when nothing has changed that it depends on. -/
theorem BeforePlan.wp_plan {unchanged : Prop} [Decidable unchanged]
    (h : BeforePlan cfg k elapsed k') (hk : KernelOk cfg k) (hc : k.currentTask = some c)
    (hs : unchanged → SameSchedule k k') :
    wp (if unchanged then pure false else planAfterTick cfg) (Advanced cfg k elapsed)
      (AdvanceHalts cfg k elapsed) k' := by
  have hinv : Inv cfg k'.currentTick noneStale k' := h.tick ▸ h.inv
  rw [wp_ite]
  split <;> rename_i hch
  · rw [wp_pure]
    exact h.toTicked.unplanned hinv hk.parked (hs hch) h.requests
  · apply wp_planAfterTick hinv not_false (h.currentTask.trans hc)
    · intro b k'' hp
      exact h.toTicked.planned hinv h.switchPlan h.requests h.keeps hp
    · exact fun _ hidle => .ending h (.boosted hidle)
    · exact fun hr => ⟨.ending h (.prepare hr), .ending h (.outgoing hr)⟩

theorem SameSchedule.trans (h : SameSchedule k k') (h' : SameSchedule k' k'') :
    SameSchedule k k'' where
  currentTask := h'.currentTask.trans h.currentTask
  switchPlan := h'.switchPlan.trans h.switchPlan
  readySet := h'.readySet.trans h.readySet
  edfReady := h'.edfReady.trans h.edfReady
  state t := (h'.state t).trans (h.state t)

theorem ServiceRun.sameSchedule (h : ServiceRun cfg k k' b) (hb : b = false) :
    SameSchedule k k' := by
  cases h with
  | quiet same => exact same.same.sameSchedule
  | woken => simp at hb

theorem Kernel.rest_count (k : Kernel) (f : RuntimeCounters → RuntimeCounters) :
    (k.count f).rest = k.rest := rfl

theorem SameTasks.count (k : Kernel) (f : RuntimeCounters → RuntimeCounters) :
    SameTasks k (k.count f) := rfl

theorem TimersOk.elapse (h : TimersOk cfg k) (elapsed : Tick) : TimersOk cfg (k.elapse elapsed) :=
  ⟨h.slot, h.fresh, h.nodup, h.mem, h.pending, h.generation, h.running, h.work, h.depth, h.hint,
    h.inUse⟩

/-- The delay loop does not depend on the counters. -/
theorem Expired.of_aside {woken : List TaskId} (h : Expired cfg k₁ k' woken) (hs : SameTasks k k₁)
    (hrest : k₁.rest = k.rest) (hreq : k₁.rescheduleRequests = k.rescheduleRequests) :
    Expired cfg k k' woken := by
  have hcur : k₁.currentTask = k.currentTask := by rw [hs]
  have hplan : k₁.switchPlan = k.switchPlan := by rw [hs]
  have hqueue : k₁.delayQueue = k.delayQueue := by rw [hs]
  have htasks : k₁.tasks = k.tasks := by rw [hs]
  have hmut : k₁.mutexes = k.mutexes := by rw [hs]
  have hsem : k₁.semaphores = k.semaphores := by rw [hs]
  have hprio : k₁.prio = k.prio := by rw [hs]
  have hwaiters : k₁.waiters = k.waiters := by
    funext o
    cases o <;> simp only [Kernel.waiters, hmut, hsem]
  constructor
  · exact h.rest.trans hrest
  · exact h.currentTask.trans hcur
  · exact h.switchPlan.trans hplan
  · exact h.requests.trans hreq
  · exact hqueue ▸ h.delayQueue
  · exact htasks ▸ h.ended
  · exact hcur ▸ h.executing
  · exact htasks ▸ h.kept
  · exact hmut ▸ h.owners
  · exact hsem ▸ h.semaphores
  · exact hwaiters ▸ h.waiters
  · exact hprio ▸ h.prio_le
  · unfold Fifo
    rw [← hwaiters, ← hprio]
    exact h.fifo
  · rw [KeepsTurns, ← hprio, show k.readySet = k₁.readySet by rw [hs]]
    exact h.turns

/-- What an advance has done when the turn of the current task is decided: the waits that expire
have ended, and then the timers have expired. -/
structure Elapsed (cfg : Config) (k : Kernel) (elapsed : Tick) (k₁ : Kernel) (woken : List TaskId)
    (k₂ : Kernel) (b : Bool) : Prop where
  expired : Expired cfg (k.elapse elapsed) k₁ woken
  exact : ∀ t ∈ k.delayQueue, t ∈ woken ↔ distance k.currentTick (k.wake t) ≤ elapsed.toNat
  quiet : woken = [] → SameTasks k k₁
  rounds : Rounds cfg (k.currentTick + elapsed) k₁ k₂ b
  inv : Inv cfg (k.currentTick + elapsed) noneStale k₂
  timersOk : TimersOk cfg k₂
  peek : timerQueuePeekExpired k₂ (k.currentTick + elapsed) = none

/-- The advance up to the turn of the current task. -/
theorem wp_elapsed {Q : Bool → Kernel → Prop} (h : KernelOk cfg k) (ht : TimersOk cfg k)
    (hl : k.lifecycle = .running) (he : elapsed ≤ delayMax)
    (hQ : ∀ k₁ woken k₂ b, Elapsed cfg k elapsed k₁ woken k₂ b →
      wp (if (∃ c ∈ k₁.currentTask, c ∈ woken) then pure false else policyTick cfg elapsed)
        (fun rotated => wp (if woken = [] ∧ b = false ∧ rotated = false then pure false
          else planAfterTick cfg) Q E) E k₂)
    (hE : k.IdleOwns → ∀ k', E (.assertion (.recomputeChain .idle)) k')
    (hE' : ∀ k₁ woken k₂ b, Elapsed cfg k elapsed k₁ woken k₂ b → ¬ TimerManagerValidate cfg k₂ →
      E (.assertion .timerManager) k₂) :
    wp (kernelTimeAdvanceCommon cfg elapsed) Q E k := by
  unfold kernelTimeAdvanceCommon
  simp only [wp_bind, wp_modify, wp_get]
  generalize hk₀ : Kernel.count _ _ = k₀
  have hsame₀ : SameTasks k k₀ := by rw [← hk₀]; rfl
  have hinv₀ : Inv cfg k.currentTick noneStale k₀ := h.inv.sameTasks hsame₀
  have htick₀ : k₀.currentTick = k.currentTick + elapsed := by rw [← hk₀]; rfl
  have hrest₀ : k₀.rest = (k.elapse elapsed).rest := by rw [← hk₀, Kernel.rest_count]; rfl
  have hsame : SameTasks (k.elapse elapsed) k₀ := by rw [← hk₀]; exact .count _ _
  have hreq₀ : k₀.rescheduleRequests = (k.elapse elapsed).rescheduleRequests := by
    rw [← hk₀, Kernel.count_rescheduleRequests]
    rfl
  clear hk₀
  have ht₀ : TimersOk cfg k₀ :=
    (ht.elapse elapsed).congr hrest₀ fun hb => .inl (by rwa [hsame] at hb)
  have howns₀ : k₀.IdleOwns → k.IdleOwns := by
    rw [hsame₀]
    exact id
  apply wp_delayLoop hinv₀ le_rfl _ fun howns _ => hE (howns₀ howns) _
  intro k₁ woken hexp₀ hdue hend hnil hinv₁
  rw [htick₀] at hdue hend
  have hexp := hexp₀.of_aside hsame hrest₀ hreq₀
  have hexact : ∀ t ∈ k.delayQueue,
      t ∈ woken ↔ distance k.currentTick (k.wake t) ≤ elapsed.toNat := by
    intro t hin
    have hwake : k₀.wake = k.wake := by rw [hsame₀]
    rw [← hwake]
    exact hexp₀.exact hinv₀ hinv₁ he hdue hend (by rw [hsame₀]; exact hin)
  have hl₁ : k₁.lifecycle = .running := by
    rw [← hl]
    exact (Kernel.of_rest Kernel.lifecycle hexp.rest :)
  have htick₁ : k₁.currentTick = k.currentTick + elapsed :=
    (Kernel.of_rest Kernel.currentTick hexp.rest :)
  simp only [wp_bind, wp_get]
  rw [htick₁]
  have helapsed : ∀ k₂ b, Rounds cfg (k.currentTick + elapsed) k₁ k₂ b →
      Inv cfg (k.currentTick + elapsed) noneStale k₂ → TimersOk cfg k₂ →
      timerQueuePeekExpired k₂ (k.currentTick + elapsed) = none →
      Elapsed cfg k elapsed k₁ woken k₂ b := fun k₂ b hrounds hinv₂ ht₂ hend₂ =>
    ⟨hexp, hexact, fun hw => (hnil hw).symm ▸ hsame₀, hrounds, hinv₂, ht₂, hend₂⟩
  refine wp_timerManagerProcessExpired (hinv₁.rebase he hend)
    (ht₀.congr hexp₀.rest fun hb => .inl (hexp₀.service hinv₀ ▸ hb)) hl₁
    (fun k₂ b hrounds hinv₂ ht₂ hend₂ => ?_) fun k₂ b hrounds hinv₂ ht₂ hend₂ hnot =>
      hE' k₁ woken k₂ b (helapsed k₂ b hrounds hinv₂ ht₂ hend₂) hnot
  have hQ₂ := hQ k₁ woken k₂ b (helapsed k₂ b hrounds hinv₂ ht₂ hend₂)
  split <;> rename_i hcw
  · rw [if_pos hcw] at hQ₂
    rwa [wp_bind]
  · rw [if_neg hcw] at hQ₂
    rwa [wp_bind]

namespace Elapsed

variable {woken : List TaskId}

theorem beforePlan (h : Elapsed cfg k elapsed k₁ woken k₂ b) (hk : KernelOk cfg k)
    (he : elapsed ≤ delayMax) : BeforePlan cfg k elapsed k₂ := by
  have hrun := h.rounds.service
  have hexp := h.expired
  refine ⟨hexp.ticked hk.inv he h.exact h.rounds h.timersOk h.peek, h.inv,
    hrun.switchPlan.trans hexp.switchPlan, hrun.requests.trans hexp.requests, ?_⟩
  exact (hexp.keepsReady (hk.inv.sameTasks (.elapse k elapsed))).trans hrun.keepsReady

theorem sameSchedule (h : Elapsed cfg k elapsed k₁ woken k₂ b) (hw : woken = []) (hb : b = false) :
    SameSchedule k k₂ :=
  (h.quiet hw).sameSchedule.trans (h.rounds.service.sameSchedule hb)

end Elapsed

theorem wp_kernelTimeAdvanceCommon (h : KernelOk cfg k) (ht : TimersOk cfg k)
    (hl : k.lifecycle = .running) (he : elapsed ≤ delayMax) :
    wp (kernelTimeAdvanceCommon cfg elapsed) (Advanced cfg k elapsed)
      (AdvanceHalts cfg k elapsed) k := by
  obtain ⟨c, hc, -⟩ := h.inv.phase.current hl
  refine wp_elapsed h ht hl he (fun k₁ woken k₂ b hel => ?_) (fun howns k' => .waits k' howns)
    fun k₁ woken k₂ b hel hnot => .ending (hel.beforePlan h he) (.timers hnot)
  have hbefore := hel.beforePlan h he
  rw [wp_ite]
  split <;> rename_i hcw
  · -- the current task was woken: a selection follows
    have hne : woken ≠ [] := by
      rintro rfl
      simp at hcw
    rw [wp_pure]
    exact hbefore.wp_plan h hc fun hun => absurd hun.1 hne
  · apply wp_policyTick_requeued hel.inv (hbefore.currentTask.trans hc)
    intro k₃ rotated hreq hslice
    refine (hbefore.requeued hreq).wp_plan h hc fun hun => ?_
    exact (hel.sameSchedule hun.1 hun.2.1).trans (hslice hun.2.2)

/-! ### Nothing due -/

theorem delayLoop_quiet (hpeek : delayPeekExpired k k.currentTick = none) (fuel : Nat) :
    delayLoop cfg fuel k = .ret (some []) k := by
  cases fuel <;> rw [delayLoop, get_bind_apply, hpeek] <;> rfl

/-- Where no timer has expired, its manager is checked all the same. -/
theorem timerManagerProcessExpired_quiet (hpeek : timerQueuePeekExpired k now = none) :
    timerManagerProcessExpired cfg now k = (do
      fatalUnless .timerManager (TimerManagerValidate cfg k)
      pure false : KernelM Bool) k := by
  have hloop : ∀ fuel, processExpiredLoop cfg now fuel false k = .ret (some false) k := by
    intro fuel
    cases fuel <;> rw [processExpiredLoop, get_bind_apply, hpeek] <;> rfl
  unfold timerManagerProcessExpired
  rw [get_bind_apply, bind_apply_of_ret (hloop _), get_bind_apply]
  rfl

/-! ### How it halts -/

/-- Only a mutex with waiters keeps the idle task above its own priority. -/
theorem Inv.idleOwns_of_boosted (h : Inv cfg base stale k) (hs : ¬ stale .idle)
    (hd : (k.tasks .idle).state ≠ .dormant) (hprio : k.prio .idle ≠ 0) : k.IdleOwns := by
  obtain hbase | ⟨m, u, hm, -, -⟩ := (h.locks.inherits .idle hs).1
  · exact absurd (hbase.trans (((h.tasks .idle).valid hd).base_zero.mpr rfl)) hprio
  · exact ⟨m, hm⟩

theorem Ticked.idleOwns (h : Ticked cfg k elapsed k') (howns : k'.IdleOwns) : k.IdleOwns := by
  obtain ⟨k₁, woken, hexp, hsame, -⟩ := h.waits
  obtain ⟨m, hm⟩ := howns
  exact ⟨m, (hexp.owners m).symm.trans ((hsame.owners m).symm.trans hm)⟩

namespace AdvanceHalts

variable {e : Fatal}

theorem tolerated (h : AdvanceHalts cfg k elapsed e k') :
    Tolerated (k.CurrentReady ∨ k.ServiceDue elapsed) k.IdleOwns e k' := by
  cases h with
  | waits _ howns => exact tolerated_recomputeChain_idle howns _
  | ending hbefore hfails =>
    cases hfails with
    | timers => exact tolerated_timerManager _ _ _
    | boosted => exact tolerated_selectRunnable _ _ _
    | prepare hready => exact tolerated_prepareOutgoing (hbefore.ready hready) _
    | outgoing hready => exact tolerated_tickOutgoing (hbefore.ready hready) _

/-- Whatever the advance halts at, the waits and timers that are due have expired. -/
theorem ticked (h : AdvanceHalts cfg k elapsed e k') (howns : ¬ k.IdleOwns) :
    Ticked cfg k elapsed k' := by
  cases h with
  | waits _ hidle => exact absurd hidle howns
  | ending hbefore _ => exact hbefore.toTicked

end AdvanceHalts

/-- An advance returns when the idle task owns no mutex, the current task is not made `READY` and no
timer is left overdue. -/
theorem not_advanceHalts {e : Fatal} (hc : k.currentTask = some c) (howns : ¬ k.IdleOwns)
    (hready : ¬ (k.CurrentReady ∨ k.ServiceDue elapsed)) (hahead : k.Ahead)
    (hspread : k.Spread (k.currentTick + elapsed)) : ¬ AdvanceHalts cfg k elapsed e k' := by
  intro h
  cases h with
  | waits _ hidle => exact howns hidle
  | ending hbefore hfails =>
    have hahead' := hbefore.ahead hahead hspread
    cases hfails with
    | timers hinvalid => exact hinvalid (hbefore.timersOk.validate hahead')
    | boosted hidle =>
      have hl := hbefore.inv.running_of_current (hbefore.currentTask.trans hc)
      have hd := (hbefore.inv.phase.idle (by simp [hl])).not_dormant
      exact howns (hbefore.idleOwns (hbefore.inv.idleOwns_of_boosted not_false hd hidle))
    | prepare h => exact hready (hbefore.ready h)
    | outgoing h => exact hready (hbefore.ready h)

theorem wp_kernelAdvance_returns {contextOk : Bool} (h : KernelOk cfg k) (ht : TimersOk cfg k)
    (hvalid : AdvanceIsValid k contextOk elapsed) (howns : ¬ k.IdleOwns)
    (hready : ¬ (k.CurrentReady ∨ k.ServiceDue elapsed)) (hahead : k.Ahead)
    (hspread : k.Spread (k.currentTick + elapsed)) :
    wp (kernelAdvance cfg contextOk elapsed) (Advanced cfg k elapsed) (fun _ _ => False) k := by
  obtain ⟨c, hc, -⟩ := h.inv.phase.current hvalid.1
  simp only [kernelAdvance, wp_bind, wp_get]
  rw [wp_rtsAssert_of hvalid, wp_ite, if_pos hvalid]
  exact wp_mono (wp_kernelTimeAdvanceCommon h ht hvalid.1 hvalid.2.2.2) (fun _ _ => id)
    fun _ _ => not_advanceHalts hc howns hready hahead hspread

end RtsKernel
