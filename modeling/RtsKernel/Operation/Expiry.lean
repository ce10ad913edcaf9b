import RtsKernel.Operation.Timer

/-!
# Expiry of timers

`rts_timer_manager_process_expired`. One round consumes the deadline at the head of the active queue
and publishes its callback. A round leaves one timer fewer due, so the loop ends.
-/

namespace RtsKernel

open Halting Prog

variable {cfg : Config} {base now : Tick} {stale : TaskId → Prop} {k k₁ k₂ k' k'' : Kernel}
  {i j : Nat} {b : Bool} {E : Fatal → Kernel → Prop}

/-! ## One round -/

/-- Only the timers, the active queue and the counters have changed. -/
def TimersOnly (k k' : Kernel) : Prop :=
  k' = { k with timers := k'.timers, activeQueue := k'.activeQueue, counters := k'.counters }

namespace TimersOnly

theorem refl (k : Kernel) : TimersOnly k k := rfl

theorem updateTimer {f : Timer → Timer} (h : TimersOnly k k') :
    TimersOnly k (k'.updateTimer i f) := by
  unfold TimersOnly at *
  rw [h]
  rfl

theorem activeQueue {l : List Nat} (h : TimersOnly k k') :
    TimersOnly k { k' with activeQueue := l } := by
  unfold TimersOnly at *
  rw [h]

theorem count {f : RuntimeCounters → RuntimeCounters} (h : TimersOnly k k') :
    TimersOnly k (k'.count f) := by
  unfold TimersOnly at *
  rw [h]
  rfl

end TimersOnly

theorem wp_timerConsume {Q : Unit → Kernel → Prop} (hi : i ∈ k.activeQueue)
    (hnodup : k.activeQueue.Nodup)
    (hQ : ∀ k₁, TimersOnly k k₁ →
      k₁.timers = Function.update k.timers i ((k.timers i).consumed now) →
      k₁.activeQueue = (k.retime i ((k.timers i).consumed now)).activeQueue → Q () k₁) :
    wp (timerConsume cfg now i) Q E k := by
  have hnot : i ∉ k.activeQueue.erase i := hnodup.not_mem_erase
  simp only [timerConsume, wp_bind, wp_get]
  apply wp_timerQueueRemove hi
  simp only [wp_modify, wp_ite]
  split <;> rename_i hmode
  · simp only [wp_bind, wp_modify]
    apply wp_timerQueueInsert hnot
    generalize hk₁ : Kernel.count _ _ = k₁
    have htimers : k₁.timers = Function.update k.timers i ((k.timers i).consumed now) := by
      rw [← hk₁]
      simp [Timer.consumed, hmode, timerPeriodicNext, periodsSkipped]
    have hframe : TimersOnly k k₁ := by
      rw [← hk₁]
      exact (TimersOnly.refl k).activeQueue.updateTimer.updateTimer.activeQueue.updateTimer.count
    refine hQ k₁ hframe htimers ?_
    have hactive : ((k.timers i).consumed now).state = .active := by simp [Timer.consumed, hmode]
    simp only [Kernel.retime, if_pos hactive]
    rw [← hk₁]
    refine congrArg (fun e => (k.activeQueue.erase i).orderedInsert (Earlier e) i)
      (funext fun j => ?_)
    rcases eq_or_ne j i with rfl | hj
    · simp [Kernel.expiration, Timer.consumed, hmode, timerPeriodicNext, periodsSkipped]
    · simp [Kernel.expiration, hj]
  · simp only [wp_bind, wp_modify]
    generalize hk₁ : Kernel.count _ _ = k₁
    have htimers : k₁.timers = Function.update k.timers i ((k.timers i).consumed now) := by
      rw [← hk₁]
      simp [Timer.consumed, hmode]
    have hframe : TimersOnly k k₁ := by
      rw [← hk₁]
      exact (TimersOnly.refl k).activeQueue.updateTimer.updateTimer.updateTimer.count
    refine hQ k₁ hframe htimers ?_
    have hactive : ((k.timers i).consumed now).state ≠ .active := by simp [Timer.consumed, hmode]
    simp only [Kernel.retime, if_neg hactive]
    rw [← hk₁]
    rfl

/-- The expiration of a timer has been published: its record, and a work item unless its previous
callback is not finished. -/
structure Publishes (k k' : Kernel) (i : Nat) (deadline : Tick) : Prop where
  frame : k' = { k with
    timers := k'.timers
    callbackQueue := k'.callbackQueue
    callbackQueueMaximumDepth := k'.callbackQueueMaximumDepth
    counters := k'.counters }
  timers : k'.timers = Function.update k.timers i (k.timers i).published
  coalesced : (k.timers i).callbackState ≠ .idle → k'.callbackQueue = k.callbackQueue ∧
    k'.callbackQueueMaximumDepth = k.callbackQueueMaximumDepth
  queued : (k.timers i).callbackState = .idle →
    k'.callbackQueueMaximumDepth = max k.callbackQueueMaximumDepth (k.callbackQueue.length + 1) ∧
    ∃ work, work.timer = i ∧ work.expirationTick = deadline ∧
      work.generation = (k.timers i).generation ∧ k'.callbackQueue = k.callbackQueue ++ [work]

theorem wp_timerPublish {Q : Bool → Kernel → Prop} {deadline : Tick} (h : Inv cfg base stale k)
    (hl : k.lifecycle = .running)
    (hroom : (k.timers i).callbackState = .idle →
      k.callbackQueue.length < cfg.timerCallbackQueueCapacity)
    (hquiet : ∀ k₁, Publishes k k₁ i deadline → (k.timers i).callbackState ≠ .idle ∨
      (k.tasks .timerService).state ≠ .blocked → Q false k₁)
    (hwoken : ∀ k₁ k₂, Publishes k k₁ i deadline → (k.tasks .timerService).state = .blocked →
      ServiceWakes cfg k₁ k₂ → Inv cfg base stale k₂ → Q true k₂) :
    wp (timerPublish cfg i deadline) Q E k := by
  simp only [timerPublish, wp_bind, wp_get, wp_ite]
  split <;> rename_i hstate
  · simp only [wp_modify, wp_pure]
    generalize hk₁ : Kernel.count _ _ = k₁
    refine hquiet k₁ ⟨by rw [← hk₁]; rfl, ?_, fun _ => by rw [← hk₁]; exact ⟨rfl, rfl⟩,
      fun hidle => absurd hidle hstate⟩ (.inl hstate)
    rw [← hk₁]
    simp [Timer.published, hstate]
  · rw [not_not] at hstate
    have hlen := hroom hstate
    simp only [wp_modify, timerCallbackQueueEnqueue, wp_bind, wp_get, wp_ite]
    rw [if_neg (by simpa using hlen)]
    simp only [wp_pure, Bool.true_eq_false, if_false]
    generalize hk₁ : Kernel.count _ _ = k₁
    have hpub : Publishes k k₁ i deadline := by
      refine ⟨by rw [← hk₁]; rfl, ?_, fun hne => absurd hstate hne,
        fun _ => ⟨by rw [← hk₁]; rfl, ?_⟩⟩
      · rw [← hk₁]
        simp [Timer.published, hstate]
      · refine ⟨expirationWork (k.updateTimer i fun timer =>
          { timer with expirationSequence := timer.expirationSequence + 1 }) i deadline, rfl, rfl,
            ?_, ?_⟩
        · simp [expirationWork]
        · rw [← hk₁]
          rfl
    have hsame : SameTasks k k₁ := by rw [hpub.frame]; rfl
    have htasks : k₁.tasks = k.tasks := by rw [hsame]
    apply wp_schedulerTimerServiceWake (h.sameTasks hsame) (by rw [hsame]; exact hl)
    · intro hne
      exact hquiet k₁ hpub (.inr (htasks ▸ hne))
    · intro hb k₂ hw hinv
      exact hwoken k₁ k₂ hpub (htasks ▸ hb) hw hinv

/-- The kernel apart from the timers, the clock and the requests to the port. -/
structure Aside (k k' : Kernel) : Prop where
  same : SameTasks k k'
  tick : k'.currentTick = k.currentTick
  requests : k'.rescheduleRequests = k.rescheduleRequests

theorem Aside.refl (k : Kernel) : Aside k k := ⟨.refl k, rfl, rfl⟩

theorem Aside.trans (h : Aside k k') (h' : Aside k' k'') : Aside k k'' :=
  ⟨h.same.trans h'.same, h'.tick.trans h.tick, h'.requests.trans h.requests⟩

/-- Expiry leaves the tasks alone, or wakes the blocked timer service once. -/
inductive ServiceRun (cfg : Config) (k k' : Kernel) : Bool → Prop where
  | quiet (same : Aside k k') : ServiceRun cfg k k' false
  | woken (k₁ k₂ : Kernel) (before : Aside k k₁)
      (blocked : (k.tasks .timerService).state = .blocked) (wakes : ServiceWakes cfg k₁ k₂)
      (after : Aside k₂ k') : ServiceRun cfg k k' true

theorem ServiceRun.trans {b' : Bool} (h : ServiceRun cfg k k' b) (h' : ServiceRun cfg k' k'' b') :
    ServiceRun cfg k k'' (b || b') := by
  cases h with
  | quiet same =>
    cases h' with
    | quiet same' => exact .quiet (same.trans same')
    | woken k₁ k₂ before blocked wakes after =>
      have htasks : k'.tasks = k.tasks := by rw [same.same]
      exact .woken k₁ k₂ (same.trans before) (htasks ▸ blocked) wakes after
  | woken k₁ k₂ before blocked wakes after =>
    cases h' with
    | quiet same' => exact .woken k₁ k₂ before blocked wakes (after.trans same')
    | woken _ _ _ blocked' _ _ =>
      -- a service that was woken is not blocked again
      have htasks : k'.tasks = k₂.tasks := by rw [after.same]
      simp [htasks, wakes.ready] at blocked'

/-- One round of the loop. -/
structure Round (cfg : Config) (now : Tick) (k : Kernel) (i : Nat) (k' : Kernel) (b : Bool) :
    Prop where
  peek : timerQueuePeekExpired k now = some i
  record : k'.timers i = ((k.timers i).consumed now).published
  moved : Moved cfg now k k' i
  retimed : Retimed k k' i
  service : ServiceRun cfg k k' b
  queue : ∃ works, k'.callbackQueue = k.callbackQueue ++ works ∧
    ∀ work ∈ works, work.timer = i ∧ work.expirationTick = k.expiration i
  serviceWork : k'.serviceWork = k.serviceWork
  timers : TimersOk cfg k'

theorem mem_of_peekExpired (h : timerQueuePeekExpired k now = some i) :
    k.activeQueue.head? = some i ∧ tickReached now (k.expiration i) := by
  unfold timerQueuePeekExpired at h
  cases hq : k.activeQueue with
  | nil => simp [hq] at h
  | cons a l =>
    simp only [hq] at h
    split at h <;> simp_all

theorem Timer.published_callbackState (timer : Timer) :
    timer.published.callbackState =
      if timer.callbackState = .idle then .pending else timer.callbackState := by
  unfold Timer.published
  split <;> simp_all

theorem Timer.published_generation (timer : Timer) :
    timer.published.generation = timer.generation := by
  unfold Timer.published
  split <;> rfl

theorem Timer.published_expirationTick (timer : Timer) :
    timer.published.expirationTick = timer.expirationTick := by
  unfold Timer.published
  split <;> rfl

/-- The record of a timer after a round. -/
abbrev Timer.expired (now : Tick) (timer : Timer) : Timer := (timer.consumed now).published

/-- Publication does not move a timer in the active queue. -/
theorem retime_published (k : Kernel) (i : Nat) (timer : Timer) :
    (k.retime i timer.published).activeQueue = (k.retime i timer).activeQueue := by
  have hexp : (fun j => (Function.update k.timers i timer.published j).expirationTick) =
      fun j => (Function.update k.timers i timer j).expirationTick := by
    funext j
    rcases eq_or_ne j i with rfl | hj
    · simp [Timer.published_expirationTick]
    · simp [hj]
  simp only [Kernel.retime, Timer.published_state, hexp]

/-- One deadline consumed and published, whatever the service does about it. -/
structure Consumed (cfg : Config) (now : Tick) (k k' : Kernel) (i : Nat)
    (works : List CallbackWork) : Prop where
  frame : k'.rest = { k.retime i ((k.timers i).expired now) with
    callbackQueue := k.callbackQueue ++ works
    callbackQueueMaximumDepth := k'.callbackQueueMaximumDepth }.rest
  work : ∀ work ∈ works, work.timer = i ∧ work.expirationTick = k.expiration i ∧
    work.generation = (k.timers i).generation
  length : works.length = if (k.timers i).callbackState = .idle then 1 else 0
  depth : k'.callbackQueue.length ≤ k'.callbackQueueMaximumDepth ∧
    k'.callbackQueueMaximumDepth ≤ cfg.timerCallbackQueueCapacity

theorem Publishes.consumed (hpub : Publishes k₁ k₂ i (k.expiration i)) (ht : TimersOk cfg k)
    (hset : TimerSet cfg i (k.timers i))
    (hframe : TimersOnly k k₁)
    (htimers : k₁.timers = Function.update k.timers i ((k.timers i).consumed now))
    (hactive : k₁.activeQueue = (k.retime i ((k.timers i).consumed now)).activeQueue)
    (hrest : k'.rest = k₂.rest) : ∃ works, Consumed cfg now k k' i works := by
  have htimer₁ : k₁.timers i = (k.timers i).consumed now := by simp [htimers]
  have hstate₁ : (k₁.timers i).callbackState = (k.timers i).callbackState := by rw [htimer₁]; rfl
  have hqueue₁ : k₁.callbackQueue = k.callbackQueue := by rw [hframe]
  have hdepth₁ : k₁.callbackQueueMaximumDepth = k.callbackQueueMaximumDepth := by rw [hframe]
  have hqueue' : k'.callbackQueue = k₂.callbackQueue := Kernel.of_rest Kernel.callbackQueue hrest
  have hdepth' : k'.callbackQueueMaximumDepth = k₂.callbackQueueMaximumDepth :=
    Kernel.of_rest Kernel.callbackQueueMaximumDepth hrest
  have htimers₂ : k₂.timers = Function.update k.timers i ((k.timers i).expired now) := by
    rw [hpub.timers, htimer₁, htimers, Function.update_idem]
  have hfinal : ∀ works, k₂.callbackQueue = k.callbackQueue ++ works →
      k'.rest = { k.retime i ((k.timers i).expired now) with
        callbackQueue := k.callbackQueue ++ works
        callbackQueueMaximumDepth := k'.callbackQueueMaximumDepth }.rest := by
    intro works hq
    have hactive₁ : k₁.activeQueue = (k.retime i ((k.timers i).expired now)).activeQueue :=
      hactive.trans (retime_published k i _).symm
    rw [hrest, hpub.frame, hframe, ← hq, hdepth', htimers₂, hactive₁]
    rfl
  obtain ⟨hle, hcap⟩ := ht.depth
  by_cases hidle : (k.timers i).callbackState = .idle
  · obtain ⟨hdepth, work, hw, htick, hgen, hq⟩ := hpub.queued (hstate₁.trans hidle)
    have hroom := ht.room hset (by simp [hidle])
    rw [hqueue₁] at hq hdepth
    refine ⟨[work], hfinal _ hq, ?_, by simp [hidle], ?_⟩
    · simp [hw, htick, hgen, htimer₁, Timer.consumed]
    · rw [hqueue', hq, hdepth', hdepth, hdepth₁, List.length_append, List.length_singleton]
      omega
  · obtain ⟨hq, hdepth⟩ := hpub.coalesced (hstate₁ ▸ hidle)
    rw [hqueue₁] at hq
    refine ⟨[], hfinal _ (by simpa using hq), by simp, by simp [hidle], ?_⟩
    rw [hqueue', hq, hdepth', hdepth, hdepth₁]
    exact ht.depth

namespace Consumed

variable {works : List CallbackWork}

theorem timers (h : Consumed cfg now k k' i works) :
    k'.timers = Function.update k.timers i ((k.timers i).expired now) :=
  Kernel.of_rest Kernel.timers h.frame

theorem record (h : Consumed cfg now k k' i works) :
    k'.timers i = (k.timers i).expired now := by simp [h.timers]

theorem callbackQueue (h : Consumed cfg now k k' i works) :
    k'.callbackQueue = k.callbackQueue ++ works := Kernel.of_rest Kernel.callbackQueue h.frame

theorem retimed (h : Consumed cfg now k k' i works) : Retimed k k' i := by
  have hactive : k'.activeQueue = (k.retime i ((k.timers i).expired now)).activeQueue :=
    Kernel.of_rest Kernel.activeQueue h.frame
  refine ⟨fun j hj => by simp [h.timers, hj], ?_⟩
  have hexp : k'.expiration =
      fun j => (Function.update k.timers i ((k.timers i).expired now) j).expirationTick := by
    funext j
    rw [Kernel.expiration, h.timers]
  rw [h.record, hexp, hactive]
  rfl

theorem workFor (h : Consumed cfg now k k' i works) (j : Nat) :
    k'.workFor j = k.workFor j ++ if j = i then works else [] := by
  have hall : works.filter (fun work => work.timer = j) = if j = i then works else [] := by
    split <;> rename_i hj
    · exact List.filter_eq_self.mpr fun work hw => by simp [hj, (h.work work hw).1]
    · exact List.filter_eq_nil_iff.mpr fun work hw => by simp [(h.work work hw).1, Ne.symm hj]
  unfold Kernel.workFor
  rw [h.callbackQueue, List.filter_append, hall]

theorem moved (h : Consumed cfg now k k' i works) (ht : TimersOk cfg k)
    (hmove : TimerMove cfg now i (k.timers i) ((k.timers i).expired now)) :
    Moved cfg now k k' i := by
  have hcallback : (k'.timers i).callbackState =
      if (k.timers i).callbackState = .idle then .pending else (k.timers i).callbackState := by
    rw [h.record]
    exact Timer.published_callbackState _
  have hgeneration : (k'.timers i).generation = (k.timers i).generation := by
    rw [h.record]
    exact Timer.published_generation _
  have hserves : ∀ j, k'.Serves j ↔ k.Serves j := by
    have hwork : k'.serviceWork = k.serviceWork := (Kernel.of_rest Kernel.serviceWork h.frame :)
    intro j
    simp only [Kernel.Serves, hwork]
  have hpending := ht.pending i
  rw [← Kernel.length_workFor] at hpending
  refine ⟨h.record ▸ hmove, h.retimed.others, fun j hj => by simp [h.workFor, hj], ?_, ?_,
    fun j _ => hserves j, ?_⟩
  · rw [h.workFor, if_pos rfl, List.length_append, hpending, h.length, hcallback]
    cases (k.timers i).callbackState <;> simp
  · intro work hw
    rw [h.workFor, if_pos rfl, List.mem_append] at hw
    rw [hgeneration]
    rcases hw with hw | hw
    · obtain ⟨hin, rfl⟩ := Kernel.mem_workFor.mp hw
      exact ht.generation work hin
    · exact (h.work work hw).2.2
  · rw [hcallback, hserves, ← ht.running]
    cases (k.timers i).callbackState <;> simp

theorem round (h : Consumed cfg now k k' i works) (ht : TimersOk cfg k) (hl : k.lifecycle ≠ .reset)
    (hpeek : timerQueuePeekExpired k now = some i) (hservice : ServiceRun cfg k k' b)
    (hblocked : (k'.tasks .timerService).state = .blocked → (k.timers i).callbackState ≠ .idle ∧
      (k.tasks .timerService).state = .blocked) : Round cfg now k i k' b := by
  obtain ⟨hhead, hreached⟩ := mem_of_peekExpired hpeek
  have hact : (k.timers i).state = .active := (ht.mem i).mp (List.mem_of_head? hhead)
  have hset := (ht.slot i).set_of_active hact
  have hmoved := h.moved ht (.expired hset hact hreached)
  have hretimed := h.retimed
  have hlife : k'.lifecycle = k.lifecycle := (Kernel.of_rest Kernel.lifecycle h.frame :)
  have hslot : (k'.timers i).slotState = (k.timers i).slotState := by
    rw [h.record]
    exact (Timer.published_sameSetup _).slotState
  refine ⟨hpeek, h.record, hmoved, hretimed, hservice,
    ⟨works, h.callbackQueue, fun work hw => ⟨(h.work work hw).1, (h.work work hw).2.1⟩⟩,
    (Kernel.of_rest Kernel.serviceWork h.frame :), ?_⟩
  refine hmoved.timersOk ht (hlife ▸ hl) (hretimed.nodup ht) (hretimed.mem_activeQueue ht)
    (fun hb => ?_) h.depth ?_ ?_
  · obtain ⟨hidle, hold⟩ := hblocked hb
    have hnone := h.length
    rw [if_neg hidle, List.length_eq_zero_iff] at hnone
    simp [h.callbackQueue, hnone, ht.work hold]
  · exact (Kernel.of_rest Kernel.timerNextFreeHint h.frame).trans_lt ht.hint
  · rw [hmoved.timersInUse hslot, ← ht.inUse]
    exact (Kernel.of_rest Kernel.timerAllocatedCount h.frame :)

end Consumed

theorem wp_round {Q : Bool → Kernel → Prop} (h : Inv cfg base stale k) (ht : TimersOk cfg k)
    (hl : k.lifecycle = .running) (hpeek : timerQueuePeekExpired k now = some i)
    (hQ : ∀ k' b, Round cfg now k i k' b → Inv cfg base stale k' → Q b k') :
    wp (timerConsume cfg now i)
      (fun _ => wp (timerPublish cfg i (k.timers i).expirationTick) Q E) E k := by
  have hmem : i ∈ k.activeQueue := List.mem_of_head? (mem_of_peekExpired hpeek).1
  have hset := (ht.slot i).set_of_active ((ht.mem i).mp hmem)
  have hreset : k.lifecycle ≠ .reset := by simp [hl]
  apply wp_timerConsume hmem ht.nodup
  intro k₁ hframe htimers hactive
  have hsame₁ : Aside k k₁ := ⟨by rw [hframe]; rfl, by rw [hframe], by rw [hframe]⟩
  have htasks₁ : k₁.tasks = k.tasks := by rw [hsame₁.same]
  have hstate₁ : (k₁.timers i).callbackState = (k.timers i).callbackState := by
    simp [htimers, Timer.consumed]
  apply wp_timerPublish (h.sameTasks hsame₁.same) (by rw [hsame₁.same]; exact hl)
  · intro hidle
    rw [hframe]
    exact ht.room hset (by simp [← hstate₁, hidle])
  · intro k₂ hpub hquiet
    obtain ⟨works, hc⟩ := hpub.consumed ht hset hframe htimers hactive rfl
    have hsame₂ : Aside k₁ k₂ := ⟨by rw [hpub.frame]; rfl, by rw [hpub.frame], by rw [hpub.frame]⟩
    have htasks₂ : k₂.tasks = k.tasks := by rw [hsame₂.same]; exact htasks₁
    refine hQ k₂ false (hc.round ht hreset hpeek (.quiet (hsame₁.trans hsame₂)) fun hb => ?_)
      (h.sameTasks (hsame₁.trans hsame₂).same)
    rw [htasks₂] at hb
    rw [htasks₁, hstate₁] at hquiet
    exact ⟨hquiet.resolve_right fun hne => hne hb, hb⟩
  · intro k₂ k' hpub hb hw hinv
    obtain ⟨works, hc⟩ := hpub.consumed ht hset hframe htimers hactive hw.wakes.rest
    have hsame₂ : Aside k₁ k₂ := ⟨by rw [hpub.frame]; rfl, by rw [hpub.frame], by rw [hpub.frame]⟩
    refine hQ k' true (hc.round ht hreset hpeek
      (.woken k₂ k' (hsame₁.trans hsame₂) (htasks₁ ▸ hb) hw (.refl k')) fun hb' => ?_) hinv
    simp [hw.ready] at hb'

/-! ## The loop -/

/-- The number of active timers that are due. -/
def Kernel.dueTimers (k : Kernel) (now : Tick) : Nat :=
  k.activeQueue.countP fun i => tickReached now (k.expiration i)

/-- A timer that is active after it has expired is periodic and due later. -/
theorem Timer.expired_active {timer : Timer} (hset : TimerSet cfg i timer)
    (hreached : tickReached now timer.expirationTick)
    (hact : (timer.expired now).state = .active) :
    timer.mode = .periodic ∧
      (timer.expired now).expirationTick = timerPeriodicNext timer now ∧
      InWindow now (timerPeriodicNext timer now) := by
  have hmode : timer.mode = .periodic := by
    by_contra hne
    rw [Timer.expired, (timer.consumed now).published_state] at hact
    simp [Timer.consumed, hne] at hact
  obtain ⟨hpos, hle⟩ := distance_timerPeriodicNext hreached hset.period.1 hset.period.2
  refine ⟨hmode, ?_, hpos, hle.trans_lt (toNat_le_of_le_delayMax hset.period.2)⟩
  rw [Timer.expired, Timer.published_expirationTick]
  simp only [Timer.consumed, hmode, if_true]

namespace Round

theorem reinserted (h : Round cfg now k i k' b) (ht : TimersOk cfg k)
    (hact : (k'.timers i).state = .active) :
    (k.timers i).mode = .periodic ∧ k'.expiration i = timerPeriodicNext (k.timers i) now ∧
      InWindow now (k'.expiration i) := by
  obtain ⟨hhead, hreached⟩ := mem_of_peekExpired h.peek
  have hset := (ht.slot i).set_of_active ((ht.mem i).mp (List.mem_of_head? hhead))
  rw [h.record] at hact
  obtain ⟨hmode, hnext, hin⟩ := Timer.expired_active hset hreached hact
  have hexp : k'.expiration i = timerPeriodicNext (k.timers i) now := by
    rw [Kernel.expiration, h.record, hnext]
  exact ⟨hmode, hexp, hexp ▸ hin⟩

theorem not_due (h : Round cfg now k i k' b) (ht : TimersOk cfg k)
    (hact : (k'.timers i).state = .active) : ¬ tickReached now (k'.expiration i) :=
  not_tickReached_of_inWindow (h.reinserted ht hact).2.2

theorem dueTimers (h : Round cfg now k i k' b) (ht : TimersOk cfg k) :
    k'.dueTimers now + 1 = k.dueTimers now := by
  obtain ⟨hhead, hreached⟩ := mem_of_peekExpired h.peek
  have hmem : i ∈ k.activeQueue := List.mem_of_head? hhead
  have hothers : ∀ j ∈ k.activeQueue.erase i,
      (decide (tickReached now (k'.expiration j)) ↔ decide (tickReached now (k.expiration j))) := by
    intro j hj
    rw [h.retimed.expiration_eq (ht.nodup.mem_erase_iff.mp hj).1]
  have hrest := List.countP_congr hothers
  have hold : k.dueTimers now =
      (k.activeQueue.erase i).countP (fun j => tickReached now (k.expiration j)) + 1 := by
    unfold Kernel.dueTimers
    rw [(List.perm_cons_erase hmem).countP_eq, List.countP_cons]
    simp [hreached]
  rw [hold, ← hrest, Kernel.dueTimers, h.retimed.queue]
  split <;> rename_i hact
  · have hnot := h.not_due ht hact
    rw [(List.perm_orderedInsert _ _ _).countP_eq, List.countP_cons]
    simp [hnot]
  · rfl

end Round

/-- Any number of rounds. -/
inductive Rounds (cfg : Config) (now : Tick) : Kernel → Kernel → Bool → Prop where
  | done (k : Kernel) : Rounds cfg now k k false
  | step {k k₁ k' : Kernel} {i : Nat} {b b' : Bool} (timers : TimersOk cfg k)
      (round : Round cfg now k i k₁ b) (rest : Rounds cfg now k₁ k' b') :
      Rounds cfg now k k' (b || b')

/-- Enough fuel for the timers that are due takes the loop to its end. -/
theorem wp_processExpiredLoop {Q : Option Bool → Kernel → Prop} {fuel : Nat} {woken : Bool}
    (h : Inv cfg base stale k) (ht : TimersOk cfg k) (hl : k.lifecycle = .running)
    (hfuel : k.dueTimers now ≤ fuel)
    (hQ : ∀ k' b, Rounds cfg now k k' b → Inv cfg base stale k' → TimersOk cfg k' →
      timerQueuePeekExpired k' now = none → Q (some (woken || b)) k') :
    wp (processExpiredLoop cfg now fuel woken) Q E k := by
  induction fuel generalizing k woken with
  | zero =>
    have hpeek : timerQueuePeekExpired k now = none := by
      cases hp : timerQueuePeekExpired k now with
      | none => rfl
      | some i =>
        obtain ⟨hhead, hreached⟩ := mem_of_peekExpired hp
        have hpos : 0 < k.dueTimers now :=
          List.countP_pos_iff.mpr ⟨i, List.mem_of_head? hhead, by simpa using hreached⟩
        omega
    simp only [processExpiredLoop, wp_bind, wp_get, hpeek, wp_pure]
    simpa using hQ k false (.done k) h ht hpeek
  | succ fuel ih =>
    simp only [processExpiredLoop, wp_bind, wp_get]
    cases hpeek : timerQueuePeekExpired k now with
    | none =>
      simp only [wp_pure]
      simpa using hQ k false (.done k) h ht hpeek
    | some i =>
      simp only [wp_bind]
      apply wp_round h ht hl hpeek
      intro k₁ b hround hinv
      have hlife : k₁.lifecycle = k.lifecycle := by
        cases hround.service with
        | quiet same => rw [same.same]
        | woken k₂ k₃ before _ wakes after =>
          rw [after.same]
          change k₃.lifecycle = _
          rw [wakes.frame, before.same]
      apply ih hinv hround.timers (hlife.trans hl)
      · have := hround.dueTimers ht
        omega
      · intro k' b' hrounds hinv' ht' hend
        rw [Bool.or_assoc]
        exact hQ k' (b || b') (.step ht hround hrounds) hinv' ht' hend

theorem wp_timerManagerProcessExpired {Q : Bool → Kernel → Prop} (h : Inv cfg base stale k)
    (ht : TimersOk cfg k) (hl : k.lifecycle = .running)
    (hQ : ∀ k' b, Rounds cfg now k k' b → Inv cfg base stale k' → TimersOk cfg k' →
      timerQueuePeekExpired k' now = none → Q b k')
    (hE : ∀ k' b, Rounds cfg now k k' b → Inv cfg base stale k' → TimersOk cfg k' →
      timerQueuePeekExpired k' now = none → ¬ TimerManagerValidate cfg k' →
      E (.assertion .timerManager) k') :
    wp (timerManagerProcessExpired cfg now) Q E k := by
  have hfuel : k.dueTimers now ≤ k.activeQueue.length := List.countP_le_length
  unfold timerManagerProcessExpired
  simp only [wp_bind, wp_get]
  apply wp_processExpiredLoop h ht hl hfuel
  intro k' b hrounds hinv ht' hend
  rw [wp_fatalUnless]
  refine ⟨fun _ => ?_, hE k' b hrounds hinv ht' hend⟩
  rw [wp_pure]
  exact hQ k' b hrounds hinv ht' hend

/-- Work for active timers that are due, with the deadlines they reached. -/
def Kernel.Announces (k : Kernel) (now : Tick) (works : List CallbackWork) : Prop :=
  ∀ work ∈ works, (k.timers work.timer).state = .active ∧
    tickReached now (k.expiration work.timer) ∧ work.expirationTick = k.expiration work.timer

namespace Rounds

theorem service (h : Rounds cfg now k k' b) : ServiceRun cfg k k' b := by
  induction h with
  | done k => exact .quiet (.refl k)
  | step _ round _ ih => exact round.service.trans ih

/-- The work that is queued carries the deadlines it is for. -/
theorem queue (h : Rounds cfg now k k' b) :
    ∃ works, k'.callbackQueue = k.callbackQueue ++ works ∧ k.Announces now works := by
  induction h with
  | done k => exact ⟨[], by simp, nofun⟩
  | @step k k₁ k' i _ _ timers round _ ih =>
    obtain ⟨works, hw, hfirst⟩ := round.queue
    obtain ⟨works', hw', hrest⟩ := ih
    obtain ⟨hhead, hreached⟩ := mem_of_peekExpired round.peek
    refine ⟨works ++ works', by rw [hw', hw, List.append_assoc], fun work hmem => ?_⟩
    rcases List.mem_append.mp hmem with hmem | hmem
    · obtain ⟨rfl, htick⟩ := hfirst work hmem
      exact ⟨(timers.mem _).mp (List.mem_of_head? hhead), hreached, htick⟩
    · obtain ⟨hact, hdue, htick⟩ := hrest work hmem
      rcases eq_or_ne work.timer i with rfl | hj
      · exact absurd hdue (round.not_due timers hact)
      · rw [round.moved.others _ hj] at hact
        rw [round.retimed.expiration_eq hj] at hdue htick
        exact ⟨hact, hdue, htick⟩

theorem serviceWork (h : Rounds cfg now k k' b) : k'.serviceWork = k.serviceWork := by
  induction h with
  | done k => rfl
  | step _ round _ ih => exact ih.trans round.serviceWork

theorem peek (h : Rounds cfg now k k' b) (hb : b = true) : timerQueuePeekExpired k now ≠ none := by
  cases h with
  | done => simp at hb
  | step _ round _ => simp [round.peek]

/-- A timer expires at most once. -/
theorem timer (h : Rounds cfg now k k' b) (j : Nat) :
    k'.timers j = k.timers j ∨ (k.timers j).state = .active ∧
      tickReached now (k.expiration j) ∧ k'.timers j = (k.timers j).expired now := by
  induction h with
  | done k => exact .inl rfl
  | @step k k₁ k' i _ _ timers round _ ih =>
    obtain ⟨hhead, hreached⟩ := mem_of_peekExpired round.peek
    rcases eq_or_ne j i with rfl | hj
    · refine .inr ⟨(timers.mem j).mp (List.mem_of_head? hhead), hreached, ?_⟩
      rcases ih with hsame | ⟨hact, hdue, -⟩
      · rw [hsame, round.record]
      · exact absurd hdue (round.not_due timers hact)
    · rwa [round.moved.others j hj, round.retimed.expiration_eq hj] at ih

theorem move (h : Rounds cfg now k k' b) (ht : TimersOk cfg k) (j : Nat) :
    TimerMove cfg now j (k.timers j) (k'.timers j) := by
  rcases h.timer j with hsame | ⟨hact, hdue, hrec⟩
  · rw [hsame]
    exact .same
  · rw [hrec]
    exact .expired ((ht.slot j).set_of_active hact) hact hdue

end Rounds

/-! ## Order after the loop -/

/-- A due periodic timer, queued again, goes behind the due timers that follow it. -/
def Kernel.Spread (k : Kernel) (now : Tick) : Prop :=
  k.activeQueue.Pairwise fun i j =>
    tickReached now (k.expiration i) → tickReached now (k.expiration j) →
    (k.timers i).mode = .periodic →
    distance (k.expiration j) (timerPeriodicNext (k.timers i) now) ≤ 2 ^ 31

instance (k : Kernel) (now : Tick) : Decidable (k.Spread now) := by
  delta Kernel.Spread
  infer_instance

/-- The active queue in the midst of the loop: timers that are due, then timers ahead in order. -/
structure Sifted (now : Tick) (k : Kernel) (due ahead : List Nat) : Prop where
  queue : k.activeQueue = due ++ ahead
  reached : ∀ i ∈ due, tickReached now (k.expiration i)
  spread : due.Pairwise fun i j => (k.timers i).mode = .periodic →
    distance (k.expiration j) (timerPeriodicNext (k.timers i) now) ≤ 2 ^ 31
  window : ∀ i ∈ ahead, InWindow now (k.expiration i)
  sorted : ahead.Pairwise fun i j => distance now (k.expiration i) ≤ distance now (k.expiration j)

namespace Sifted

/-- Time passes over a queue in order. -/
theorem of_ahead {elapsed : Tick} (h : k.Ahead) (he : elapsed ≤ delayMax)
    (hs : k.Spread (k.currentTick + elapsed)) :
    ∃ due ahead, Sifted (k.currentTick + elapsed) k due ahead := by
  have hreach : ∀ i ∈ k.activeQueue, (tickReached (k.currentTick + elapsed) (k.expiration i) ↔
      distance k.currentTick (k.expiration i) ≤ elapsed.toNat) := fun i hi =>
    tickReached_add_iff he (h.window i hi).2
  have hfar : ∀ i ∈ k.activeQueue, ¬ tickReached (k.currentTick + elapsed) (k.expiration i) →
      distance (k.currentTick + elapsed) (k.expiration i) + elapsed.toNat =
        distance k.currentTick (k.expiration i) := by
    intro i hi hnot
    rw [hreach i hi] at hnot
    rw [distance_add (by omega)]
    omega
  let p : Nat → Bool := fun i => decide (tickReached (k.currentTick + elapsed) (k.expiration i))
  have hsplit : k.activeQueue.filter p ++ k.activeQueue.filter (fun i => !p i) = k.activeQueue := by
    refine Ordered.filter_append_filter_not (h.sorted.imp_of_mem fun {i j} hi hj hij hpj => ?_)
    have hj' := (hreach j hj).mp (by simpa [p] using hpj)
    simpa [p] using (hreach i hi).mpr (hij.trans hj')
  refine ⟨_, _, ⟨hsplit.symm, ?_, ?_, ?_, ?_⟩⟩
  · intro i hi
    simpa [p] using (List.mem_filter.mp hi).2
  · refine (List.Pairwise.filter p hs).imp_of_mem fun {i j} hi hj hij => ?_
    exact hij (by simpa [p] using (List.mem_filter.mp hi).2)
      (by simpa [p] using (List.mem_filter.mp hj).2)
  · intro i hi
    obtain ⟨hi, hp⟩ := List.mem_filter.mp hi
    have hnot : ¬ tickReached (k.currentTick + elapsed) (k.expiration i) := by simpa [p] using hp
    have hdist := hfar i hi hnot
    have hw := h.window i hi
    rw [hreach i hi] at hnot
    unfold InWindow at *
    omega
  · refine (List.Pairwise.filter _ h.sorted).imp_of_mem fun {i j} hi hj hij => ?_
    obtain ⟨hi, hpi⟩ := List.mem_filter.mp hi
    obtain ⟨hj, hpj⟩ := List.mem_filter.mp hj
    have := hfar i hi (by simpa [p] using hpi)
    have := hfar j hj (by simpa [p] using hpj)
    omega

/-- A round takes the first due timer and queues it, if at all, among the timers ahead. -/
theorem round {due ahead : List Nat} (h : Sifted now k due ahead) (ht : TimersOk cfg k)
    (hr : Round cfg now k i k' b) : ∃ due' ahead', Sifted now k' due' ahead' := by
  obtain ⟨hhead, hreached⟩ := mem_of_peekExpired hr.peek
  obtain ⟨due', rfl⟩ : ∃ due', due = i :: due' := by
    cases due with
    | nil =>
      rw [h.queue] at hhead
      exact absurd hreached (not_tickReached_of_inWindow (h.window i (List.mem_of_head? hhead)))
    | cons j due' =>
      rw [h.queue] at hhead
      obtain rfl : j = i := by simpa using hhead
      exact ⟨due', rfl⟩
  have hnodup := ht.nodup
  rw [h.queue] at hnodup
  have hne : ∀ j ∈ due' ++ ahead, j ≠ i := by
    rintro j hj rfl
    exact (List.nodup_cons.mp hnodup).1 hj
  have hexp : ∀ j ∈ due' ++ ahead, k'.expiration j = k.expiration j := fun j hj =>
    hr.retimed.expiration_eq (hne j hj)
  have herase : k.activeQueue.erase i = due' ++ ahead := by simp [h.queue]
  obtain ⟨hfirst, hspread⟩ := List.pairwise_cons.mp h.spread
  have hdue : ∀ j ∈ due', tickReached now (k'.expiration j) := by
    intro j hj
    rw [hexp j (by simp [hj])]
    exact h.reached j (by simp [hj])
  have hspread' : due'.Pairwise fun i j => (k'.timers i).mode = .periodic →
      distance (k'.expiration j) (timerPeriodicNext (k'.timers i) now) ≤ 2 ^ 31 := by
    refine hspread.imp_of_mem fun {a c} ha hc hac => ?_
    rw [hr.retimed.others a (hne a (by simp [ha])), hexp c (by simp [hc])]
    exact hac
  have hwindow : ∀ j ∈ ahead, InWindow now (k'.expiration j) := by
    intro j hj
    rw [hexp j (by simp [hj])]
    exact h.window j hj
  have hsorted : ahead.Pairwise fun i j =>
      distance now (k'.expiration i) ≤ distance now (k'.expiration j) := by
    refine h.sorted.imp_of_mem fun {a c} ha hc hac => ?_
    rw [hexp a (by simp [ha]), hexp c (by simp [hc])]
    exact hac
  have hqueue := hr.retimed.queue
  rw [herase] at hqueue
  split at hqueue <;> rename_i hact
  · -- a periodic timer, which is not before the timers still due
    obtain ⟨hper, hnext, hin⟩ := hr.reinserted ht hact
    have hpass : ∀ j ∈ due', ¬ Earlier k'.expiration i j := by
      intro j hj
      have hle := hfirst j hj hper
      change ¬ tickBefore (k'.expiration i) (k'.expiration j)
      rw [tickBefore_iff, hexp j (by simp [hj]), hnext]
      omega
    rw [Ordered.orderedInsert_append hpass] at hqueue
    refine ⟨due', _, ⟨hqueue, hdue, hspread', ?_, ?_⟩⟩
    · intro j hj
      obtain rfl | hj := Ordered.mem_orderedInsert.mp hj
      · exact hin
      · exact hwindow j hj
    · exact pairwise_orderedInsert_earlier hin hwindow hsorted
  · exact ⟨due', ahead, ⟨hqueue, hdue, hspread', hwindow, hsorted⟩⟩

end Sifted

/-- When the advance is not too long for the periods at hand, the loop leaves no timer overdue. -/
theorem Rounds.ahead {due ahead : List Nat} (h : Rounds cfg now k k' b)
    (hs : Sifted now k due ahead) (hend : timerQueuePeekExpired k' now = none)
    (hnow : k'.currentTick = now) : k'.Ahead := by
  induction h generalizing due ahead with
  | done k =>
    cases due with
    | nil =>
      refine ⟨?_, ?_⟩
      · simpa [hs.queue, hnow] using hs.window
      · simpa [hs.queue, hnow] using hs.sorted
    | cons i due =>
      have hr := hs.reached i (by simp)
      simp [timerQueuePeekExpired, hs.queue, Kernel.expiration] at hend hr
      contradiction
  | step timers round _ ih =>
    obtain ⟨due', ahead', hs'⟩ := hs.round timers round
    exact ih hs' hend hnow

end RtsKernel
