import RtsKernel.Invariant.Timers
import RtsKernel.Operation.Service

/-!
# Timer calls

Initialisation, start, restart and stop of a timer, and the two halves of a callback. They leave
the tasks alone, except that restart and stop withdraw a `READY` service when they have removed the
last work item.
-/

namespace RtsKernel

open Halting Prog

variable {cfg : Config} {base : Tick} {stale : TaskId → Prop} {k k₁ k₂ k' k'' : Kernel} {i j : Nat}
  {E : Fatal → Kernel → Prop}

/-! ## What a timer call does to the tasks -/

theorem SameTasks.refl (k : Kernel) : SameTasks k k := rfl

theorem SameTasks.trans (h : SameTasks k k') (h' : SameTasks k' k'') : SameTasks k k'' := by
  unfold SameTasks at *
  rw [h] at h'
  exact h'

theorem SameTasks.sameSchedule (h : SameTasks k k') : SameSchedule k k' := by
  rw [h]
  exact ⟨rfl, rfl, rfl, rfl, fun _ => rfl⟩

theorem SameTasks.sameWaits (h : SameTasks k k') (htick : k'.currentTick = k.currentTick) :
    SameWaits k k' := by
  rw [h] at htick ⊢
  exact ⟨htick, fun _ _ => ⟨rfl, Iff.rfl, id⟩, rfl, fun _ => rfl, fun _ => rfl⟩

theorem SameTasks.fifo (h : SameTasks k k') : Fifo k k' := by
  rw [h]
  exact .refl k

/-- A timer call leaves the tasks alone or withdraws the timer service. -/
inductive Tended (k k' : Kernel) : Prop where
  | quiet (same : SameTasks k k') (requests : k'.rescheduleRequests = k.rescheduleRequests)
  | withdrawn (service : Withdrawn k k')

namespace Tended

theorem after (h : SameTasks k k₁) (hreq : k₁.rescheduleRequests = k.rescheduleRequests)
    (h' : Tended k₁ k') : Tended k k' := by
  cases h' with
  | quiet same requests => exact .quiet (h.trans same) (requests.trans hreq)
  | withdrawn hw =>
    refine .withdrawn ?_
    obtain ⟨h1, h2, h3, h4, h5, h6, h7, h8, h9, h10, h11, h12, h13⟩ := hw
    rw [h] at h1 h3 h4 h5 h6 h7 h8 h9 h10 h12 h13
    exact ⟨h1, h2, h3, h4, h5, h6, h7, h8, h9, h10, h11.trans hreq, h12, h13⟩

theorem before (h : Tended k k₁) (h' : SameTasks k₁ k')
    (hreq : k'.rescheduleRequests = k₁.rescheduleRequests) : Tended k k' := by
  cases h with
  | quiet same requests => exact .quiet (same.trans h') (hreq.trans requests)
  | withdrawn hw =>
    refine .withdrawn ?_
    obtain ⟨h1, h2, h3, h4, h5, h6, h7, h8, h9, h10, h11, h12, h13⟩ := hw
    rw [h']
    exact ⟨h1, h2, h3, h4, h5, h6, h7, h8, h9, h10, hreq.trans h11, h12, h13⟩

theorem sameWaits (h : Tended k k') (htick : k'.currentTick = k.currentTick) : SameWaits k k' := by
  cases h with
  | quiet same _ => exact same.sameWaits htick
  | withdrawn hw => exact hw.sameWaits htick

theorem replans (h : Tended k k') (hplan : PlanOk k.currentTask k.switchPlan) : Replans k k' := by
  cases h with
  | quiet same _ =>
    refine .of_same (by rw [same]) fun t ht => ?_
    rw [same]
    exact ht
  | withdrawn hw => exact hw.replans hplan

theorem notifies (h : Tended k k') : Notifies k k' := by
  cases h with
  | quiet same requests =>
    refine .of_same (fun hp => ?_) requests
    rw [same] at hp
    exact hp
  | withdrawn hw => exact hw.notifies

theorem fifo (h : Tended k k') : Fifo k k' := by
  cases h with
  | quiet same _ => exact same.fifo
  | withdrawn hw => exact hw.fifo

end Tended

/-! ## Invalidation -/

/-- The queued work of one timer is dropped. -/
def Kernel.dropWork (k : Kernel) (i : Nat) : Kernel :=
  { k with callbackQueue := k.callbackQueue.filter fun work => work.timer ≠ i }

/-- One timer is replaced, and queued if it is active. -/
def Kernel.retime (k : Kernel) (i : Nat) (timer : Timer) : Kernel :=
  { k with
    timers := Function.update k.timers i timer
    activeQueue :=
      if timer.state = .active then (k.activeQueue.erase i).orderedInsert
        (Earlier fun j => (Function.update k.timers i timer j).expirationTick) i
      else k.activeQueue.erase i }

/-- The pending work of one timer has been dropped, and the service withdrawn if it was the last. -/
structure Invalidated (k k' : Kernel) (i : Nat) : Prop where
  tended : Tended k k'
  frame : k'.rest = ((k.dropWork i).updateTimer i Timer.purge).rest
  withdrawn : (k'.tasks .timerService).state = .blocked →
    (k.tasks .timerService).state = .blocked ∨
    (k.tasks .timerService).state = .ready ∧ ∀ work ∈ k.callbackQueue, work.timer = i

/-- The diagnostics of a purge, for the number of work items a timer can have. -/
theorem countStale_purge {timer : Timer} {n : Nat}
    (hn : n = if timer.callbackState = .pending then 1 else 0) :
    { timer with
      callbackState := if timer.callbackState = .pending then .idle else timer.callbackState
      diagnosticStaleCount :=
        diagnosticCounterAdd timer.diagnosticStaleCount (BitVec.ofNat 32 n) } = timer.purge := by
  have hone : diagnosticCounterAdd timer.diagnosticStaleCount (BitVec.ofNat 32 1) =
      diagnosticCounterIncrement timer.diagnosticStaleCount := by
    refine BitVec.eq_of_toNat_eq ?_
    rw [toNat_diagnosticCounterAdd, toNat_diagnosticCounterIncrement]
    rfl
  have hzero : diagnosticCounterAdd timer.diagnosticStaleCount (BitVec.ofNat 32 0) =
      timer.diagnosticStaleCount := by
    refine BitVec.eq_of_toNat_eq ?_
    have hlt := timer.diagnosticStaleCount.isLt
    rw [toNat_diagnosticCounterAdd]
    simp only [BitVec.toNat_ofNat]
    omega
  unfold Timer.purge
  split at hn <;> rename_i hp
  · rw [hn, hone]
    simp [hp]
  · rw [hn, hzero]
    simp [hp]

/-- Dropping the work of a timer, before and after its diagnostics. -/
theorem dropped_rest {n : Nat} (hn : n = if (k.timers i).callbackState = .pending then 1 else 0)
    (hk₁ : k₁ = ((k.dropWork i).updateTimer i fun timer =>
      { timer with
        callbackState :=
          if timer.callbackState = CallbackState.pending then .idle else timer.callbackState })) :
    (countStale i n k₁).rest = ((k.dropWork i).updateTimer i Timer.purge).rest := by
  have htimers : (countStale i n k₁).timers = Function.update k.timers i (k.timers i).purge := by
    rw [← countStale_purge hn, hk₁, countStale, Kernel.count_timers, Kernel.updateTimer_timers,
      Kernel.updateTimer_timers, Function.update_self, Function.update_idem]
    rfl
  have hcounted :
      (countStale i n k₁).rest = { k₁ with timers := (countStale i n k₁).timers }.rest := by
    unfold countStale Kernel.rest Kernel.count Kernel.updateTimer
    rfl
  rw [hcounted, htimers, hk₁]
  rfl

theorem wp_timerInvalidatePending {Q : Unit → Kernel → Prop} (h : Inv cfg base noneStale k)
    (hl : k.lifecycle ≠ .reset)
    (hthread : ∀ c, k.currentTask = some c → (k.tasks c).state = .running)
    (hcount : timerCallbackQueueCountFor k i =
      if (k.timers i).callbackState = .pending then 1 else 0)
    (hQ : ∀ k', Invalidated k k' i → Inv cfg base noneStale k' → Q () k') :
    wp (timerInvalidatePending cfg i) Q E k := by
  set n := timerCallbackQueueCountFor k i with hn
  -- The callback state is settled; what remains is the service and the diagnostics.
  have hfinish : ∀ k₁, k₁ = ((k.dropWork i).updateTimer i fun timer =>
        { timer with
          callbackState :=
            if timer.callbackState = CallbackState.pending then .idle else timer.callbackState }) →
      if (k.dropWork i).callbackQueue.length = 0 then
        wp (schedulerTimerServiceCancelWake cfg) (fun _ t => Q () (countStale i n t)) E k₁
      else Q () (countStale i n k₁) := by
    intro k₁ hk₁
    have hsame : SameTasks k k₁ := by rw [hk₁]; rfl
    have hreq : k₁.rescheduleRequests = k.rescheduleRequests := by rw [hk₁]; rfl
    have hdropped := dropped_rest hcount hk₁
    have hinv : Inv cfg base noneStale k₁ := h.sameTasks hsame
    have hlast : ∀ k₂, k₂.rest = k₁.rest → Tended k₁ k₂ → Inv cfg base noneStale k₂ →
        ((k₂.tasks .timerService).state = .blocked → (k.tasks .timerService).state = .blocked ∨
          (k.tasks .timerService).state = .ready ∧ (k.dropWork i).callbackQueue = []) →
        Q () (countStale i n k₂) := by
      intro k₂ hrest₂ htended hinv₂ hblocked
      have hparts : ∀ r : Kernel, (countStale i n r).rest = (countStale i n r.rest).rest :=
        fun _ => rfl
      have hstale : (countStale i n k₂).rest = (countStale i n k₁).rest := by
        rw [hparts k₂, hrest₂, ← hparts]
      refine hQ _ ⟨(htended.after hsame hreq).before rfl rfl, hstale.trans hdropped, fun hb => ?_⟩
        (hinv₂.sameTasks rfl)
      refine (hblocked hb).imp id fun hready => ⟨hready.1, ?_⟩
      simpa [Kernel.dropWork, List.filter_eq_nil_iff] using hready.2
    have htasks : k₁.tasks = k.tasks := by rw [hk₁]; rfl
    split <;> rename_i hlen
    · refine wp_schedulerTimerServiceCancelWake hinv (by rw [hk₁]; exact hl)
        (by rw [hk₁]; exact hthread) (fun _ => ?_) fun k₂ hw hrest₂ hinv₂ => ?_
      · exact hlast k₁ rfl (.quiet (.refl k₁) rfl) hinv fun hb => .inl (htasks ▸ hb)
      · exact hlast k₂ hrest₂ (.withdrawn hw) hinv₂
          fun _ => .inr ⟨htasks ▸ hw.ready, List.length_eq_zero_iff.mp hlen⟩
    · exact hlast k₁ rfl (.quiet (.refl k₁) rfl) hinv fun hb => .inl (htasks ▸ hb)
  unfold timerInvalidatePending timerCallbackQueueRemoveTimer
  simp only [wp_bind, wp_get, wp_modify, wp_pure, wp_ite]
  split <;> rename_i hpend
  · have hpend' : (k.timers i).callbackState = .pending := hpend
    rw [if_pos hpend'] at hcount
    rw [wp_fatalUnless_of hcount]
    refine hfinish _ ?_
    simp [Kernel.updateTimer, Kernel.dropWork, hpend']
  · have hpend' : (k.timers i).callbackState ≠ .pending := hpend
    rw [if_neg hpend'] at hcount
    rw [wp_fatalUnless_of hcount]
    refine hfinish _ ?_
    simp [Kernel.updateTimer, Kernel.dropWork, hpend']

/-! ## Calls -/

/-- The service is `READY` and has no work but that of one timer. -/
def LastWork (k : Kernel) (i : Nat) : Prop :=
  (k.tasks .timerService).state = .ready ∧ ∀ work ∈ k.callbackQueue, work.timer = i

instance (k : Kernel) (i : Nat) : Decidable (LastWork k i) := inferInstanceAs (Decidable (_ ∧ _))

/-- The calls that withdraw the timer service. -/
def Event.WithdrawsService (cfg : Config) (k : Kernel) : Event → Prop
  | .timerRestart isr i =>
    isr = false ∧ TimerLifecycleAllowsControl k ∧ TimerResolves cfg k i ∧ LastWork k i
  | .timerStop isr i =>
    isr = false ∧ TimerLifecycleAllowsControl k ∧ TimerResolves cfg k i ∧
    ((k.timers i).state = .active ∨ (k.timers i).callbackState ≠ .idle) ∧ LastWork k i
  | _ => False

instance (cfg : Config) (k : Kernel) (ev : Event) : Decidable (ev.WithdrawsService cfg k) := by
  induction ev using Event.casesOn <;> dsimp only [Event.WithdrawsService] <;> infer_instance

/-- What a timer call guarantees: it moves timers, drops work but queues none, and begins no
callback while it leaves the service blocked. -/
structure TimerCall (cfg : Config) (k : Kernel) (ev : Event) (k' : Kernel) : Prop where
  tended : Tended k k'
  inv : Inv cfg k.currentTick noneStale k'
  tick : k'.currentTick = k.currentTick
  timers : TimersOk cfg k'
  moves : ∀ j, TimerMove cfg k.currentTick j (k.timers j) (k'.timers j)
  queue : k'.callbackQueue.Sublist k.callbackQueue
  ahead : k.Ahead → k'.Ahead
  blocked : (k'.tasks .timerService).state = .blocked →
    (k.tasks .timerService).state = .blocked ∨ ev.WithdrawsService cfg k
  callback : (k'.tasks .timerService).state = .blocked →
    ∀ j, (k'.timers j).callbackState = .running → (k.timers j).callbackState = .running

theorem TimerCall.refl {ev : Event} (h : Inv cfg k.currentTick noneStale k) (ht : TimersOk cfg k) :
    TimerCall cfg k ev k :=
  ⟨.quiet (.refl k) rfl, h, rfl, ht, fun _ => .same, .refl _, id, .inl, fun _ _ => id⟩

/-- One timer has been set to the given record, queued if that is active, and its work dropped. -/
structure Controlled (cfg : Config) (k k' : Kernel) (i : Nat) (timer : Timer) : Prop where
  tended : Tended k k'
  inv : Inv cfg k.currentTick noneStale k'
  frame : k'.rest = ((k.retime i timer).dropWork i).rest
  withdrawn : (k'.tasks .timerService).state = .blocked →
    (k.tasks .timerService).state = .blocked ∨ LastWork k i

namespace Controlled

variable {timer : Timer} {ev : Event}

theorem timers (h : Controlled cfg k k' i timer) :
    k'.timers = Function.update k.timers i timer := Kernel.of_rest Kernel.timers h.frame

theorem callbackQueue (h : Controlled cfg k k' i timer) :
    k'.callbackQueue = k.callbackQueue.filter fun work => work.timer ≠ i :=
  Kernel.of_rest Kernel.callbackQueue h.frame

theorem workFor (h : Controlled cfg k k' i timer) : k'.workFor i = [] := by
  simp [Kernel.workFor, h.callbackQueue]

theorem retimed (h : Controlled cfg k k' i timer) : Retimed k k' i := by
  have hactive := Kernel.of_rest Kernel.activeQueue h.frame
  have htimers := h.timers
  refine ⟨fun j hj => by simp [htimers, hj], ?_⟩
  rw [show k'.timers i = timer by simp [htimers]]
  have hexp : k'.expiration = fun j => (Function.update k.timers i timer j).expirationTick := by
    funext j
    rw [Kernel.expiration, htimers]
  rw [hexp]
  exact hactive

theorem moved (h : Controlled cfg k k' i timer) (ht : TimersOk cfg k)
    (hmove : TimerMove cfg k.currentTick i (k.timers i) timer)
    (hpend : timer.callbackState ≠ .pending)
    (hrun : timer.callbackState = .running ↔ (k.timers i).callbackState = .running) :
    Moved cfg k.currentTick k k' i := by
  have htimer : k'.timers i = timer := by simp [h.timers]
  have hserves : ∀ j, k'.Serves j ↔ k.Serves j := fun j => by
    have hwork : k'.serviceWork = k.serviceWork := (Kernel.of_rest Kernel.serviceWork h.frame :)
    simp only [Kernel.Serves, hwork]
  refine ⟨htimer ▸ hmove, h.retimed.others, fun j hj => ?_, ?_, ?_, fun j _ => hserves j, ?_⟩
  · unfold Kernel.workFor
    rw [h.callbackQueue, List.filter_filter]
    refine List.filter_congr fun work _ => ?_
    by_cases hwork : work.timer = j
    · simp [hwork, hj]
    · simp [hwork]
  · rw [h.workFor, htimer, if_neg hpend]
    rfl
  · simp [h.workFor]
  · rw [htimer, hrun, hserves]
    exact ht.running i

theorem call (h : Controlled cfg k k' i timer) (ht : TimersOk cfg k) (hl : k.lifecycle ≠ .reset)
    (hmove : TimerMove cfg k.currentTick i (k.timers i) timer)
    (hpend : timer.callbackState ≠ .pending)
    (hrun : timer.callbackState = .running ↔ (k.timers i).callbackState = .running)
    (hset : TimerSet cfg i (k.timers i))
    (hwindow : timer.state = .active → InWindow k.currentTick timer.expirationTick)
    (hev : (k'.tasks .timerService).state = .blocked →
      (k.tasks .timerService).state = .blocked ∨ ev.WithdrawsService cfg k) :
    TimerCall cfg k ev k' := by
  have htimer : k'.timers i = timer := by simp [h.timers]
  have hm := h.moved ht hmove hpend hrun
  have hr := h.retimed
  have htick : k'.currentTick = k.currentTick := (Kernel.of_rest Kernel.currentTick h.frame :)
  have hslot : (k'.timers i).slotState = (k.timers i).slotState := by
    rw [htimer, hset.slotState]
    exact hmove.slotState hset.slotState
  have hsub : k'.callbackQueue.Sublist k.callbackQueue := by
    rw [h.callbackQueue]
    exact List.filter_sublist
  have hlife : k'.lifecycle = k.lifecycle := (Kernel.of_rest Kernel.lifecycle h.frame :)
  refine ⟨h.tended, h.inv, htick, ?_, hm.moves, hsub, fun ha => ?_, hev, fun _ j hj => ?_⟩
  · refine hm.timersOk ht (hlife ▸ hl) (hr.nodup ht) (hr.mem_activeQueue ht) (fun hb => ?_) ?_ ?_ ?_
    · rw [h.callbackQueue, List.filter_eq_nil_iff]
      obtain hold | ⟨-, hlast⟩ := h.withdrawn hb
      · simp [ht.work hold]
      · simpa using hlast
    · have hdepth := Kernel.of_rest Kernel.callbackQueueMaximumDepth h.frame
      exact ⟨hsub.length_le.trans (ht.depth.1.trans_eq hdepth.symm), hdepth.trans_le ht.depth.2⟩
    · exact (Kernel.of_rest Kernel.timerNextFreeHint h.frame).trans_lt ht.hint
    · rw [hm.timersInUse hslot, ← ht.inUse]
      exact (Kernel.of_rest Kernel.timerAllocatedCount h.frame :)
  · refine hr.ahead ht ha htick fun hact => ?_
    rw [Kernel.expiration, htimer]
    exact hwindow (htimer ▸ hact)
  · by_cases hji : j = i
    · rw [hji] at hj ⊢
      exact hrun.mp (htimer ▸ hj)
    · rwa [hr.others j hji] at hj

end Controlled

theorem wp_timerQueueRemove {Q : Unit → Kernel → Prop} (hi : i ∈ k.activeQueue)
    (hQ : Q () { k with activeQueue := k.activeQueue.erase i }) :
    wp (timerQueueRemove cfg i) Q E k := by
  simp only [timerQueueRemove, wp_bind, wp_get, wp_ite, hi, if_true, wp_modify]
  exact hQ

theorem wp_timerQueueInsert {Q : Unit → Kernel → Prop} (hi : i ∉ k.activeQueue)
    (hQ : Q () { k with activeQueue := k.activeQueue.orderedInsert (Earlier k.expiration) i }) :
    wp (timerQueueInsert cfg i) Q E k := by
  simp only [timerQueueInsert, wp_bind, wp_get, wp_ite, hi, if_false, wp_modify]
  exact hQ

/-- The record of a timer after `timerArmAt`. -/
def Timer.armed (now : Tick) (restart : Bool) (timer : Timer) : Timer :=
  { timer with
    expirationTick := now + timer.period
    state := .active
    diagnosticStartCount :=
      if restart = true then timer.diagnosticStartCount
      else diagnosticCounterIncrement timer.diagnosticStartCount
    diagnosticRestartCount :=
      if restart = true then diagnosticCounterIncrement timer.diagnosticRestartCount
      else timer.diagnosticRestartCount }

/-- A timer off the active queue is active again. -/
structure Armed (k k' : Kernel) (i : Nat) (restart : Bool) : Prop where
  same : SameTasks k k'
  requests : k'.rescheduleRequests = k.rescheduleRequests
  frame : k'.rest = (k.retime i ((k.timers i).armed k.currentTick restart)).rest

theorem wp_timerArmAt {Q : Status → Kernel → Prop} {restart : Bool} (hi : i ∉ k.activeQueue)
    (hQ : ∀ k', Armed k k' i restart → Q .ok k') (hE : ∀ k', E (.assertion .timerManager) k') :
    wp (timerArmAt cfg i restart) Q E k := by
  have herase : k.activeQueue.erase i = k.activeQueue := List.erase_of_not_mem hi
  unfold timerArmAt
  simp only [wp_bind, wp_modify]
  refine wp_timerQueueInsert hi ?_
  set timer : Timer := { k.timers i with
    expirationTick := k.currentTick + (k.timers i).period, state := .active } with htimer
  set k₁ := k.updateTimer i fun _ => timer with hk₁
  -- What follows the insertion concerns the diagnostics of the timer only.
  have hfinish : ∀ timer' f, timer' = (k.timers i).armed k.currentTick restart →
      Armed k (({ k₁ with activeQueue :=
        k₁.activeQueue.orderedInsert (Earlier k₁.expiration) i }.updateTimer i
          fun _ => timer').count f) i restart := by
    intro timer' f htimer'
    refine ⟨rfl, rfl, ?_⟩
    rw [← htimer']
    have hactive : timer'.state = .active := by rw [htimer']; rfl
    have hexp : timer'.expirationTick = timer.expirationTick := by rw [htimer']; rfl
    have hexps : k₁.expiration = fun j => (Function.update k.timers i timer' j).expirationTick := by
      funext j
      by_cases hj : j = i
      · simp [Kernel.expiration, hk₁, hj, hexp]
      · simp [Kernel.expiration, hk₁, hj]
    unfold Kernel.retime
    rw [if_pos hactive, herase, ← hexps]
    simp [Kernel.rest, Kernel.updateTimer, Kernel.count, hk₁]
  simp only [wp_bind, wp_ite, wp_modify, wp_get, wp_fatalUnless, wp_pure]
  split <;> rename_i hrestart
  · refine ⟨fun _ => hQ _ (hfinish _ _ ?_), fun _ => hE _⟩
    simp [Timer.armed, hrestart]
  · refine ⟨fun _ => hQ _ (hfinish _ _ ?_), fun _ => hE _⟩
    simp [Timer.armed, hrestart]

/-- A timer off the active queue, with its work dropped. -/
structure Disarmed (k k' : Kernel) (i : Nat) (timer : Timer) : Prop where
  tended : Tended k k'
  frame : k'.rest = (({ k with activeQueue := k.activeQueue.erase i }.updateTimer i
    fun _ => timer).dropWork i).rest
  withdrawn : (k'.tasks .timerService).state = .blocked →
    (k.tasks .timerService).state = .blocked ∨ LastWork k i

theorem Disarmed.timer {timer : Timer} (h : Disarmed k k' i timer) : k'.timers i = timer := by
  have htimers : k'.timers = Function.update k.timers i timer :=
    (Kernel.of_rest Kernel.timers h.frame :)
  simp [htimers]

theorem Disarmed.activeQueue {timer : Timer} (h : Disarmed k k' i timer) :
    k'.activeQueue = k.activeQueue.erase i := (Kernel.of_rest Kernel.activeQueue h.frame :)

/-- The common part of restart and stop. -/
theorem wp_disarm {Q : Unit → Kernel → Prop} {f : Timer → Timer} (h : Inv cfg base noneStale k)
    (ht : TimersOk cfg k) (hl : k.lifecycle ≠ .reset)
    (hthread : ∀ c, k.currentTask = some c → (k.tasks c).state = .running)
    (hf : ∀ timer, (f timer).callbackState = timer.callbackState)
    (hQ : ∀ k', Disarmed k k' i (f (k.timers i)).purge → Inv cfg base noneStale k' → Q () k') :
    if (k.timers i).state = .active then
      wp (timerQueueRemove cfg i)
        (fun _ t => wp (timerInvalidatePending cfg i) Q E (t.updateTimer i f))
        E k
    else wp (timerInvalidatePending cfg i) Q E (k.updateTimer i f) := by
  set k₁ := ({ k with activeQueue := k.activeQueue.erase i }).updateTimer i f with hk₁
  have hsame : SameTasks k k₁ := rfl
  have htimer : k₁.timers i = f (k.timers i) := by simp [hk₁]
  have hfinish : wp (timerInvalidatePending cfg i) Q E k₁ := by
    refine wp_timerInvalidatePending (h.sameTasks hsame) hl hthread ?_ fun k' hinv hok => ?_
    · rw [htimer, hf]
      exact ht.pending i
    · refine hQ k' ⟨hinv.tended.after hsame rfl, hinv.frame.trans ?_, hinv.withdrawn⟩ hok
      have htimers : Function.update k₁.timers i (f (k.timers i)).purge =
          Function.update k.timers i (f (k.timers i)).purge := by
        rw [hk₁, Kernel.updateTimer_timers, Function.update_idem]
      simp only [Kernel.updateTimer, Kernel.dropWork, Kernel.rest] at htimers ⊢
      rw [htimer, htimers]
      rfl
  split <;> rename_i hact
  · exact wp_timerQueueRemove ((ht.mem i).mpr hact) hfinish
  · have heq : k.activeQueue.erase i = k.activeQueue :=
      List.erase_of_not_mem (mt (ht.mem i).mp hact)
    rw [hk₁, heq] at hfinish
    exact hfinish

theorem Disarmed.armed {timer : Timer} {restart : Bool} (hd : Disarmed k k₁ i timer)
    (ha : Armed k₁ k' i restart) (h : Inv cfg k.currentTick noneStale k₁) (ht : TimersOk cfg k) :
    Controlled cfg k k' i (timer.armed k.currentTick restart) := by
  have htick : k₁.currentTick = k.currentTick := (Kernel.of_rest Kernel.currentTick hd.frame :)
  have htasks : k'.tasks = k₁.tasks := by rw [ha.same]
  have herase : (k.activeQueue.erase i).erase i = k.activeQueue.erase i :=
    List.erase_of_not_mem ht.nodup.not_mem_erase
  refine ⟨hd.tended.before ha.same ha.requests, h.sameTasks ha.same, ?_, htasks ▸ hd.withdrawn⟩
  have hparts : ∀ (r : Kernel) (t : Timer), (r.retime i t).rest = (r.rest.retime i t).rest :=
    fun _ _ => rfl
  rw [ha.frame, hd.timer, htick, hparts, hd.frame, ← hparts]
  simp only [Kernel.retime, Kernel.dropWork, Kernel.updateTimer, Function.update_idem, herase]

theorem tolerated_timerManager (ready owns : Prop) (k : Kernel) :
    Tolerated ready owns (.assertion .timerManager) k :=
      ⟨by simp [Site.Excluded], by simp [Site.Outgoing]⟩

/-- A timer call with the status it returns: it fails without a trace. -/
structure TimerCalled (cfg : Config) (k : Kernel) (ev : Event) (status : Status) (k' : Kernel) :
    Prop where
  call : TimerCall cfg k ev k'
  failed : status ≠ .ok → k' = k

/-- A call on one timer, which leaves the record it should, and no work. -/
structure TimerServed (cfg : Config) (k : Kernel) (ev : Event) (i : Nat) (timer : Timer)
    (status : Status) (k' : Kernel) : Prop extends TimerCalled cfg k ev status k' where
  timers : status = .ok → k'.timers = Function.update k.timers i timer
  dropped : status = .ok → k'.workFor i = []

theorem TimerServed.refused {ev : Event} {timer : Timer} {status : Status}
    (h : KernelOk cfg k) (ht : TimersOk cfg k) (hs : status ≠ .ok) :
    TimerServed cfg k ev i timer status k :=
  ⟨⟨.refl h.inv ht, fun _ => rfl⟩, fun hok => absurd hok hs, fun hok => absurd hok hs⟩

theorem timerStart_spec {isr : Bool} (h : KernelOk cfg k) (ht : TimersOk cfg k) :
    wp (timerStart cfg isr i)
      (TimerServed cfg k (.timerStart isr i) i ((k.timers i).started k.currentTick))
      (Tolerated k.CurrentReady k.IdleOwns) k := by
  unfold timerStart timerArm
  simp only [wp_ite, wp_pure, wp_bind, wp_get, if_true]
  split
  · exact .refused h ht (by simp)
  split <;> rename_i hctl
  · exact .refused h ht (by simp)
  split <;> rename_i hres
  · exact .refused h ht (by simp)
  split <;> rename_i hstopped
  · exact .refused h ht (by simp)
  rw [not_not] at hres hctl
  simp only [not_or, not_not] at hstopped
  obtain ⟨hstop, hidle⟩ := hstopped
  have hl : k.lifecycle ≠ .reset := by obtain hl | hl := hctl <;> simp [hl]
  have hset := (ht.slot i).set_of_allocated hres.2
  have hnot : i ∉ k.activeQueue := fun hm => by simp [(ht.mem i).mp hm] at hstop
  have hd : Disarmed k k i (k.timers i) := by
    refine ⟨.quiet (.refl k) rfl, ?_, .inl⟩
    have hfilter : (k.callbackQueue.filter fun work => work.timer ≠ i) = k.callbackQueue := by
      refine List.filter_eq_self.mpr fun work hw => ?_
      have hpend := ht.pending_of_mem hw
      simp only [decide_eq_true_eq]
      rintro rfl
      simp [hidle] at hpend
    simp only [Kernel.dropWork, Kernel.updateTimer, Function.update_eq_self,
      List.erase_of_not_mem hnot, hfilter]
  refine wp_timerArmAt hnot (fun k' ha => ?_) fun k' => tolerated_timerManager _ _ _
  have hc := hd.armed ha h.inv ht
  have hrec : (k.timers i).armed k.currentTick false = (k.timers i).started k.currentTick := rfl
  rw [hrec] at hc
  refine ⟨⟨hc.call ht hl (.started hset hstop hidle) ?_ Iff.rfl hset (fun _ => ?_)
    (fun hb => ?_), by simp⟩, fun _ => hc.timers, fun _ => hc.workFor⟩
  · simp [Timer.started, hidle]
  · exact inWindow_add hset.period.1 hset.period.2
  · rw [ha.same] at hb
    exact .inl hb

theorem Timer.purge_running (timer : Timer) :
    timer.purge.callbackState = .running ↔ timer.callbackState = .running := by
  unfold Timer.purge
  split <;> simp_all

theorem Timer.purge_not_pending (timer : Timer) : timer.purge.callbackState ≠ .pending := by
  unfold Timer.purge
  split <;> simp_all

theorem timerRestart_spec {isr : Bool} (h : KernelOk cfg k) (ht : TimersOk cfg k)
    (hthread : isr = false → ∀ c, k.currentTask = some c → (k.tasks c).state = .running) :
    wp (timerRestart cfg isr i)
      (TimerServed cfg k (.timerRestart isr i) i ((k.timers i).restarted k.currentTick))
      (Tolerated k.CurrentReady k.IdleOwns) k := by
  unfold timerRestart timerArm
  simp only [wp_ite, wp_pure, wp_bind, wp_get]
  split <;> rename_i hisr
  · exact .refused h ht (by simp)
  split <;> rename_i hctl
  · exact .refused h ht (by simp)
  split <;> rename_i hres
  · exact .refused h ht (by simp)
  rw [Bool.not_eq_true] at hisr
  rw [not_not] at hctl hres
  have hl : k.lifecycle ≠ .reset := by obtain hl | hl := hctl <;> simp [hl]
  have hset := (ht.slot i).set_of_allocated hres.2
  simp only [Bool.true_eq_false, if_false]
  refine wp_disarm h.inv ht hl (hthread hisr) (fun _ => rfl) fun k₁ hd hinv => ?_
  refine wp_timerArmAt ?_ (fun k' ha => ?_) fun k' => tolerated_timerManager _ _ _
  · rw [hd.activeQueue]
    exact ht.nodup.not_mem_erase
  have hc := hd.armed ha hinv ht
  have hrec : ∀ t : Timer, ({ t with generation := t.generation + 1 } : Timer).purge.armed
      k.currentTick true = t.restarted k.currentTick := fun t => by
    unfold Timer.restarted Timer.armed Timer.purge
    split <;> rfl
  rw [hrec] at hc
  refine ⟨⟨hc.call ht hl (.restarted hset) ?_ ?_ hset (fun _ => ?_) (fun hb => ?_), by simp⟩,
    fun _ => hc.timers, fun _ => hc.workFor⟩
  · exact (k.timers i).purge_not_pending
  · exact (k.timers i).purge_running
  · exact inWindow_add hset.period.1 hset.period.2
  · exact (hc.withdrawn hb).imp id fun hw => ⟨hisr, hctl, hres, hw⟩

theorem timerStop_spec {isr : Bool} (h : KernelOk cfg k) (ht : TimersOk cfg k)
    (hthread : isr = false → ∀ c, k.currentTask = some c → (k.tasks c).state = .running) :
    wp (timerStop cfg isr i) (TimerServed cfg k (.timerStop isr i) i (k.timers i).stopped)
      (Tolerated k.CurrentReady k.IdleOwns) k := by
  unfold timerStop
  simp only [wp_ite, wp_pure, wp_bind, wp_get, wp_modify, wp_fatalUnless]
  split <;> rename_i hisr
  · exact .refused h ht (by simp)
  split <;> rename_i hctl
  · exact .refused h ht (by simp)
  split <;> rename_i hres
  · exact .refused h ht (by simp)
  split <;> rename_i hstate
  · exact .refused h ht (by simp)
  rw [Bool.not_eq_true] at hisr
  rw [not_not] at hctl hres
  have hcause : (k.timers i).state = .active ∨ (k.timers i).callbackState ≠ .idle := by tauto
  have hl : k.lifecycle ≠ .reset := by obtain hl | hl := hctl <;> simp [hl]
  have hset := (ht.slot i).set_of_allocated hres.2
  refine wp_disarm h.inv ht hl (hthread hisr) (fun _ => rfl) fun k₁ hd hinv => ?_
  refine ⟨fun _ => ?_, fun _ => tolerated_timerManager _ _ _⟩
  have hc : Controlled cfg k ((k₁.updateTimer i fun timer =>
      { timer with
        diagnosticStopCount := diagnosticCounterIncrement timer.diagnosticStopCount }).count
      fun c => { c with timerStops := diagnosticCounterIncrement c.timerStops }) i
      (k.timers i).stopped := by
    refine ⟨hd.tended.before rfl rfl, hinv.sameTasks rfl, ?_, hd.withdrawn⟩
    have hparts : ∀ (r : Kernel) g f, ((r.updateTimer i g).count f).rest =
      (r.rest.updateTimer i g).rest := fun _ _ _ => rfl
    have hrec : ∀ t u : Timer, u = ({ t with state := .stopped, generation := t.generation + 1 } :
        Timer).purge →
        { u with diagnosticStopCount := diagnosticCounterIncrement u.diagnosticStopCount } =
        t.stopped := by
      rintro t u rfl
      unfold Timer.stopped Timer.purge
      split <;> rfl
    have hstopped : (k.timers i).stopped.state ≠ .active := by simp [Timer.stopped]
    rw [hparts, hd.frame, ← hrec _ _ rfl]
    rw [← hrec _ _ rfl] at hstopped
    simp only [Kernel.retime, if_neg hstopped, Kernel.dropWork, Kernel.updateTimer, Kernel.rest,
      Function.update_idem, Function.update_self]
  refine ⟨⟨hc.call ht hl (.stopped hset) ?_ ?_ hset (fun hact => ?_) (fun hb => ?_), by simp⟩,
    fun _ => hc.timers, fun _ => hc.workFor⟩
  · exact (k.timers i).purge_not_pending
  · exact (k.timers i).purge_running
  · simp [Timer.stopped] at hact
  · exact (hc.withdrawn hb).imp id fun hw => ⟨hisr, hctl, hres, hcause, hw⟩

/-! ## Initialisation -/

theorem mem_slotOrder {capacity hint : Nat} (hhint : hint < capacity)
    (hi : i ∈ slotOrder capacity hint) : i < capacity := by
  obtain ⟨examined, he, rfl⟩ := List.mem_map.mp hi
  have hlt := List.mem_range.mp he
  split <;> omega

theorem nextHint_lt {capacity index : Nat} (h : index < capacity) :
    nextHint capacity index < capacity := by
  unfold nextHint
  split <;> omega

theorem wp_timerReserve {Q : Option Nat → Kernel → Prop}
    (hhint : k.timerNextFreeHint < cfg.maxTimers) (hnone : Q none k)
    (hQ : ∀ i k₁, i < cfg.maxTimers → (k.timers i).slotState = .free →
      k₁ = { k with timers := k₁.timers, timerNextFreeHint := nextHint cfg.maxTimers i } →
      k₁.timers = Function.update k.timers i { k.timers i with slotState := .reserved } →
      Q (some i) k₁) : wp (timerReserve cfg) Q E k := by
  unfold timerReserve
  simp only [wp_ite, wp_bind, wp_get]
  rw [if_neg (by omega)]
  split <;> rename_i hfind
  · rw [wp_pure]
    exact hnone
  · simp only [wp_bind, wp_modify, wp_pure]
    exact hQ _ _ (mem_slotOrder hhint (List.mem_of_find?_eq_some hfind))
      (by simpa using List.find?_some hfind) rfl rfl

/-- A slot that comes into use. -/
theorem countP_update {p p' : Nat → Bool} {l : List Nat} (hl : l.Nodup) (hi : i ∈ l)
    (hold : p i = false) (hnew : p' i = true) (hothers : ∀ j, j ≠ i → p' j = p j) :
    l.countP p' = l.countP p + 1 := by
  induction l with
  | nil => simp at hi
  | cons a l ih =>
    rw [List.nodup_cons] at hl
    by_cases hai : a = i
    · subst hai
      have hrest : l.countP p' = l.countP p :=
        List.countP_congr fun j hj => by
          rw [hothers j]
          rintro rfl
          exact hl.1 hj
      simp [hold, hnew, hrest]
    · rw [List.countP_cons, List.countP_cons, ih hl.2 (by simpa [Ne.symm hai] using hi),
        hothers a hai]
      omega

/-- A fresh timer is stopped, and every other timer is as before. -/
theorem TimerCall.initialised {ev : Event} {config : TimerConfig} (ht : TimersOk cfg k)
    (hl : k.lifecycle = .initialized) (hlt : i < cfg.maxTimers)
    (hfree : (k.timers i).slotState = .free) (hvalid : config.IsValid) (htended : Tended k k')
    (hinv : Inv cfg k.currentTick noneStale k') (htasks : k'.tasks = k.tasks)
    (htimers : k'.timers = Function.update k.timers i (config.timer cfg i))
    (hframe : k'.rest = { k with
      timers := k'.timers
      timerNextFreeHint := nextHint cfg.maxTimers i
      timerAllocatedCount := k.timersInUse cfg + 1 }.rest)
    (hinUse : k'.timersInUse cfg = k.timersInUse cfg + 1) : TimerCall cfg k ev k' := by
  have hfresh := (ht.slot i).unused_of_free (by simp [hfree])
  have htimer : k'.timers i = config.timer cfg i := by simp [htimers]
  have hothers : ∀ j, j ≠ i → k'.timers j = k.timers j := fun j hj => by simp [htimers, hj]
  have htick : k'.currentTick = k.currentTick := (Kernel.of_rest Kernel.currentTick hframe :)
  have hlife : k'.lifecycle = k.lifecycle := (Kernel.of_rest Kernel.lifecycle hframe :)
  have hactive : k'.activeQueue = k.activeQueue := (Kernel.of_rest Kernel.activeQueue hframe :)
  have hqueue : k'.callbackQueue = k.callbackQueue := (Kernel.of_rest Kernel.callbackQueue hframe :)
  have hwork : k'.serviceWork = k.serviceWork := (Kernel.of_rest Kernel.serviceWork hframe :)
  have hdepth : k'.callbackQueueMaximumDepth = k.callbackQueueMaximumDepth :=
    (Kernel.of_rest Kernel.callbackQueueMaximumDepth hframe :)
  have hnone : k.workFor i = [] := by
    have hpend := ht.pending i
    rw [← Kernel.length_workFor, hfresh] at hpend
    simpa using hpend
  have hworks : ∀ j, k'.workFor j = k.workFor j := fun j => by simp only [Kernel.workFor, hqueue]
  have hexp : k'.expiration = k.expiration := funext fun j => by
    by_cases hj : j = i
    · rw [hj, Kernel.expiration, htimer, Kernel.expiration, hfresh]
      rfl
    · rw [Kernel.expiration, hothers j hj]
  have hm : Moved cfg k.currentTick k k' i := by
    refine ⟨htimer ▸ .initialised config hvalid hlt hfresh, hothers, fun j _ => hworks j, ?_, ?_,
      fun j _ => by simp only [Kernel.Serves, hwork], ?_⟩
    · rw [hworks, hnone, htimer]
      rfl
    · simp [hworks, hnone]
    · have hrun := ht.running i
      rw [hfresh] at hrun
      rw [htimer]
      simpa [TimerConfig.timer, Kernel.Serves, hwork] using hrun
  refine ⟨htended, hinv, htick, ?_, hm.moves, hqueue ▸ .refl _, fun ha => ⟨?_, ?_⟩, ?_, ?_⟩
  · refine hm.timersOk ht (by simp [hlife, hl]) (hactive ▸ ht.nodup) (fun j => ?_) ?_ ?_ ?_ ?_
    · rw [hactive, ht.mem]
      by_cases hj : j = i
      · rw [hj, hfresh, htimer]
        simp [TimerConfig.timer]
      · rw [hothers j hj]
    · rw [htasks, hqueue]
      exact ht.work
    · rw [hqueue, hdepth]
      exact ht.depth
    · exact (Kernel.of_rest Kernel.timerNextFreeHint hframe).trans_lt (nextHint_lt hlt)
    · rw [hinUse]
      exact (Kernel.of_rest Kernel.timerAllocatedCount hframe :)
  · rw [hactive, hexp, htick]
    exact ha.window
  · rw [hactive, hexp, htick]
    exact ha.sorted
  · rw [htasks]
    exact .inl
  · intro _ j hj
    have hji : j ≠ i := by
      rintro rfl
      simp [htimer, TimerConfig.timer] at hj
    rwa [hothers j hji] at hj

/-- An initialisation sets up one free slot, or fails without a trace. -/
structure TimerInits (cfg : Config) (k : Kernel) (isr : Bool) (config : Option TimerConfig)
    (r : Status × Option Nat) (k' : Kernel) : Prop
    extends TimerCalled cfg k (.timerInit isr config) r.1 k' where
  done : r.1 = .ok → ∃ i config', config = some config' ∧ r.2 = some i ∧
    (k.timers i).slotState = .free ∧ k'.timers = Function.update k.timers i (config'.timer cfg i)

theorem timerInit_spec {isr : Bool} {config : Option TimerConfig} (h : KernelOk cfg k)
    (ht : TimersOk cfg k) :
    wp (timerInit cfg isr config) (TimerInits cfg k isr config)
      (Tolerated k.CurrentReady k.IdleOwns) k := by
  have hsame : ∀ status, status ≠ .ok → TimerInits cfg k isr config (status, none) k :=
    fun status hs => ⟨⟨.refl h.inv ht, fun _ => rfl⟩, fun hok => absurd hok hs⟩
  unfold timerInit
  cases config with
  | none => exact hsame _ (by simp)
  | some config =>
    simp only [wp_ite, wp_pure, wp_bind, wp_get]
    split <;> rename_i hvalid
    · exact hsame _ (by simp)
    rw [not_not] at hvalid
    split
    · exact hsame _ (by simp)
    split <;> rename_i hl
    · exact hsame _ (by simp)
    rw [not_not] at hl
    refine wp_timerReserve ht.hint (by rw [wp_pure]; exact hsame _ (by simp))
      fun i k₁ hlt hfree hk₁ htimers₁ => ?_
    have hfresh := (ht.slot i).unused_of_free (by simp [hfree])
    have hcount : k₁.timerAllocatedCount = k.timersInUse cfg := by
      rw [hk₁]
      exact ht.inUse
    simp only [wp_bind, wp_modify, wp_pure, wp_ite, wp_get, wp_halt, wp_fatalUnless]
    generalize hk' : Kernel.count _ _ = k'
    have hsame' : SameTasks k k' := by
      have h₁ : SameTasks k k₁ := by rw [hk₁]; rfl
      exact h₁.trans (by rw [← hk']; rfl)
    have hframe : k'.rest = { k with
        timers := k'.timers
        timerNextFreeHint := nextHint cfg.maxTimers i
        timerAllocatedCount := k₁.timerAllocatedCount + 1 }.rest := by
      have hlast : k'.rest = { k₁ with
          timers := k'.timers, timerAllocatedCount := k₁.timerAllocatedCount + 1 }.rest := by
        rw [← hk']
        rfl
      have hfirst :
          ∀ timers count, { k₁ with timers := timers, timerAllocatedCount := count }.rest =
          { k with timers := timers, timerNextFreeHint := nextHint cfg.maxTimers i,
                   timerAllocatedCount := count }.rest := by
        intro timers count
        rw [hk₁]
      exact hlast.trans (hfirst _ _)
    have htimers : k'.timers = Function.update k.timers i (config.timer cfg i) := by
      rw [← hk', Kernel.count_timers, Kernel.updateTimer_timers]
      simp [htimers₁, hfresh, TimerConfig.timer]
    have hinUse : k'.timersInUse cfg = k.timersInUse cfg + 1 := by
      refine countP_update List.nodup_range (List.mem_range.mpr hlt) ?_ ?_ fun j hj => ?_
      · simp [hfree]
      · simp [htimers, TimerConfig.timer]
      · simp [htimers, hj]
    have hroom : k.timersInUse cfg < cfg.maxTimers := by
      have := List.countP_le_length (p := fun i => (k'.timers i).slotState = .allocated)
        (l := List.range cfg.maxTimers)
      rw [List.length_range] at this
      exact Nat.lt_of_succ_le (hinUse.symm.trans_le this)
    rw [if_neg (by rw [ht.inUse]; omega)]
    refine ⟨fun _ => ⟨⟨?_, by simp⟩, fun _ => ⟨i, config, rfl, rfl, hfree, htimers⟩⟩,
      fun _ => tolerated_timerManager _ _ _⟩
    have hreq : k'.rescheduleRequests = k.rescheduleRequests := by
      rw [← hk']
      change k₁.rescheduleRequests = _
      rw [hk₁]
    exact .initialised ht hl hlt hfree hvalid (.quiet hsame' hreq) (h.inv.sameTasks hsame')
      (by rw [hsame']) htimers (hcount ▸ hframe) hinUse

/-! ## Callbacks -/

/-- A step of the running service that changes the callback state of one timer. -/
theorem TimerCall.of_callback {ev : Event} (h : KernelOk cfg k) (ht : TimersOk cfg k)
    (hrun : (k.tasks .timerService).state = .running) (hl : k.lifecycle = .running)
    (hframe : k' = { k with
      timers := k'.timers
      callbackQueue := k'.callbackQueue
      serviceWork := k'.serviceWork
      counters := k'.counters })
    (hm : Moved cfg k.currentTick k k' i) (hqueue : k'.callbackQueue.Sublist k.callbackQueue)
    (hstate : (k'.timers i).state = (k.timers i).state)
    (hslot : (k'.timers i).slotState = (k.timers i).slotState)
    (hexp : k'.expiration i = k.expiration i) : TimerCall cfg k ev k' := by
  have hk : SameTasks k k' := by rw [hframe]; rfl
  have hst : (k'.tasks .timerService).state = .running := by rwa [hk]
  have hnot : (k'.tasks .timerService).state ≠ .blocked := by simp [hst]
  have hactive : k'.activeQueue = k.activeQueue := by rw [hframe]
  have htick : k'.currentTick = k.currentTick := by rw [hframe]
  have hexps : k'.expiration = k.expiration := funext fun j => by
    by_cases hj : j = i
    · rw [hj, hexp]
    · rw [Kernel.expiration, hm.others j hj]
  refine ⟨.quiet hk (by rw [hframe]), h.inv.sameTasks hk, htick, ?_, hm.moves, hqueue,
    fun ha => ⟨?_, ?_⟩, fun hb => absurd hb hnot, fun hb => absurd hb hnot⟩
  · refine hm.timersOk ht (by rw [hframe]; simp [hl]) (hactive ▸ ht.nodup) (fun j => ?_)
      (fun hb => absurd hb hnot) ?_ ?_ ?_
    · rw [hactive, ht.mem]
      by_cases hj : j = i
      · rw [hj, hstate]
      · rw [hm.others j hj]
    · have hdepth : k'.callbackQueueMaximumDepth = k.callbackQueueMaximumDepth := by rw [hframe]
      rw [hdepth]
      exact ⟨hqueue.length_le.trans ht.depth.1, ht.depth.2⟩
    · rw [hframe]
      exact ht.hint
    · rw [hm.timersInUse hslot, ← ht.inUse, hframe]
  · rw [hactive, hexps, htick]
    exact ha.window
  · rw [hactive, hexps, htick]
    exact ha.sorted

/-- The service begins the callback of the first work item, which is never stale. -/
structure Begins (cfg : Config) (k k' : Kernel) : Prop where
  call : TimerCall cfg k .serviceBegin k'
  idle : k.callbackQueue = [] → k' = k
  begun : ∀ work rest, k.callbackQueue = work :: rest →
    work.generation = (k.timers work.timer).generation ∧ k'.callbackQueue = rest ∧
    k'.serviceWork = some work ∧
    k'.timers = Function.update k.timers work.timer (k.timers work.timer).begun

theorem timerServiceBegin_spec (h : KernelOk cfg k) (ht : TimersOk cfg k)
    (hrun : ServiceIsRunning k) (hwork : k.serviceWork = none) :
    wp (timerServiceBegin cfg) (fun _ => Begins cfg k) (Tolerated k.CurrentReady k.IdleOwns) k := by
  obtain ⟨hl, hc, hst⟩ := hrun
  have hservice := h.inv.phase.serviceTask (by simp [hl])
  have hvalid : ServiceContextIsValid k :=
    ⟨hl, hc.trans hservice.symm, .timerService, hservice, hst⟩
  unfold timerServiceBegin timerCallbackQueueDequeue
  simp only [wp_bind, wp_get, wp_rtsAssert_of hvalid, wp_ite, hvalid, not_true_eq_false, if_false]
  cases hqueue : k.callbackQueue with
  | nil =>
    simp only [wp_pure]
    exact ⟨.refl h.inv ht, fun _ => rfl, fun work rest hq => by simp [hqueue] at hq⟩
  | cons work rest =>
    have hmem : work ∈ k.callbackQueue := by simp [hqueue]
    have hpend := ht.pending_of_mem hmem
    have hgen := ht.generation work hmem
    have hset := (ht.slot work.timer).set_of_callback (by simp [hpend])
    have hres : TimerResolves cfg k work.timer := ⟨hset.index_lt, hset.slotState⟩
    simp only [wp_bind, wp_get, wp_modify, wp_pure, wp_ite]
    rw [if_neg]
    · rw [wp_fatalUnless_of hset.callback]
      generalize hk' : Kernel.updateTimer _ _ _ = k'
      have htimers :
          k'.timers = Function.update k.timers work.timer (k.timers work.timer).begun := by
        rw [← hk']
        rfl
      have hqueue' : k'.callbackQueue = rest := by rw [← hk']; rfl
      have hwork' : k'.serviceWork = some work := by rw [← hk']; rfl
      have hone := ht.pending work.timer
      rw [if_pos hpend, ← Kernel.length_workFor, Kernel.workFor, hqueue] at hone
      have hm : Moved cfg k.currentTick k k' work.timer := by
        refine ⟨?_, fun j hj => by simp [htimers, hj], fun j hj => ?_, ?_, ?_, fun j hj => ?_, ?_⟩
        · simpa [htimers] using TimerMove.begun hset hpend
        · simp [Kernel.workFor, hqueue, hqueue', Ne.symm hj]
        · simpa [Kernel.workFor, hqueue', htimers, Timer.begun] using hone
        · simp only [List.filter_cons, decide_true, if_true, List.length_cons,
            Nat.add_eq_right, List.length_eq_zero_iff] at hone
          simp [Kernel.workFor, hqueue', hone]
        · simp [Kernel.Serves, hwork, hwork', Ne.symm hj]
        · simp [Kernel.Serves, hwork', htimers, Timer.begun]
      refine ⟨.of_callback h ht hst hl (by rw [← hk']; rfl) hm ?_ ?_ ?_ ?_, fun hn => ?_,
        fun work' rest' hq => ?_⟩
      · rw [hqueue', hqueue]
        exact List.sublist_cons_self work rest
      · simp [htimers, Timer.begun]
      · simp [htimers, Timer.begun]
      · simp [Kernel.expiration, htimers, Timer.begun]
      · simp [hqueue] at hn
      · obtain ⟨rfl, rfl⟩ := List.cons.inj (hqueue.symm.trans hq)
        exact ⟨hgen, hqueue', hwork', htimers⟩
    · rw [not_or, not_or, not_not, not_not, not_not]
      exact ⟨hres, hgen.symm, hpend⟩

/-- The service ends the callback, which it finds still running. -/
structure Ends (cfg : Config) (k : Kernel) (work : CallbackWork) (k' : Kernel) : Prop where
  call : TimerCall cfg k .serviceEnd k'
  serviceWork : k'.serviceWork = none
  timers : k'.timers = Function.update k.timers work.timer (k.timers work.timer).ended

theorem timerServiceEnd_spec {work : CallbackWork} (h : KernelOk cfg k) (ht : TimersOk cfg k)
    (hrun : ServiceIsRunning k) (hwork : k.serviceWork = some work) :
    wp (timerServiceEnd cfg work) (fun _ => Ends cfg k work)
      (Tolerated k.CurrentReady k.IdleOwns) k := by
  have hrunning : (k.timers work.timer).callbackState = .running :=
    (ht.running work.timer).mpr ⟨work, hwork, rfl⟩
  have hset := (ht.slot work.timer).set_of_callback (by simp [hrunning])
  unfold timerServiceEnd
  rw [wp_bind, wp_get, wp_bind, wp_fatalUnless_of hrunning]
  simp only [wp_bind, wp_get, wp_modify, wp_fatalUnless]
  refine ⟨fun _ => ?_, fun _ => tolerated_timerManager _ _ _⟩
  generalize hk' : Kernel.count _ _ = k'
  have htimers : k'.timers = Function.update k.timers work.timer (k.timers work.timer).ended := by
    rw [← hk']
    rfl
  have hqueue : k'.callbackQueue = k.callbackQueue := by rw [← hk']; rfl
  have hwork' : k'.serviceWork = none := by rw [← hk']; rfl
  have hnone := ht.pending work.timer
  rw [if_neg (by simp [hrunning]), ← Kernel.length_workFor, List.length_eq_zero_iff] at hnone
  have hworks : ∀ j, k'.workFor j = k.workFor j := fun j => by simp only [Kernel.workFor, hqueue]
  have hm : Moved cfg k.currentTick k k' work.timer := by
    refine ⟨?_, fun j hj => by simp [htimers, hj], fun j _ => hworks j, ?_, ?_, fun j hj => ?_, ?_⟩
    · simpa [htimers] using TimerMove.ended hset hrunning
    · simp [hworks, hnone, htimers, Timer.ended]
    · simp [hworks, hnone]
    · simp [Kernel.Serves, hwork, hwork', Ne.symm hj]
    · simp [Kernel.Serves, hwork', htimers, Timer.ended]
  refine ⟨.of_callback h ht hrun.2.2 hrun.1 (by rw [← hk']; rfl) hm ?_ ?_ ?_ ?_, hwork', htimers⟩
  · rw [hqueue]
  · simp [htimers, Timer.ended]
  · simp [htimers, Timer.ended]
  · simp [Kernel.expiration, htimers, Timer.ended]

end RtsKernel
