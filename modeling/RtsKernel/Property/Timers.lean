import RtsKernel.Model.Run
import RtsKernel.Operation.Preservation

/-!
# Software timers and their service

## Main results

* `callback_not_suspended`: a blocked timer service holds no callback.
* `no_timer_overdue`: after an advance every active timer is ahead, in the order of the queue.
* `timer_manager_invariant`: the active queue, the callback queue and the states of the timers
  agree.

The first two hold in runs that avoid one step each: a withdrawal of the timer service while it
holds a callback, and an advance in which a periodic timer is due so late that, queued again, it
overtakes a timer that is still due.
-/

namespace RtsKernel

open Halting Prog

variable {cfg : Config} {k k' : Kernel} {ev : Event} {i : Nat}

/-! ## The service and its callbacks -/

theorem ReachableWhen.unsuspended
    (h : ReachableWhen cfg (fun k ev => ¬ ev.SuspendsCallback cfg k) k) : k.Unsuspended := by
  refine h.invariant (P := Kernel.Unsuspended) (fun hb => ?_) fun k ev k' hk _ hst ha hu =>
    hst.unsuspended hk hu ha
  simp [resetKernel] at hb

/-- The service blocks at its own block point, or when it is withdrawn. -/
theorem Stepped.service_blocks (hs : Stepped cfg k ev k') (h : Sound cfg k)
    (hrun : (k.tasks .timerService).Runnable)
    (hb : (k'.tasks .timerService).state = .blocked) :
    ev = .serviceRest ∨ ev.WithdrawsService cfg k := by
  have hnot := hrun.not_blocked
  cases hs with
  | starts _ hst =>
    obtain hb | hl := hst.service hb
    · exact absurd hb hnot
    · exact absurd (h.ok.inv.phase.reset hl _) hrun.not_dormant
  | serves _ hsch _ _ => exact absurd (hsch.service.mp hb) hnot
  | gives hg => exact absurd (hg.scheduled.service.mp hb) hnot
  | calls _ hcall => exact .inr ((hcall.blocked hb).resolve_left hnot)
  | rests _ _ => exact .inl rfl
  | advances _ _ hadv => exact absurd (hadv.blocked hb) hnot
  | acquires ha =>
    rw [ha.replanned] at hb
    exact absurd hb hnot
  | completes _ hsw => exact absurd ((hsw.blocked_iff _).mp hb) hnot

/-- In runs without a withdrawal during a callback, a blocked timer service has no work and holds no
callback, and it leaves the ready set only at its block point or without a callback. -/
theorem callback_not_suspended
    (h : ReachableWhen cfg (fun k ev => ¬ ev.SuspendsCallback cfg k) k) :
    ((k.tasks .timerService).state = .blocked →
      k.callbackQueue = [] ∧ ∀ i, (k.timers i).callbackState ≠ .running) ∧
    ∀ ev k', Step cfg k ev k' → ¬ ev.SuspendsCallback cfg k → (k.tasks .timerService).Runnable →
      (k'.tasks .timerService).state = .blocked → ev = .serviceRest ∨ k.serviceWork = none := by
  refine ⟨fun hb => ⟨h.sound.timersOk.work hb, h.unsuspended hb⟩, fun ev k' hs hev hrun hb => ?_⟩
  refine ((hs.stepped h.sound).service_blocks h.sound hrun hb).imp_right fun hw => ?_
  by_contra hwork
  exact hev ⟨hw, hwork⟩

/-- A task of the priority of the service and a one-shot timer; the service yields to the task in
the middle of the callback. A second timer has been started. -/
def yieldingCallbackEvents : List Event :=
  bootEvents 3 ++
    [.timerInit false (some ⟨1, 5, .oneShot⟩), .timerInit false (some ⟨1, 50, .oneShot⟩),
      .timerStart false 0, .timerStart false 1, .start false true true, .delay false 6, .acquire,
    .complete ⟨.slot 0, .idle, 1⟩ true, .tick true 5, .acquire,
    .complete ⟨.idle, .timerService, 2⟩ true, .serviceBegin, .tick true 1, .yield false, .acquire,
    .complete ⟨.timerService, .slot 0, 3⟩ true]

theorem callback_not_suspended_by_rest : ∃ k : Kernel,
    (k.tasks .timerService).state = .blocked ∧ k.callbackQueue = [] ∧
      ∀ i, (k.timers i).callbackState ≠ .running := by
  have hrun : (execute sampleConfig (fun k ev => ¬ ev.SuspendsCallback sampleConfig k)
      (yieldingCallbackEvents ++ [.delay false 1, .acquire,
        .complete ⟨.slot 0, .timerService, 4⟩ true, .serviceEnd, .serviceRest]) resetKernel).any
      (fun k => decide ((k.tasks .timerService).state = .blocked)) = true := by
    decide +kernel
  obtain ⟨k, hreach, hb⟩ := exists_reachable hrun
  exact ⟨k, hb, (callback_not_suspended hreach).1 hb⟩

/-- The task stops the second timer: the service is taken off the ready set with its callback
started. -/
theorem callback_suspended : ∃ k, Reachable sampleConfig k ∧
    (k.tasks .timerService).state = .blocked ∧ (k.timers 0).callbackState = .running := by
  have hrun : (execute sampleConfig (fun _ _ => True)
      (yieldingCallbackEvents ++ [.timerStop false 1]) resetKernel).any (fun k =>
        decide ((k.tasks .timerService).state = .blocked ∧
          (k.timers 0).callbackState = .running)) = true := by
    decide +kernel
  exact exists_reachable hrun

/-! ## Deadlines -/

theorem ahead_resetKernel : resetKernel.Ahead := by
  constructor <;> simp [resetKernel]

theorem ReachableWhen.ahead
    (h : ReachableWhen cfg (fun k ev => k.Spread (k.currentTick + ev.elapsed cfg k)) k) : k.Ahead :=
  h.invariant ahead_resetKernel fun _ _ _ _ _ hst hspread ha => hst.ahead ha hspread

/-- What an advance does to a timer whose deadline it reaches. -/
def Timer.Settled (now : Tick) (timer timer' : Timer) : Prop :=
  (timer.mode = .oneShot → timer'.state = .stopped) ∧
  (timer.mode = .periodic → timer'.state = .active ∧ InWindow now timer'.expirationTick)

/-- In runs whose advances keep the timers that are due in front of those queued again, every active
timer is ahead of the clock, in the order of the queue, and an advance settles every timer whose
deadline it reaches. -/
theorem no_timer_overdue
    (h : ReachableWhen cfg (fun k ev => k.Spread (k.currentTick + ev.elapsed cfg k)) k) :
    (∀ i, (k.timers i).state = .active → InWindow k.currentTick (k.timers i).expirationTick) ∧
    (k.activeQueue.Pairwise fun i j => distance k.currentTick (k.timers i).expirationTick ≤
      distance k.currentTick (k.timers j).expirationTick) ∧
    ∀ isr elapsed k', Step cfg k (.tick isr elapsed) k' → AdvanceIsValid k isr elapsed →
      k.Spread (k.currentTick + elapsed) →
      ∀ i, (k.timers i).state = .active →
        tickReached k'.currentTick (k.timers i).expirationTick →
        (k.timers i).Settled k'.currentTick (k'.timers i) := by
  have hahead := h.ahead
  have ht := h.sound.timersOk
  refine ⟨fun i hi => hahead.window i ((ht.mem i).mpr hi), hahead.sorted, ?_⟩
  intro isr elapsed k' hs hvalid hspread i hact hreached
  have helapsed : Event.elapsed cfg k (.tick isr elapsed) = elapsed := if_pos hvalid
  have hadv := (hs.stepped h.sound).advances_of_moved (by rw [helapsed]; exact hvalid.2.2.1)
  rw [helapsed] at hadv
  have hahead' := hadv.ahead hahead hspread
  have hwindow : (k'.timers i).state = .active →
      InWindow k'.currentTick (k'.timers i).expirationTick := fun hi =>
    hahead'.window i ((hadv.timersOk.mem i).mpr hi)
  obtain hsame | ⟨-, -, hexp⟩ := hadv.timer i
  · -- a timer the loop has not touched would still be due
    have hin := hwindow (hsame ▸ hact)
    rw [hsame] at hin
    exact absurd hreached (not_tickReached_of_inWindow hin)
  · have hstate : (k'.timers i).state =
        if (k.timers i).mode = .periodic then .active else .stopped := by
      rw [hexp, Timer.expired, Timer.published_state]
      rfl
    refine ⟨fun hmode => ?_, fun hmode => ?_⟩
    · rw [hstate, if_neg (by simp [hmode])]
    · have hactive : (k'.timers i).state = .active := by rw [hstate, if_pos hmode]
      exact ⟨hactive, hwindow hactive⟩

/-- A periodic timer of three ticks, and a one-shot timer that falls due with it. -/
def coincidingTimersEvents : List Event :=
  bootEvents 1 ++
    [.timerInit false (some ⟨1, 3, .periodic⟩), .timerInit false (some ⟨1, 1, .oneShot⟩),
      .timerStart false 0, .start false true true, .tick true 2, .timerStart false 1]

theorem no_timer_overdue_coinciding : ∃ k : Kernel, (k.timers 0).state = .active ∧
    InWindow k.currentTick (k.timers 0).expirationTick := by
  have hrun : (execute sampleConfig
      (fun k ev => k.Spread (k.currentTick + ev.elapsed sampleConfig k))
      (coincidingTimersEvents ++ [.tick true 4]) resetKernel).any
      (fun k => decide ((k.timers 0).state = .active)) = true := by
    decide +kernel
  obtain ⟨k, hreach, hact⟩ := exists_reachable hrun
  exact ⟨k, hact, (no_timer_overdue hreach).1 0 hact⟩

/-- The longest advance there is: the periodic timer, queued again, overtakes the one-shot timer,
which is left active with its deadline long past. -/
theorem timer_left_overdue : ∃ k, Reachable sampleConfig k ∧ (k.timers 1).state = .active ∧
    (k.timers 1).expirationTick = 3 ∧ k.currentTick = 2147483649 ∧
    ¬ InWindow k.currentTick (k.timers 1).expirationTick := by
  have hrun : (execute sampleConfig (fun _ _ => True)
      (coincidingTimersEvents ++ [.tick true 2147483647]) resetKernel).any (fun k =>
        decide ((k.timers 1).state = .active ∧ (k.timers 1).expirationTick = 3 ∧
          k.currentTick = 2147483649 ∧
          ¬ InWindow k.currentTick (k.timers 1).expirationTick)) = true := by
    decide +kernel
  exact exists_reachable hrun

/-! ## The timer manager -/

/-- The checks of the timer manager that no state of a run can fail. -/
def Fatal.Timer : Fatal → Prop
  | .timerCallbackQueueOverflow | .timerCorruption | .assertion .timerCallback
  | .assertion .timerInvalidate | .assertion .timerQueue => True
  | _ => False

theorem Tolerated.not_timer {ready owns : Prop} {e : Fatal} (h : Tolerated ready owns e k) :
    ¬ e.Timer := by
  cases e with
  | assertion site => cases site <;> simp_all [Fatal.Timer, Tolerated, Site.Excluded]
  | _ => simp_all [Fatal.Timer, Tolerated]

/-- The timer manager, at one state of a run. -/
structure TimerManager (cfg : Config) (k : Kernel) : Prop where
  nodup : k.activeQueue.Nodup
  linked : ∀ i, i ∈ k.activeQueue ↔ (k.timers i).state = .active
  /-- One work item for a pending callback, and none otherwise. -/
  pending : ∀ i, timerCallbackQueueCountFor k i =
    if (k.timers i).callbackState = .pending then 1 else 0
  generation : ∀ work ∈ k.callbackQueue, work.generation = (k.timers work.timer).generation
  single : ∀ i j, (k.timers i).callbackState = .running → (k.timers j).callbackState = .running →
    i = j
  /-- Expired timers always find room, and the checks around a callback always pass. -/
  passes : ∀ ev, ev.Enabled k → wp (runEvent cfg ev) (fun _ _ => True) (fun e _ => ¬ e.Timer) k
  /-- The work the service dequeues is not stale: its callback is started. -/
  fresh : ServiceIsRunning k → k.serviceWork = none → ∀ work rest, k.callbackQueue = work :: rest →
    ∀ k', Step cfg k .serviceBegin k' → k'.callbackQueue = rest ∧ k'.serviceWork = some work ∧
      k'.timers = Function.update k.timers work.timer
        { k.timers work.timer with callbackState := .running }
  /-- A stop or a restart leaves no work of its timer to be dequeued. -/
  dropped : ∀ isr i k', isr = true ∨ ThreadMayCall k →
    timerStop cfg isr i k = .ret .ok k' ∨ timerRestart cfg isr i k = .ret .ok k' →
    ∀ work ∈ k'.callbackQueue, work.timer ≠ i

theorem TimersOk.single {j : Nat} (h : TimersOk cfg k) (hi : (k.timers i).callbackState = .running)
    (hj : (k.timers j).callbackState = .running) : i = j := by
  obtain ⟨work, hwork, rfl⟩ := (h.running i).mp hi
  obtain ⟨work', hwork', rfl⟩ := (h.running j).mp hj
  rw [Option.some.inj (hwork.symm.trans hwork')]

theorem timer_manager_invariant (h : Reachable cfg k) : TimerManager cfg k where
  nodup := h.sound.timersOk.nodup
  linked := h.sound.timersOk.mem
  pending := h.sound.timersOk.pending
  generation := h.sound.timersOk.generation
  single _ _ := h.sound.timersOk.single
  passes _ hen := wp_mono (runEvent_spec h.sound hen) (fun _ _ _ => trivial)
    fun _ _ htol => htol.not_timer
  fresh hrun hidle work rest hqueue k' hs := by
    obtain ⟨_, hret⟩ := exists_ret_of_discard hs.2
    have hbegins := (wp_ret (timerServiceBegin_spec h.sound.ok h.sound.timersOk hrun hidle) hret :)
    exact (hbegins.begun work rest hqueue).2
  dropped isr i k' hcall hret work hwork hi := by
    have hthread : isr = false → ∀ c, k.currentTask = some c → (k.tasks c).state = .running :=
      fun hisr c hc => ThreadMayCall.running h.sound.ok (hcall.resolve_left (by simp [hisr])) hc
    have hnone : k'.workFor i = [] := by
      obtain hret | hret := hret
      · exact (wp_ret (timerStop_spec h.sound.ok h.sound.timersOk hthread) hret :).dropped rfl
      · exact (wp_ret (timerRestart_spec h.sound.ok h.sound.timersOk hthread) hret :).dropped rfl
    have hmem : work ∈ k'.workFor i := List.mem_filter.mpr ⟨hwork, by simpa using hi⟩
    simp [hnone] at hmem

theorem timer_manager_invariant_yielding :
    ∃ k : Kernel, (k.timers 0).callbackState = .running ∧ TimerManager sampleConfig k := by
  have hrun : (execute sampleConfig (fun _ _ => True) yieldingCallbackEvents resetKernel).any
      (fun k => decide ((k.timers 0).callbackState = .running)) = true := by
    decide +kernel
  obtain ⟨k, hreach, hstate⟩ := exists_reachable hrun
  exact ⟨k, hstate, timer_manager_invariant hreach⟩

end RtsKernel
