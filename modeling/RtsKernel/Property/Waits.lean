import RtsKernel.Model.Run
import RtsKernel.Property.Timeline

/-!
# Queues, deadlines and results of waits

## Main results

* `tasks_linked`: every task is linked exactly where its state and wait record say.
* `wakeups_exact`: a wait with a deadline ends in the first advance that reaches it, and tasks that
  are due together are released in the order of their deadlines. An advance gets to all of them if
  the idle task owns no mutex; otherwise it can halt before (`due_task_not_woken`).
* `waits_end_once`: a wait for a semaphore or mutex is given one result, by whoever came first, and
  keeps it until it is consumed. A mutex of the idle task can keep it from being given any
  (`timeout_never_written`).
-/

namespace RtsKernel

open Halting Prog

variable {cfg : Config} {k k' k₁ : Kernel} {T : Timeline} {ev : Event} {t u : TaskId}

/-! ## Membership -/

/-- The task waits for a semaphore or a mutex. -/
def Tcb.AwaitsObject (task : Tcb) : Prop :=
  task.state = .blocked ∧ (task.wait.reason = .semaphore ∨ task.wait.reason = .mutex)

instance (task : Tcb) : Decidable task.AwaitsObject := inferInstanceAs (Decidable (_ ∧ _))

/-- Every task is linked exactly where its state and wait record say, once in each list. -/
structure Kernel.Linked (cfg : Config) (k : Kernel) : Prop where
  ready_once : ∀ p, (k.readySet p).Nodup
  ready : ∀ p t, t ∈ k.readySet p ↔
    cfg.policy ≠ .edf ∧ (k.tasks t).Runnable ∧ (k.tasks t).priority = p
  edf_once : k.edfReady.Nodup
  edf : ∀ t, t ∈ k.edfReady ↔ cfg.policy = .edf ∧ (k.tasks t).Runnable
  delay_once : k.delayQueue.Nodup
  delay : ∀ t, t ∈ k.delayQueue ↔ (k.tasks t).state = .blocked ∧ (k.tasks t).wait.reason = .delay ∨
    (k.tasks t).AwaitsObject ∧ (k.tasks t).wait.timeoutActive = true
  wait_once : ∀ o, (k.waiters o).Nodup
  wait : ∀ o t, t ∈ k.waiters o ↔ (k.tasks t).AwaitsObject ∧ (k.tasks t).wait.object = some o
  object : ∀ t, (k.tasks t).AwaitsObject → ∃ o, (k.tasks t).wait.object = some o
  known : ∀ t, (∃ p, t ∈ k.readySet p) ∨ t ∈ k.edfReady ∨ t ∈ k.delayQueue ∨
    (∃ o, t ∈ k.waiters o) → (k.tasks t).slotState = .allocated ∧
      (t.IsApplication cfg ∨ t = .idle ∨ t = .timerService)
  running : ∀ t, (k.tasks t).state = .running → k.currentTask = some t

theorem TaskOk.timed_iff {task : Tcb} (h : TaskOk cfg t task) : task.Timed ↔
    task.state = .blocked ∧ task.wait.reason = .delay ∨
      task.AwaitsObject ∧ task.wait.timeoutActive = true := by
  by_cases hb : task.state = .blocked
  · cases (h.waits hb).2 with
    | delay _ hr _ hto _ => simp [Tcb.Timed, hb, hr]
    | semaphore _ _ hr _ _ => simp [Tcb.Timed, Tcb.AwaitsObject, hb, hr]
    | mutex _ _ hr _ _ _ => simp [Tcb.Timed, Tcb.AwaitsObject, hb, hr]
    | service _ hr _ hto _ => simp [Tcb.Timed, Tcb.AwaitsObject, hr, hto]
  · simp [Tcb.Timed, Tcb.AwaitsObject, hb]

/-- What a task waits for names the kind of object it waits for. -/
theorem TaskOk.awaitsObject_iff {task : Tcb} {o : WaitObject} (h : TaskOk cfg t task) :
    task.waitOwner = some o ↔ task.AwaitsObject ∧ task.wait.object = some o := by
  rw [h.waitOwner_eq_some]
  constructor
  · rintro ⟨hb, hr, ho⟩
    exact ⟨⟨hb, by cases o <;> simp [hr, WaitObject.reason]⟩, ho⟩
  · rintro ⟨⟨hb, hr⟩, ho⟩
    obtain ⟨o', -, ho', hr'⟩ := h.exists_object hb hr
    obtain rfl : o = o' := Option.some.inj (ho.symm.trans ho')
    exact ⟨hb, hr', ho⟩

theorem Sound.linked (h : Sound cfg k) : k.Linked cfg := by
  have hinv := h.ok.inv
  have hvalid : ∀ t, (k.tasks t).state ≠ .dormant → (k.tasks t).slotState = .allocated ∧
      (t.IsApplication cfg ∨ t = .idle ∨ t = .timerService) := fun t hd =>
    ⟨((hinv.tasks t).valid hd).allocated, ((hinv.tasks t).valid hd).known⟩
  refine ⟨hinv.ready.nodup, hinv.ready.mem, hinv.ready.edf_nodup, hinv.ready.edf_mem,
    hinv.delay.nodup, fun t => ?_, hinv.wait.nodup, fun o t => ?_, fun t ht => ?_, fun t ht => ?_,
    hinv.running⟩
  · exact (hinv.delay.mem t).trans (hinv.tasks t).timed_iff
  · exact (hinv.wait.mem o t).trans (hinv.tasks t).awaitsObject_iff
  · obtain ⟨o, -, ho, -⟩ := (hinv.tasks t).exists_object ht.1 ht.2
    exact ⟨o, ho⟩
  · apply hvalid
    obtain ⟨p, hp⟩ | he | hd | ⟨o, ho⟩ := ht
    · exact ((hinv.ready.mem p t).mp hp).2.1.not_dormant
    · exact ((hinv.ready.edf_mem t).mp he).2.not_dormant
    · simp [((hinv.delay.mem t).mp hd).1]
    · simp [((hinv.tasks t).waitOwner_eq_some.mp ((hinv.wait.mem o t).mp ho)).1]

theorem tasks_linked (h : Reachable cfg k) : k.Linked cfg := h.sound.linked

/-- One task waits for a semaphore with a timeout, one without, one sleeps, and one runs. -/
theorem tasks_linked_waiting : ∃ k : Kernel, k.currentTask = some (.slot 3) ∧
    k.readySet 1 = [.slot 3] ∧ k.delayQueue = [.slot 2, .slot 0] ∧
    k.waiters (.semaphore 0) = [.slot 0, .slot 1] ∧ k.Linked crowdConfig := by
  have hrun : (execute crowdConfig (fun _ _ => True) (bootEvents 1 ++
      [createEvent 1, createEvent 1, createEvent 1, .semaphoreInit false (some 0) 0 1,
        .start false true true, .take false (some 0) 9] ++ switchEvents (.slot 0) (.slot 1) 1 ++
      .take false (some 0) waitForever :: switchEvents (.slot 1) (.slot 2) 2 ++
      .delay false 5 :: switchEvents (.slot 2) (.slot 3) 3) resetKernel).any
      (fun k => decide (k.currentTask = some (.slot 3) ∧ k.readySet 1 = [.slot 3] ∧
        k.delayQueue = [.slot 2, .slot 0] ∧
        k.waiters (.semaphore 0) = [.slot 0, .slot 1])) = true := by
    decide +kernel
  obtain ⟨k, hreach, hcurrent, hready, hdelay, hwait⟩ := exists_reachable hrun
  exact ⟨k, hcurrent, hready, hdelay, hwait, tasks_linked hreach⟩

/-! ## What a step does to a wait -/

/-- The wait a blocking call begins. -/
inductive Event.Begins (k : Kernel) : Event → Wait → Prop where
  | delay {isr : Bool} {d : Tick} (positive : d ≠ 0) (range : d ≤ delayMax) :
      Event.Begins k (.delay isr d) (delayWait (k.currentTick + d))
  | take {isr : Bool} {i : Nat} {timeout : Tick} (positive : timeout ≠ 0)
      (range : timeout ≤ delayMax ∨ timeout = waitForever) :
      Event.Begins k (.take isr (some i) timeout)
        (objectWait .semaphore (.semaphore i) k.currentTick timeout)
  | lock {isr : Bool} {m : Nat} {timeout : Tick} (positive : timeout ≠ 0)
      (range : timeout ≤ delayMax ∨ timeout = waitForever) :
      Event.Begins k (.lock isr (some m) timeout)
        (objectWait .mutex (.mutex m) k.currentTick timeout)

/-- The event is a give on the semaphore, from a task or from an interrupt. -/
def Event.GivesTo (ev : Event) (i : Nat) : Prop :=
  ∃ isr, ev = .give isr (some i) ∨ ev = .giveFromIsr isr (some i)

/-- The event hands the task what it waits for: a unit of the semaphore, whose count it leaves
alone, or the mutex. -/
inductive Event.Hands (k k' : Kernel) (t : TaskId) (ev : Event) : Prop where
  | unit {i : Nat} (event : ev.GivesTo i) (object : (k.tasks t).wait.object = some (.semaphore i))
      (left : t ∉ k'.waiters (.semaphore i))
      (count : (k'.semaphores i).count = (k.semaphores i).count)
  | mutex {m : Nat} {isr : Bool} (event : ev = .unlock isr (some m))
      (object : (k.tasks t).wait.object = some (.mutex m))
      (owner : (k'.mutexes m).owner = some t)

/-- What a step does to the wait of one task. -/
inductive WaitMove (cfg : Config) (k k' : Kernel) (ev : Event) (t : TaskId) : Prop where
  | kept (wait : (k'.tasks t).wait = (k.tasks t).wait)
      (blocked : (k'.tasks t).state = .blocked ↔ (k.tasks t).state = .blocked)
      (early : t ∈ k.delayQueue → (ev.elapsed cfg k).toNat < distance k.currentTick (k.wake t))
  | startup (still : ev.elapsed cfg k = 0) (before : (k.tasks t).state ≠ .blocked)
      (none : (k.tasks t).wait.result = .none) (after : (k'.tasks t).state ≠ .blocked)
      (result : (k'.tasks t).wait.result = .none)
  | suspended (still : ev.elapsed cfg k = 0) (before : (k.tasks t).state = .running)
      (result : (k.tasks t).wait.result = .none) (begins : ev.Begins k (k'.tasks t).wait)
      (after : (k'.tasks t).state = .blocked)
  | granted (still : ev.elapsed cfg k = 0) (before : (k.tasks t).AwaitsObject)
      (hands : ev.Hands k k' t) (after : (k'.tasks t).Runnable)
      (result : (k'.tasks t).wait.result = .acquired)
  | expired (moved : ev.elapsed cfg k ≠ 0) (before : t ∈ k.delayQueue)
      (due : distance k.currentTick (k.wake t) ≤ (ev.elapsed cfg k).toNat)
      (after : (k'.tasks t).Runnable)
      (result : (k'.tasks t).wait.result = (k.tasks t).wait.expiryResult)
  | consumed (still : ev.elapsed cfg k = 0) (event : ev = .consume)
      (current : k.currentTask = some t)
      (before : (k.tasks t).state = .running) (after : (k'.tasks t).state ≠ .blocked)
      (result : (k'.tasks t).wait.result = .none)

/-- A step that does not move the clock leaves every wait that has a deadline early. -/
theorem Sound.early (h : Sound cfg k) (hev : ev.elapsed cfg k = 0) (ht : t ∈ k.delayQueue) :
    (ev.elapsed cfg k).toNat < distance k.currentTick (k.wake t) := by
  have hwin := h.ok.inv.delay.window t ((h.ok.inv.delay.mem t).mp ht)
  have hzero : (0 : Tick).toNat = 0 := rfl
  rw [hev, hzero]
  exact hwin.1

/-- What comes after the change proper leaves the wait as it is. -/
theorem WaitMove.of_sameWaits (hs : SameWaits k₁ k') (ht : t ≠ .timerService)
    (hwait : (k₁.tasks t).wait = (k.tasks t).wait) (hstate : (k₁.tasks t).state = (k.tasks t).state)
    (hearly : t ∈ k.delayQueue → (ev.elapsed cfg k).toNat < distance k.currentTick (k.wake t)) :
    WaitMove cfg k k' ev t := by
  obtain ⟨hwait', hblocked', -⟩ := hs.tasks t ht
  exact .kept (hwait'.trans hwait) (by rw [hblocked', hstate]) hearly

theorem Suspends.waitMove {c : TaskId} {wait : Wait} (h : Suspends cfg k k₁ c wait)
    (hs : SameWaits k₁ k') (hk : Sound cfg k) (hev : ev.elapsed cfg k = 0)
    (hbegins : ev.Begins k wait) (ht : t ≠ .timerService) : WaitMove cfg k k' ev t := by
  by_cases htc : t = c
  · subst htc
    obtain ⟨hwait, hblocked, -⟩ := hs.tasks t ht
    rw [h.blocks.wait_eq] at hwait
    exact .suspended hev h.running h.result (hwait ▸ hbegins) (hblocked.mpr h.blocks.state_eq)
  · refine .of_sameWaits hs ht ?_ ?_ fun hin => hk.early hev hin <;> rw [h.blocks.others t htc]

/-- A grant moves the wait of the task it is for, and no other. -/
theorem Wakes.waitMove {w : TaskId} (h : Wakes cfg k k₁ w .acquired) (hs : SameWaits k₁ k')
    (hk : Sound cfg k) (hev : ev.elapsed cfg k = 0) (hw : (k.tasks w).AwaitsObject)
    (hhands : (k'.tasks w).Runnable → ev.Hands k k' w) (ht : t ≠ .timerService) :
    WaitMove cfg k k' ev t := by
  by_cases htw : t = w
  · subst htw
    obtain ⟨hwait, -, hrun⟩ := hs.tasks t ht
    exact .granted hev hw (hhands (hrun h.runnable)) (hrun h.runnable) (hwait ▸ h.wait.2.2.2)
  · refine .of_sameWaits hs ht ?_ ?_ fun hin => hk.early hev hin <;> rw [(h.others t htw).1]

theorem Effect.waitMove (h : Effect cfg k k' ev) (hen : ev.Enabled k) (hk : Sound cfg k)
    (hk' : Sound cfg k') (ht : t ≠ .timerService) : WaitMove cfg k k' ev t := by
  -- a runnable task is in no wait list
  have hleft : ∀ {o u}, (k'.tasks u).Runnable → u ∉ k'.waiters o := fun {o u} hrun hin =>
    hrun.not_blocked ((hk'.linked.wait o u).mp hin).1.1
  cases h with
  | quiet same still => exact .of_sameWaits same ht rfl rfl (hk.early still)
  | startup before after _ still =>
    exact .startup still (fun hb => ht ((before.tasks t).2 hb)) (before.tasks t).1
      (fun hb => ht ((after.tasks t).2 hb)) (after.tasks t).1
  | initialises _ same => exact .of_sameWaits same ht rfl rfl (hk.early rfl)
  | delays positive range blocks same =>
    exact blocks.waitMove same hk rfl (.delay positive range) ht
  | taken _ same => exact .of_sameWaits same ht rfl rfl (hk.early rfl)
  | takes positive range blocks same =>
    exact blocks.waitMove same hk rfl (.take positive range) ht
  | given event _ same =>
    refine .of_sameWaits same ht rfl rfl (hk.early ?_)
    obtain ⟨isr, rfl | rfl⟩ := event <;> rfl
  | @grants _ i w k₁ event head wakes _ same =>
    have hin : w ∈ k.waiters (.semaphore i) := List.mem_of_head? head
    obtain ⟨hw, hobj⟩ := (hk.linked.wait _ w).mp hin
    refine wakes.waitMove same hk ?_ hw (fun hrun => .unit event hobj (hleft hrun) ?_) ht
    · obtain ⟨isr, rfl | rfl⟩ := event <;> rfl
    · rw [same.semaphores i, wakes.semaphores i]
  | owns _ _ change same =>
    refine .of_sameWaits same ht ?_ ?_ (hk.early rfl) <;> rw [change.tasks t]
  | locks positive range blocks same =>
    exact blocks.waitMove same hk rfl (.lock positive range) ht
  | disowns _ _ _ change same =>
    refine .of_sameWaits same ht ?_ ?_ (hk.early rfl) <;> rw [change.tasks t]
  | @handsOff isr m former w k₁ change same =>
    have hin : w ∈ k.waiters (.mutex m) := List.mem_of_head? change.head
    obtain ⟨hw, hobj⟩ := (hk.linked.wait _ w).mp hin
    refine change.wakes.waitMove same hk rfl hw (fun _ => .mutex rfl hobj ?_) ht
    rw [same.owners, (change.mutexes m).2, if_pos rfl]
  | @consumes c current same =>
    by_cases htc : t = c
    · subst htc
      obtain ⟨-, d, hd, hrunning, -⟩ := hen
      obtain rfl : d = t := Option.some.inj (hd.symm.trans current)
      obtain ⟨hwait, hblocked, -⟩ := same.tasks d ht
      refine .consumed rfl rfl current hrunning (fun hb => ?_) ?_
      · have hst := hblocked.mp hb
        simp [hrunning] at hst
      · rw [hwait]
        simp
    · refine .of_sameWaits same ht ?_ ?_ (hk.early rfl) <;> simp [htc]
  | @expires _ woken k₁ moved range expired exact same =>
    by_cases hin : t ∈ woken
    · have hq : t ∈ k.delayQueue := by
        have hsplit : k.delayQueue = woken ++ k₁.delayQueue := expired.delayQueue
        simp [hsplit, hin]
      obtain ⟨hwait, -, hrun⟩ := same.tasks t ht
      obtain ⟨hended, hresult⟩ := expired.ended t hin
      exact .expired moved hq ((exact t hq).mp hin) (hrun hended) (hwait ▸ hresult)
    · obtain ⟨hwait, hstate⟩ := expired.kept t hin
      refine .of_sameWaits same ht hwait hstate fun hq => ?_
      have := (exact t hq).not.mp hin
      omega

theorem Recorded.waitMove (h : Recorded cfg T) (hs : Step cfg T.kernel ev k')
    (ht : t ≠ .timerService) : WaitMove cfg T.kernel k' ev t :=
  ((hs.stepped h.sound).effect h.sound).waitMove hs.1 h.sound (h.sound.step hs) ht

/-! ## Deadlines -/

theorem Sound.mem_delayQueue (h : Sound cfg k) (ht : t ∈ k.delayQueue) :
    (k.tasks t).state = .blocked ∧ t ≠ .timerService :=
  (h.ok.inv.blocked_of_mem_delayQueue ht).imp_right TaskId.IsApplication.ne_timerService

/-- The clock moves by what the event says, except while nobody waits yet. -/
theorem Effect.tick_or_empty (h : Effect cfg k k' ev) :
    k'.currentTick = k.currentTick + ev.elapsed cfg k ∨ k'.delayQueue = [] := by
  have hstill : ∀ {k₁ : Kernel}, SameWaits k₁ k' → k₁.currentTick = k.currentTick →
      ev.elapsed cfg k = 0 → k'.currentTick = k.currentTick + ev.elapsed cfg k := by
    intro k₁ hsame hk₁ hev
    rw [hev, hsame.tick, hk₁]
    exact (BitVec.add_zero _).symm
  have hgive : ∀ {i : Nat}, ev.GivesTo i → ev.elapsed cfg k = 0 := by
    rintro i ⟨isr, rfl | rfl⟩ <;> rfl
  cases h with
  | quiet same still => exact .inl (hstill same rfl still)
  | startup _ after _ _ => exact .inr after.delayQueue
  | initialises _ same => exact .inl (hstill same rfl rfl)
  | delays _ _ blocks same =>
    exact .inl (hstill same (Kernel.of_rest Kernel.currentTick blocks.blocks.rest) rfl)
  | taken _ same => exact .inl (hstill same rfl rfl)
  | takes _ _ blocks same =>
    exact .inl (hstill same (Kernel.of_rest Kernel.currentTick blocks.blocks.rest) rfl)
  | given event _ same => exact .inl (hstill same rfl (hgive event))
  | grants event _ wakes _ same =>
    exact .inl (hstill same (Kernel.of_rest Kernel.currentTick wakes.rest) (hgive event))
  | owns _ _ change same => exact .inl (hstill same (by rw [change.rest]) rfl)
  | locks _ _ blocks same =>
    exact .inl (hstill same (Kernel.of_rest Kernel.currentTick blocks.blocks.rest) rfl)
  | disowns _ _ _ change same => exact .inl (hstill same (by rw [change.rest]) rfl)
  | handsOff change same =>
    exact .inl (hstill same (Kernel.of_rest Kernel.currentTick change.wakes.rest) rfl)
  | consumes _ same => exact .inl (hstill same rfl rfl)
  | expires _ _ expired _ same =>
    exact .inl (same.tick.trans (Kernel.of_rest Kernel.currentTick expired.rest))

/-- The delay queue loses members, or gains the task that has just blocked. -/
theorem Effect.delayQueue_sublist_or_insert (h : Effect cfg k k' ev) :
    k'.delayQueue.Sublist k.delayQueue ∨ ∃ c wake, Suspended k k' c ∧
      k'.delayQueue = k.delayQueue.orderedInsert (Earlier wake) c ∧
      ∀ t, t ≠ .timerService → wake t = k'.wake t := by
  have hkeep : ∀ {k₁ : Kernel}, SameWaits k₁ k' → k₁.delayQueue.Sublist k.delayQueue →
      k'.delayQueue.Sublist k.delayQueue := fun hsame hsub => hsame.delayQueue ▸ hsub
  have hblock : ∀ {c : TaskId} {wait : Wait} {k₁ : Kernel}, Suspends cfg k k₁ c wait →
      SameWaits k₁ k' → k'.delayQueue.Sublist k.delayQueue ∨ ∃ c wake, Suspended k k' c ∧
        k'.delayQueue = k.delayQueue.orderedInsert (Earlier wake) c ∧
        ∀ t, t ≠ .timerService → wake t = k'.wake t := by
    intro c wait k₁ hs hsame
    have hqueue := hs.blocks.delayQueue
    rw [← hsame.delayQueue] at hqueue
    split at hqueue
    · refine .inr ⟨c, k₁.wake, ⟨by simp [hs.running], ?_⟩, hqueue, fun t ht => ?_⟩
      · exact (hsame.tasks c hs.application.ne_timerService).2.1.mpr hs.blocks.state_eq
      · simp only [Kernel.wake, (hsame.tasks t ht).1]
    · exact .inl (hqueue ▸ .refl _)
  cases h with
  | quiet same _ => exact .inl (hkeep same (.refl _))
  | startup _ after _ _ => exact .inl (after.delayQueue ▸ List.nil_sublist _)
  | initialises _ same => exact .inl (hkeep same (.refl _))
  | delays _ _ blocks same => exact hblock blocks same
  | taken _ same => exact .inl (hkeep same (.refl _))
  | takes _ _ blocks same => exact hblock blocks same
  | given _ _ same => exact .inl (hkeep same (.refl _))
  | grants _ _ wakes _ same => exact .inl (hkeep same (wakes.delayQueue ▸ List.erase_sublist))
  | owns _ _ change same => exact .inl (hkeep same (by rw [change.rest]))
  | locks _ _ blocks same => exact hblock blocks same
  | disowns _ _ _ change same => exact .inl (hkeep same (by rw [change.rest]))
  | handsOff change same => exact .inl (hkeep same (change.wakes.delayQueue ▸ List.erase_sublist))
  | consumes _ same => exact .inl (hkeep same (.refl _))
  | @expires _ woken k₁ _ _ expired _ same =>
    have hsplit : k.delayQueue = woken ++ k₁.delayQueue := expired.delayQueue
    exact .inl (hkeep same (hsplit ▸ List.sublist_append_right _ _))

/-- Earlier by deadline, and among equal deadlines by the time of blocking. -/
def Timeline.Sooner (T : Timeline) (a b : TaskId) : Prop :=
  T.deadline a < T.deadline b ∨ T.deadline a = T.deadline b ∧ T.blockedAt a < T.blockedAt b

/-- The stored wake-up ticks are the recorded deadlines, and the delay queue is in their order. -/
structure Timeline.Dated (T : Timeline) : Prop where
  past : ∀ t, T.blockedAt t ≤ T.steps
  date : ∀ t ∈ T.kernel.delayQueue,
    T.deadline t = T.clock + distance T.kernel.currentTick (T.kernel.wake t)
  order : T.kernel.delayQueue.Pairwise T.Sooner

theorem Timeline.record_of_blocked (cfg : Config) (ev : Event) (k' : Kernel)
    (h : (T.kernel.tasks t).state = .blocked) :
    (T.record cfg ev k').deadline t = T.deadline t ∧
      (T.record cfg ev k').blockedAt t = T.blockedAt t := by
  have hnot : ¬ Suspended T.kernel k' t := fun hs => hs.1 h
  exact ⟨if_neg hnot, if_neg hnot⟩

/-- A wait that has just begun asks for the wake-up tick it stores. -/
theorem Event.Begins.wakeTick {wait : Wait} (h : ev.Begins k wait) (ht : wait.Timed) :
    distance k.currentTick wait.wakeTick = ev.allowance := by
  cases h with
  | delay _ _ => exact distance_of_add _ _
  | take _ _ =>
    have hne := (objectWait_timed (by simp)).mp ht
    simp only [objectWait, if_pos hne]
    exact distance_of_add _ _
  | lock _ _ =>
    have hne := (objectWait_timed (by simp)).mp ht
    simp only [objectWait, if_pos hne]
    exact distance_of_add _ _

theorem Recorded.date_step (h : Recorded cfg T) (hs : Step cfg T.kernel ev k')
    (hT : ∀ t ∈ T.kernel.delayQueue,
      T.deadline t = T.clock + distance T.kernel.currentTick (T.kernel.wake t))
    (ht : t ∈ k'.delayQueue) : (T.record cfg ev k').deadline t =
      (T.record cfg ev k').clock + distance k'.currentTick (k'.wake t) := by
  have hsound' := h.sound.step hs
  obtain ⟨hb', hservice⟩ := hsound'.mem_delayQueue ht
  have htimed' := hsound'.ok.inv.mem_delayQueue.mp ht
  have htick : k'.currentTick = T.kernel.currentTick + ev.elapsed cfg T.kernel := by
    refine (((hs.stepped h.sound).effect h.sound).tick_or_empty).resolve_right fun hnil => ?_
    simp [hnil] at ht
  have hclock : (T.record cfg ev k').clock = T.clock + (ev.elapsed cfg T.kernel).toNat := rfl
  cases h.waitMove hs hservice with
  | kept hwait hblocked hearly =>
    have hb := hblocked.mp hb'
    have hin : t ∈ T.kernel.delayQueue := by
      rw [h.sound.ok.inv.mem_delayQueue]
      exact ⟨hb, hwait ▸ htimed'.2⟩
    have hwake : k'.wake t = T.kernel.wake t := by simp only [Kernel.wake, hwait]
    have hlt := hearly hin
    rw [(Timeline.record_of_blocked cfg ev k' hb).1, hT t hin, hclock, htick, hwake,
      distance_add hlt.le]
    omega
  | startup _ _ _ hafter => exact absurd hb' hafter
  | suspended hstill hbefore _ hbegins _ =>
    have hsus : Suspended T.kernel k' t := ⟨by simp [hbefore], hb'⟩
    have hdeadline : (T.record cfg ev k').deadline t = T.clock + ev.allowance := if_pos hsus
    have hwake := hbegins.wakeTick htimed'.2
    have hsame : k'.currentTick = T.kernel.currentTick := by
      rw [htick, hstill]
      exact BitVec.add_zero _
    rw [hdeadline, hclock, hsame, hwake, hstill]
    rfl
  | granted _ _ _ hafter => exact absurd hb' hafter.not_blocked
  | expired _ _ _ hafter => exact absurd hb' hafter.not_blocked
  | consumed _ _ _ _ hafter => exact absurd hb' hafter

theorem Recorded.dated (h : Recorded cfg T) : T.Dated := by
  refine h.invariant (P := Timeline.Dated) ⟨fun _ => le_rfl, by simp [resetKernel],
    by simp [resetKernel]⟩ ?_
  intro T ev k' hT hs hst ih
  have hsound' := hT.sound.step hs
  have hdate : ∀ t ∈ k'.delayQueue, _ := fun t ht => hT.date_step hs ih.date ht
  have hpast : ∀ t, (T.record cfg ev k').blockedAt t ≤ T.steps + 1 := by
    intro t
    simp only [Timeline.record]
    split
    · exact le_rfl
    · exact (ih.past t).trans (Nat.le_succ _)
  -- the order of the tasks that were queued already
  have hold : T.kernel.delayQueue.Pairwise (T.record cfg ev k').Sooner := by
    refine ih.order.imp_of_mem fun {a b} ha hb hab => ?_
    obtain ⟨hda, hba⟩ := Timeline.record_of_blocked cfg ev k' (hT.sound.mem_delayQueue ha).1
    obtain ⟨hdb, hbb⟩ := Timeline.record_of_blocked cfg ev k' (hT.sound.mem_delayQueue hb).1
    unfold Timeline.Sooner
    rw [hda, hdb, hba, hbb]
    exact hab
  refine ⟨hpast, hdate, ?_⟩
  obtain hsub | ⟨c, wake, hsus, hqueue, hwake⟩ := (hst.effect hT.sound).delayQueue_sublist_or_insert
  · exact hold.sublist hsub
  · have hnow : (T.record cfg ev k').blockedAt c = T.steps + 1 := if_pos hsus
    have hc : c ∈ k'.delayQueue := by rw [hqueue, Ordered.mem_orderedInsert]; exact .inl rfl
    have hmem : ∀ b ∈ T.kernel.delayQueue, b ∈ k'.delayQueue := fun b hb => by
      rw [hqueue, Ordered.mem_orderedInsert]
      exact .inr hb
    have hbefore : ∀ b ∈ T.kernel.delayQueue, Earlier wake c b ↔
        (T.record cfg ev k').deadline c < (T.record cfg ev k').deadline b := by
      intro b hb
      have hwin := hsound'.ok.inv.delay.window
      rw [hdate c hc, hdate b (hmem b hb), Earlier, hwake c (hsound'.mem_delayQueue hc).2,
        hwake b (hsound'.mem_delayQueue (hmem b hb)).2,
        tickBefore_iff_of_window (hwin c (hsound'.ok.inv.mem_delayQueue.mp hc)).2
          (hwin b (hsound'.ok.inv.mem_delayQueue.mp (hmem b hb))).2]
      omega
    change k'.delayQueue.Pairwise _
    rw [hqueue]
    refine Ordered.pairwise_orderedInsert hold ?_ ?_ ?_
    · exact fun b hb hcb => .inl ((hbefore b hb).mp hcb)
    · intro b hb hcb
      rw [hbefore b hb] at hcb
      have hbb : (T.record cfg ev k').blockedAt b = T.blockedAt b :=
        (Timeline.record_of_blocked cfg ev k' (hT.sound.mem_delayQueue hb).1).2
      have hpb := ih.past b
      unfold Timeline.Sooner
      omega
    · intro a _ b _ hca hab
      unfold Timeline.Sooner at *
      omega

/-- A wait that has just begun has a deadline exactly when the call gave one. -/
theorem Event.Begins.timed_iff {wait : Wait} (h : ev.Begins k wait) :
    1 ≤ ev.allowance ∧ (wait.Timed ↔ ev.allowance ≤ delayMax.toNat) := by
  have hpos : ∀ {d : Tick}, d ≠ 0 → 1 ≤ d.toNat := by
    intro d hd
    by_contra hlt
    exact hd (BitVec.eq_of_toNat_eq (by simp; omega))
  have hforever : ∀ {timeout : Tick}, timeout ≤ delayMax ∨ timeout = waitForever →
      (timeout ≠ waitForever ↔ timeout.toNat ≤ delayMax.toNat) := by
    rintro timeout (hle | rfl)
    · have hnat := BitVec.le_def.mp hle
      refine ⟨fun _ => hnat, ?_⟩
      rintro - rfl
      simp [waitForever, delayMax] at hnat
    · simp [waitForever, delayMax]
  cases h with
  | delay positive range =>
    exact ⟨hpos positive, fun _ => BitVec.le_def.mp range, fun _ => .inl rfl⟩
  | take positive range =>
    exact ⟨hpos positive, (objectWait_timed (by simp)).trans (hforever range)⟩
  | lock positive range =>
    exact ⟨hpos positive, (objectWait_timed (by simp)).trans (hforever range)⟩

theorem Recorded.suspended_iff_queued (h : Recorded cfg T) (hs : Step cfg T.kernel ev k')
    (ht : t ≠ .timerService) (hsus : Suspended T.kernel k' t) :
    1 ≤ ev.allowance ∧ (t ∈ k'.delayQueue ↔ ev.allowance ≤ delayMax.toNat) := by
  obtain ⟨hb, hb'⟩ := hsus
  cases h.waitMove hs ht with
  | kept _ hblocked _ => exact absurd (hblocked.mp hb') hb
  | startup _ _ _ hafter => exact absurd hb' hafter
  | suspended _ _ _ hbegins _ =>
    refine hbegins.timed_iff.imp_right fun hiff => ?_
    rw [← hiff, (h.sound.step hs).ok.inv.mem_delayQueue]
    simp [Tcb.Timed, Wait.Timed, hb']
  | granted _ _ _ hafter => exact absurd hb' hafter.not_blocked
  | expired _ _ _ hafter => exact absurd hb' hafter.not_blocked
  | consumed _ _ _ _ hafter => exact absurd hb' hafter

/-- The clock has not reached the deadline of any wait. -/
theorem Recorded.clock_lt (h : Recorded cfg T) (ht : t ∈ T.kernel.delayQueue) :
    T.clock < T.deadline t := by
  have hinv := h.sound.ok.inv
  have hwin := (hinv.delay.window t (hinv.mem_delayQueue.mp ht)).1
  have hdate := h.dated.date t ht
  omega

/-- How a step leaves a wait that has a deadline: ended by the deadline exactly when the clock has
reached it; before that, still waiting or ended by a grant. -/
structure Timeline.Meets (cfg : Config) (T : Timeline) (ev : Event) (k' : Kernel) (t : TaskId) :
    Prop where
  due : T.deadline t ≤ (T.record cfg ev k').clock →
    (k'.tasks t).Runnable ∧ (k'.tasks t).wait.result = (T.kernel.tasks t).wait.expiryResult
  early : (T.record cfg ev k').clock < T.deadline t →
    (k'.tasks t).state = .blocked ∧ t ∈ k'.delayQueue ∧
      (T.record cfg ev k').deadline t = T.deadline t ∨
    (T.kernel.tasks t).AwaitsObject ∧ ev.Hands T.kernel k' t ∧ (k'.tasks t).Runnable ∧
      (k'.tasks t).wait.result = .acquired

theorem Recorded.meets (h : Recorded cfg T) (hs : Step cfg T.kernel ev k')
    (ht : t ∈ T.kernel.delayQueue) : T.Meets cfg ev k' t := by
  have hdate := h.dated.date t ht
  have hlt := h.clock_lt ht
  have hclock : (T.record cfg ev k').clock = T.clock + (ev.elapsed cfg T.kernel).toNat := rfl
  have hzero : (0 : Tick).toNat = 0 := rfl
  obtain ⟨hb, hservice⟩ := h.sound.mem_delayQueue ht
  cases h.waitMove hs hservice with
  | kept hwait hblocked hearly =>
    have hbefore := hearly ht
    have hb' := hblocked.mpr hb
    refine ⟨fun hdue => by omega, fun _ => .inl ⟨hb', ?_, ?_⟩⟩
    · rw [(h.sound.step hs).ok.inv.mem_delayQueue]
      exact ⟨hb', hwait.symm ▸ (h.sound.ok.inv.mem_delayQueue.mp ht).2⟩
    · exact (Timeline.record_of_blocked cfg ev k' hb).1
  | startup _ hbefore => exact absurd hb hbefore
  | suspended _ hbefore => simp [hbefore] at hb
  | granted hstill hawaits hhands hafter hresult =>
    rw [hstill, hzero] at hclock
    exact ⟨fun hdue => by omega, fun _ => .inr ⟨hawaits, hhands, hafter, hresult⟩⟩
  | expired _ _ hdue hafter hresult => exact ⟨fun _ => ⟨hafter, hresult⟩, fun hearly => by omega⟩
  | consumed _ _ _ hbefore => simp [hbefore] at hb

/-- The delay loop of an advance releases the tasks whose deadline it reaches, in the order of their
deadlines and, where these are equal, in the order in which they blocked. -/
theorem Recorded.wp_delayLoop_sooner (h : Recorded cfg T) {elapsed : Tick} (he : elapsed ≤ delayMax)
    (f : RuntimeCounters → RuntimeCounters) :
    wp (delayLoop cfg T.kernel.delayQueue.length) (fun woken _ => ∃ ws, woken = some ws ∧
        (∀ t, t ∈ ws ↔ t ∈ T.kernel.delayQueue ∧ T.deadline t ≤ T.clock + elapsed.toNat) ∧
        ws.Pairwise T.Sooner)
      (fun e _ => e = .assertion (.recomputeChain .idle) ∧ T.kernel.IdleOwns)
      ((T.kernel.elapse elapsed).count f) := by
  have hinv := h.sound.ok.inv
  have hsame : SameTasks T.kernel ((T.kernel.elapse elapsed).count f) := rfl
  have hinv₀ := hinv.sameTasks hsame
  refine wp_delayLoop hinv₀ le_rfl (fun k' woken hexp hdue hend _ hinv' => ?_)
    fun howns _ => ⟨rfl, howns⟩
  have hsplit : T.kernel.delayQueue = woken ++ k'.delayQueue := hexp.delayQueue
  refine ⟨woken, rfl, fun t => ⟨fun hin => ?_, fun ⟨hq, hdead⟩ => ?_⟩, ?_⟩
  · have hq : t ∈ T.kernel.delayQueue := by simp [hsplit, hin]
    have hdist := (hexp.exact hinv₀ hinv' he hdue hend hq).mp hin
    have hdate := h.dated.date t hq
    exact ⟨hq, hdate.trans_le (Nat.add_le_add_left hdist _)⟩
  · refine (hexp.exact hinv₀ hinv' he hdue hend hq).mpr ?_
    rw [h.dated.date t hq] at hdead
    exact Nat.le_of_add_le_add_left hdead
  · have horder := h.dated.order
    rw [hsplit] at horder
    exact (List.pairwise_append.mp horder).1

/-- How an advance leaves the delay queue: the waits whose deadline it reaches have ended, and the
others go on. -/
structure Timeline.Releases (T : Timeline) (elapsed : Tick) (k' : Kernel) : Prop where
  due : ∀ t ∈ T.kernel.delayQueue, T.deadline t ≤ T.clock + elapsed.toNat →
    (k'.tasks t).Runnable ∧ (k'.tasks t).wait.result = (T.kernel.tasks t).wait.expiryResult
  early : ∀ t ∈ T.kernel.delayQueue, T.clock + elapsed.toNat < T.deadline t →
    (k'.tasks t).state = .blocked ∧ (k'.tasks t).wait = (T.kernel.tasks t).wait

theorem Recorded.releases (h : Recorded cfg T) {elapsed : Tick}
    (hticked : Ticked cfg T.kernel elapsed k') : T.Releases elapsed k' := by
  obtain ⟨k₁, woken, hexp, hsame, hexact⟩ := hticked.waits
  have hwoken : ∀ t ∈ T.kernel.delayQueue,
      (t ∈ woken ↔ T.deadline t ≤ T.clock + elapsed.toNat) := by
    intro t ht
    rw [hexact t ht, h.dated.date t ht, Nat.add_le_add_iff_left]
  refine ⟨fun t ht hdue => ?_, fun t ht hearly => ?_⟩ <;>
    obtain ⟨hb, hservice⟩ := h.sound.mem_delayQueue ht <;>
    obtain ⟨hwait, hblocked, hrun⟩ := hsame.tasks t hservice
  · obtain ⟨hended, hresult⟩ := hexp.ended t ((hwoken t ht).mpr hdue)
    exact ⟨hrun hended, hwait ▸ hresult⟩
  · obtain ⟨hwait₁, hstate₁⟩ := hexp.kept t fun hin => by
      have := (hwoken t ht).mp hin
      omega
    exact ⟨hblocked.mpr (hstate₁.trans hb), hwait.trans hwait₁⟩

/-- While the idle task owns no mutex, an advance passes the release of the due tasks, however it
ends. -/
theorem Recorded.wp_kernelAdvance_releases (h : Recorded cfg T) {contextOk : Bool} {elapsed : Tick}
    (hvalid : AdvanceIsValid T.kernel contextOk elapsed) (howns : ¬ T.kernel.IdleOwns) :
    wp (kernelAdvance cfg contextOk elapsed) (fun _ => T.Releases elapsed)
      (fun _ => T.Releases elapsed) T.kernel := by
  simp only [kernelAdvance, wp_bind, wp_get]
  rw [wp_rtsAssert_of hvalid, wp_ite, if_pos hvalid]
  refine wp_mono (wp_kernelTimeAdvanceCommon h.sound.ok h.sound.timersOk hvalid.1 hvalid.2.2.2)
    (fun b k₁ hadv => ?_) fun e k₁ hhalts => ?_
  · exact h.releases hadv.toTicked
  · exact h.releases (hhalts.ticked howns)

/-- The half-range rejection of an insertion into the delay queue is never taken. -/
theorem Sound.delayInsertInto_ne_none (h : Sound cfg k) {d : Tick} (ht : t ∉ k.delayQueue)
    (h0 : d ≠ 0) (hd : d ≤ delayMax) :
    delayInsertInto (Function.update k.wake t (k.currentTick + d)) t k.delayQueue ≠ none := by
  rw [delayInsertInto_eq]
  · simp
  · intro q hq
    have hqt : q ≠ t := by
      rintro rfl
      exact ht hq
    rw [Function.update_self, Function.update_of_ne hqt]
    exact sub_ne_halfRange_of_window (inWindow_add h0 hd).2
      (h.ok.inv.delay.window q (h.ok.inv.mem_delayQueue.mp hq)).2

/-- Time is the sum of all advances. A wait begun with a timeout of `d` ticks is in the delay queue,
with its deadline `d` ticks ahead; while it is there the clock has not reached the deadline; a step
ends it by the deadline exactly when the clock reaches it, with the result of a timeout where one is
given. While the idle task owns no mutex, an advance releases every task that it makes due before
anything can stop it, and it returns when the current task is not made `READY` and no timer is left
overdue. Tasks due in one advance are released in the order of their deadlines, then of blocking,
and the delay queue never refuses a deadline. -/
theorem wakeups_exact (h : Recorded cfg T) :
    (∀ ev k', Step cfg T.kernel ev k' → ∀ t, t ≠ .timerService → Suspended T.kernel k' t →
      1 ≤ ev.allowance ∧ (t ∈ k'.delayQueue ↔ ev.allowance ≤ delayMax.toNat) ∧
      (T.record cfg ev k').deadline t = T.clock + ev.allowance) ∧
    (∀ t ∈ T.kernel.delayQueue, T.clock < T.deadline t ∧
      ∀ ev k', Step cfg T.kernel ev k' → T.Meets cfg ev k' t) ∧
    (∀ contextOk elapsed, AdvanceIsValid T.kernel contextOk elapsed → ¬ T.kernel.IdleOwns →
      wp (kernelAdvance cfg contextOk elapsed) (fun _ => T.Releases elapsed)
        (fun _ => T.Releases elapsed) T.kernel ∧
      (¬ (T.kernel.CurrentReady ∨ T.kernel.ServiceDue elapsed) → T.kernel.Ahead →
        T.kernel.Spread (T.kernel.currentTick + elapsed) →
        ∃ b k', kernelAdvance cfg contextOk elapsed T.kernel = .ret b k')) ∧
    (∀ elapsed f, elapsed ≤ delayMax →
      wp (delayLoop cfg T.kernel.delayQueue.length) (fun woken _ => ∃ ws, woken = some ws ∧
          (∀ t, t ∈ ws ↔ t ∈ T.kernel.delayQueue ∧ T.deadline t ≤ T.clock + elapsed.toNat) ∧
          ws.Pairwise T.Sooner)
        (fun e _ => e = .assertion (.recomputeChain .idle) ∧ T.kernel.IdleOwns)
        ((T.kernel.elapse elapsed).count f)) ∧
    ∀ t d, t ∉ T.kernel.delayQueue → d ≠ 0 → d ≤ delayMax →
      delayInsertInto (Function.update T.kernel.wake t (T.kernel.currentTick + d)) t
        T.kernel.delayQueue ≠ none := by
  refine ⟨fun ev k' hs t ht hsus => ?_, fun t ht => ⟨h.clock_lt ht, fun ev k' hs => h.meets hs ht⟩,
    fun contextOk elapsed hvalid howns => ⟨h.wp_kernelAdvance_releases hvalid howns, ?_⟩,
    fun elapsed f he => h.wp_delayLoop_sooner he f,
    fun t d ht h0 hd => h.sound.delayInsertInto_ne_none ht h0 hd⟩
  · obtain ⟨hpos, hqueued⟩ := h.suspended_iff_queued hs ht hsus
    exact ⟨hpos, hqueued, if_pos hsus⟩
  · intro hready hahead hspread
    obtain ⟨b, k', hret, -⟩ := exists_ret_of_wp
      (wp_kernelAdvance_returns h.sound.ok h.sound.timersOk hvalid howns hready hahead hspread)
    exact ⟨b, k', hret⟩

/-- Three tasks that sleep: two until the second tick, one until the fifth. -/
def sleepingEvents : List Event :=
  bootEvents 1 ++ [createEvent 1, createEvent 1, .start false true true, .delay false 2] ++
    switchEvents (.slot 0) (.slot 1) 1 ++ .delay false 5 ::
    switchEvents (.slot 1) (.slot 2) 2 ++ [.delay false 2]

/-- An advance by two ticks returns; it wakes two of them, and one goes on sleeping. -/
theorem wakeups_exact_sleeping : ∃ T : Timeline,
    T.kernel.delayQueue = [.slot 0, .slot 2, .slot 1] ∧ T.clock < T.deadline (.slot 1) ∧
    (∃ k', T.Meets crowdConfig (.tick true 2) k' (.slot 1) ∧ k'.delayQueue = [.slot 1]) ∧
    ∃ b k', kernelAdvance crowdConfig true 2 T.kernel = .ret b k' ∧ T.Releases 2 k' := by
  have hrun : (execute crowdConfig (fun k ev => ¬ ev.IdleLocks k) sleepingEvents resetKernel).any
      (fun k => decide ((k.delayQueue = [.slot 0, .slot 2, .slot 1] ∧ AdvanceIsValid k true 2 ∧
        k.activeQueue = [] ∧ k.currentTask = some (.slot 2) ∧
        (k.tasks (.slot 2)).state = .blocked) ∧
        (execute crowdConfig (fun _ _ => True) [.tick true 2] k).any
          (fun k' => decide (k'.delayQueue = [.slot 1])) = true)) = true := by
    decide +kernel
  obtain ⟨k, hreach, ⟨hqueue, hvalid, hnone, hc, hst⟩, htick⟩ := exists_reachable hrun
  obtain ⟨k', hstep, hleft⟩ := exists_step htick
  have howns : ¬ k.IdleOwns := hreach.not_idleOwns fun _ _ hev => hev
  have hready : ¬ (k.CurrentReady ∨ k.ServiceDue 2) := by
    rintro (⟨c, hc', hr⟩ | ⟨hservice, -⟩)
    · obtain rfl : .slot 2 = c := Option.some.inj (hc.symm.trans hc')
      simp [hst] at hr
    · simp [hc] at hservice
  have hahead : k.Ahead := ⟨by simp [hnone], by simp [hnone]⟩
  have hspread : k.Spread (k.currentTick + 2) := by simp [Kernel.Spread, hnone]
  obtain ⟨T, hT, rfl⟩ := Reachable.recorded (hreach.mono fun _ _ _ => trivial)
  obtain ⟨-, hmeets, hadvance, -⟩ := wakeups_exact hT
  obtain ⟨hclock, hmeets⟩ := hmeets (.slot 1) (by simp [hqueue])
  obtain ⟨hreleases, hreturns⟩ := hadvance true 2 hvalid howns
  obtain ⟨b, k₂, hret⟩ := hreturns hready hahead hspread
  exact ⟨T, hqueue, hclock, ⟨k', hmeets _ k' hstep, hleft⟩, b, k₂, hret, (wp_ret hreleases hret :)⟩

/-- Two tasks sleep, and a third waits as it is told to. The idle task takes a mutex, for which the
first task waits when it is awake again, for at most ten ticks. -/
def idleOwnerEvents (wait : Event) : List Event :=
  bootEvents 1 ++ [createEvent 1, createEvent 1, .mutexInit false (some 0),
      .semaphoreInit false (some 0) 0 1, .start false true true, .delay false 1] ++
    switchEvents (.slot 0) (.slot 1) 1 ++ .delay false 1 ::
    switchEvents (.slot 1) (.slot 2) 2 ++ wait ::
    switchEvents (.slot 2) .idle 3 ++ [.lock false (some 0) 0, .tick true 1] ++
    switchEvents .idle (.slot 0) 4 ++ .lock false (some 0) 10 ::
    switchEvents (.slot 0) (.slot 1) 5

/-- The wait for the mutex expires, which leaves the idle task with the priority zero;
`rts_priority_set_effective` refuses it, and the kernel halts before it comes to the task that is
due next. -/
theorem due_task_not_woken : ∃ (T : Timeline) (k' : Kernel), Recorded crowdConfig T ∧
    (T.kernel.mutexes 0).owner = some .idle ∧ .slot 2 ∈ T.kernel.delayQueue ∧
    T.deadline (.slot 2) ≤ T.clock + (11 : Tick).toNat ∧
    runEvent crowdConfig (.tick true 11) T.kernel = .halt (.assertion (.recomputeChain .idle)) k' ∧
    (k'.tasks (.slot 2)).state = .blocked := by
  have hrun : (execute crowdConfig (fun _ _ => True) (idleOwnerEvents (.delay false 12))
      resetKernel).any (fun k => decide ((k.mutexes 0).owner = some .idle ∧
        .slot 2 ∈ k.delayQueue ∧ distance k.currentTick (k.wake (.slot 2)) = 11 ∧
        (runEvent crowdConfig (.tick true 11) k).reason? =
          some (.assertion (.recomputeChain .idle)) ∧
        ((runEvent crowdConfig (.tick true 11) k).state.tasks (.slot 2)).state =
          .blocked)) = true := by
    decide +kernel
  obtain ⟨k, hreach, howner, hqueued, hdist, hhalt, hblocked⟩ := exists_reachable hrun
  obtain ⟨T, hT, rfl⟩ := Reachable.recorded hreach
  have hdue : T.deadline (.slot 2) = T.clock + 11 := by rw [hT.dated.date _ hqueued, hdist]
  exact ⟨T, _, hT, howner, hqueued, hdue.le, Outcome.eq_halt hhalt, hblocked⟩

/-! ## Results -/

/-- The results given since a task last blocked. -/
structure Timeline.AnsweredOnce (T : Timeline) (t : TaskId) : Prop where
  blocked : (T.kernel.tasks t).state = .blocked → T.results t = 0
  answered : (T.kernel.tasks t).wait.result ≠ .none → T.results t = 1
  bound : T.results t ≤ 1

theorem Recorded.answeredOnce (h : Recorded cfg T) (ht : t ≠ .timerService) :
    T.AnsweredOnce t := by
  refine h.invariant (P := fun T => T.AnsweredOnce t)
    ⟨fun _ => rfl, by simp [resetKernel], Nat.zero_le _⟩ ?_
  intro T ev k' hT hs _ ih
  have hunanswered : ∀ {k : Kernel}, Sound cfg k → (k.tasks t).state = .blocked →
      (k.tasks t).wait.result = .none := fun hk hb => ((hk.ok.inv.tasks t).waits hb).1
  have hresults : (T.record cfg ev k').results t =
      (if Suspended T.kernel k' t then 0 else T.results t) +
        if Answered T.kernel k' t then 1 else 0 := rfl
  -- a step without an answer and without a new wait
  have hquiet : ¬ Suspended T.kernel k' t → ¬ Answered T.kernel k' t →
      (T.record cfg ev k').results t = T.results t := by
    intro h1 h2
    rw [hresults, if_neg h1, if_neg h2]
    rfl
  cases hT.waitMove hs ht with
  | kept hwait hblocked _ =>
    have hsame := hquiet (fun hc => hc.1 (hblocked.mp hc.2)) fun hc => hc.2 (by rw [hwait])
    exact ⟨fun hb => hsame.trans (ih.blocked (hblocked.mp hb)),
      fun hr => hsame.trans (ih.answered (hwait ▸ hr)), hsame.trans_le ih.bound⟩
  | startup _ _ _ hafter hresult =>
    have hsame := hquiet (fun hc => hafter hc.2) fun hc => hc.1 hresult
    exact ⟨fun hb => absurd hb hafter, fun hr => absurd hresult hr, hsame.trans_le ih.bound⟩
  | suspended _ hbefore _ _ hafter =>
    have hnone := hunanswered (hT.sound.step hs) hafter
    have hsus : Suspended T.kernel k' t := ⟨by simp [hbefore], hafter⟩
    have hzero : (T.record cfg ev k').results t = 0 := by
      rw [hresults, if_pos hsus, if_neg fun hc => hc.1 hnone]
    exact ⟨fun _ => hzero, fun hr => absurd hnone hr, hzero.trans_le (Nat.zero_le _)⟩
  | granted _ hawaits _ hafter hresult =>
    have hnone := hunanswered hT.sound hawaits.1
    have hans : Answered T.kernel k' t := by simp [Answered, hresult, hnone]
    have hone : (T.record cfg ev k').results t = 1 := by
      rw [hresults, if_neg fun hc => hc.1 hawaits.1, if_pos hans, ih.blocked hawaits.1]
    exact ⟨fun hb => absurd hb hafter.not_blocked, fun _ => hone, hone.le⟩
  | expired _ hin _ hafter hresult =>
    have hb := (hT.sound.mem_delayQueue hin).1
    have hnot : ¬ Suspended T.kernel k' t := fun hc => hc.1 hb
    refine ⟨fun hb' => absurd hb' hafter.not_blocked, fun hr => ?_, ?_⟩
    · have hans : Answered T.kernel k' t := ⟨hr, by rwa [hunanswered hT.sound hb]⟩
      rw [hresults, if_neg hnot, if_pos hans, ih.blocked hb]
    · rw [hresults, if_neg hnot, ih.blocked hb]
      split <;> omega
  | consumed _ _ _ _ hafter hresult =>
    have hsame := hquiet (fun hc => hafter hc.2) fun hc => hc.1 hresult
    exact ⟨fun hb => absurd hb hafter, fun hr => absurd hresult hr, hsame.trans_le ih.bound⟩

/-- How a step leaves a task that waits for a semaphore or mutex. -/
structure Timeline.Concludes (cfg : Config) (T : Timeline) (ev : Event) (k' : Kernel) (t : TaskId) :
    Prop where
  acquired : (k'.tasks t).wait.result = .acquired ↔ ev.Hands T.kernel k' t
  timeout : (k'.tasks t).wait.result = .timeout ↔
    (T.kernel.tasks t).wait.timeoutActive = true ∧ T.deadline t ≤ (T.record cfg ev k').clock
  cancelled : (k'.tasks t).wait.result ≠ .cancelled
  waiting : (k'.tasks t).wait.result = .none →
    (k'.tasks t).state = .blocked ∧ (k'.tasks t).wait = (T.kernel.tasks t).wait

/-- No event hands a task what it goes on waiting for. -/
theorem Sound.not_hands (h : Sound cfg k') (hw : (k'.tasks t).AwaitsObject)
    (hobj : (k'.tasks t).wait.object = (k.tasks t).wait.object) : ¬ ev.Hands k k' t := by
  rintro (⟨_, hsem, hleft, _⟩ | ⟨_, hmutex, howner⟩)
  · exact hleft ((h.linked.wait _ t).mpr ⟨hw, hobj.trans hsem⟩)
  · have hmem := (h.linked.wait (.mutex _) t).mpr ⟨hw, hobj.trans hmutex⟩
    have hawaits := (h.ok.inv.locks.waiting _ t).mp hmem
    exact h.ok.inv.locks.acyclic t (.single (awaits_eq_some.mpr ⟨_, hawaits, howner⟩))

theorem Event.Hands.still (h : ev.Hands k k' t) : ev.elapsed cfg k = 0 := by
  obtain ⟨⟨isr, rfl | rfl⟩, _, _, _⟩ | ⟨rfl, _, _⟩ := h <;> rfl

theorem Tcb.AwaitsObject.expiryResult {task : Tcb} (h : task.AwaitsObject) :
    task.wait.expiryResult = .timeout := by
  obtain ⟨-, hr | hr⟩ := h <;> simp [Wait.expiryResult, hr]

theorem Recorded.concludes (h : Recorded cfg T) (hs : Step cfg T.kernel ev k')
    (hw : (T.kernel.tasks t).AwaitsObject) (ht : t ≠ .timerService) :
    T.Concludes cfg ev k' t := by
  obtain ⟨hb, hreason⟩ := hw
  have hnone : (T.kernel.tasks t).wait.result = .none := ((h.sound.ok.inv.tasks t).waits hb).1
  have hexpiry : (T.kernel.tasks t).wait.expiryResult = .timeout :=
    Tcb.AwaitsObject.expiryResult ⟨hb, hreason⟩
  -- a deadline that is reached ends the wait
  have hdue : (T.kernel.tasks t).wait.timeoutActive = true ∧
      T.deadline t ≤ (T.record cfg ev k').clock → (k'.tasks t).wait.result = .timeout := by
    rintro ⟨hto, hdead⟩
    have hin := (h.sound.linked.delay t).mpr (.inr ⟨⟨hb, hreason⟩, hto⟩)
    exact ((h.meets hs hin).due hdead).2.trans hexpiry
  cases h.waitMove hs ht with
  | kept hwait hblocked _ =>
    have hresult : (k'.tasks t).wait.result = .none := by rw [hwait, hnone]
    have hw' : (k'.tasks t).AwaitsObject := ⟨hblocked.mpr hb, hwait.symm ▸ hreason⟩
    refine ⟨⟨fun hc => ?_, fun hc => ?_⟩, ⟨fun hc => ?_, hdue⟩, by simp [hresult], fun _ => ?_⟩
    · simp [hresult] at hc
    · exact absurd hc ((h.sound.step hs).not_hands hw' (by rw [hwait]))
    · simp [hresult] at hc
    · exact ⟨hblocked.mpr hb, hwait⟩
  | startup _ hbefore => exact absurd hb hbefore
  | suspended _ hbefore => simp [hbefore] at hb
  | granted _ _ hhands _ hresult =>
    refine ⟨⟨fun _ => hhands, fun _ => hresult⟩, ⟨fun hc => ?_, hdue⟩, by simp [hresult],
      fun hc => ?_⟩
    · simp [hresult] at hc
    · simp [hresult] at hc
  | expired hmoved hin hdist _ hresult =>
    rw [hexpiry] at hresult
    refine ⟨⟨fun hc => ?_, fun hc => ?_⟩, ⟨fun _ => ⟨?_, ?_⟩, hdue⟩, by simp [hresult],
      fun hc => ?_⟩
    · simp [hresult] at hc
    · exact absurd hc.still hmoved
    · obtain ⟨-, hdelay⟩ | ⟨-, hto⟩ := (h.sound.linked.delay t).mp hin
      · simp [hdelay] at hreason
      · exact hto
    · rw [h.dated.date t hin]
      exact Nat.add_le_add_left hdist _
    · simp [hresult] at hc
  | consumed _ _ _ hbefore => simp [hbefore] at hb

/-- The wait of the task has ended with a time-out. -/
def TimedOut (task : Tcb) : Prop := task.Runnable ∧ task.wait.result = .timeout

theorem Recorded.wp_kernelAdvance_timedOut (h : Recorded cfg T) {contextOk : Bool} {elapsed : Tick}
    (hw : (T.kernel.tasks t).AwaitsObject) (hto : (T.kernel.tasks t).wait.timeoutActive = true)
    (hdue : T.deadline t ≤ T.clock + elapsed.toNat)
    (hvalid : AdvanceIsValid T.kernel contextOk elapsed) (howns : ¬ T.kernel.IdleOwns) :
    wp (kernelAdvance cfg contextOk elapsed) (fun _ k' => TimedOut (k'.tasks t))
      (fun _ k' => TimedOut (k'.tasks t)) T.kernel := by
  have hin : t ∈ T.kernel.delayQueue := (h.sound.linked.delay t).mpr (.inr ⟨hw, hto⟩)
  have hexpiry := hw.expiryResult
  have hended : ∀ k', T.Releases elapsed k' → TimedOut (k'.tasks t) := fun k' hk' =>
    (hk'.due t hin hdue).imp_right fun hresult => hresult.trans hexpiry
  exact wp_mono (h.wp_kernelAdvance_releases hvalid howns) (fun _ => hended) fun _ => hended

/-- A result that has been given stays until its task consumes it, and the task does not wait
meanwhile. -/
theorem Recorded.result_kept (h : Recorded cfg T) (hs : Step cfg T.kernel ev k')
    (ht : t ≠ .timerService) (hr : (T.kernel.tasks t).wait.result ≠ .none) :
    (k'.tasks t).state ≠ .blocked ∧
    ((k'.tasks t).wait.result = (T.kernel.tasks t).wait.result ∨
      ev = .consume ∧ T.kernel.currentTask = some t ∧ (k'.tasks t).wait.result = .none) := by
  have hb : (T.kernel.tasks t).state ≠ .blocked := fun hb =>
    hr ((h.sound.ok.inv.tasks t).waits hb).1
  cases h.waitMove hs ht with
  | kept hwait hblocked _ => exact ⟨fun hb' => hb (hblocked.mp hb'), .inl (by rw [hwait])⟩
  | startup _ _ hnone => exact absurd hnone hr
  | suspended _ _ hnone => exact absurd hnone hr
  | granted _ hawaits => exact absurd hawaits.1 hb
  | expired _ hin => exact absurd (h.sound.mem_delayQueue hin).1 hb
  | consumed _ hev hcur _ hafter hresult => exact ⟨hafter, .inr ⟨hev, hcur, hresult⟩⟩

/-- Only a task that waits is given a result. -/
theorem Recorded.result_none (h : Recorded cfg T) (hs : Step cfg T.kernel ev k')
    (ht : t ≠ .timerService) (hw : ¬ (T.kernel.tasks t).AwaitsObject)
    (hr : (T.kernel.tasks t).wait.result = .none) : (k'.tasks t).wait.result = .none := by
  cases h.waitMove hs ht with
  | kept hwait _ _ => rw [hwait, hr]
  | startup _ _ _ _ hresult => exact hresult
  | suspended _ _ _ _ hafter => exact (((h.sound.step hs).ok.inv.tasks t).waits hafter).1
  | granted _ hawaits => exact absurd hawaits hw
  | expired _ hin _ _ hresult =>
    obtain ⟨-, hdelay⟩ | ⟨hawaits, -⟩ := (h.sound.linked.delay t).mp hin
    · simp [hresult, Wait.expiryResult, hdelay]
    · exact absurd hawaits hw
  | consumed _ _ _ _ _ hresult => exact hresult

/-- A task that waits for a semaphore or mutex has no result, and each step leaves it waiting, hands
it what it waits for, or ends its wait because its deadline is reached, and tells it so. While the
idle task owns no mutex, an advance that reaches the deadline ends the wait before anything can stop
it. A task that has been told stays told until it consumes the result, and is in no list that could
tell it again; so it is told once for each wait, and a task that does not wait is told nothing. -/
theorem waits_end_once (h : Recorded cfg T) (ht : t ≠ .timerService) :
    ((T.kernel.tasks t).AwaitsObject → (T.kernel.tasks t).wait.result = .none ∧ T.results t = 0 ∧
      (∀ ev k', Step cfg T.kernel ev k' → T.Concludes cfg ev k' t) ∧
      ∀ contextOk elapsed, AdvanceIsValid T.kernel contextOk elapsed → ¬ T.kernel.IdleOwns →
        (T.kernel.tasks t).wait.timeoutActive = true → T.deadline t ≤ T.clock + elapsed.toNat →
        wp (kernelAdvance cfg contextOk elapsed) (fun _ k' => TimedOut (k'.tasks t))
          (fun _ k' => TimedOut (k'.tasks t)) T.kernel) ∧
    ((T.kernel.tasks t).wait.result ≠ .none → T.results t = 1 ∧
      t ∉ T.kernel.delayQueue ∧ (∀ o, t ∉ T.kernel.waiters o) ∧
      ∀ ev k', Step cfg T.kernel ev k' → (k'.tasks t).state ≠ .blocked ∧
        ((k'.tasks t).wait.result = (T.kernel.tasks t).wait.result ∨
          ev = .consume ∧ T.kernel.currentTask = some t ∧ (k'.tasks t).wait.result = .none)) ∧
    (¬ (T.kernel.tasks t).AwaitsObject → (T.kernel.tasks t).wait.result = .none →
      ∀ ev k', Step cfg T.kernel ev k' → (k'.tasks t).wait.result = .none) ∧
    T.results t ≤ 1 := by
  have honce := h.answeredOnce ht
  have hblocked : (T.kernel.tasks t).state = .blocked → (T.kernel.tasks t).wait.result = .none :=
    fun hb => ((h.sound.ok.inv.tasks t).waits hb).1
  refine ⟨fun hw => ⟨hblocked hw.1, honce.blocked hw.1, fun ev k' hs => h.concludes hs hw ht,
      fun _ _ hvalid howns hto hdue => h.wp_kernelAdvance_timedOut hw hto hdue hvalid howns⟩,
    fun hr => ⟨honce.answered hr, fun hin => ?_, fun o hin => ?_, fun ev k' hs => ?_⟩,
    fun hw hr ev k' hs => h.result_none hs ht hw hr, honce.bound⟩
  · exact hr (hblocked (h.sound.mem_delayQueue hin).1)
  · exact hr (hblocked ((h.sound.linked.wait o t).mp hin).1.1)
  · exact h.result_kept hs ht hr

/-- A task waits for a semaphore for at most one tick, and the tick comes first. -/
theorem waits_end_once_timeout : ∃ T : Timeline, (T.kernel.tasks (.slot 0)).AwaitsObject ∧
    (∃ k', T.Concludes sampleConfig (.tick true 1) k' (.slot 0) ∧
      (k'.tasks (.slot 0)).wait.result = .timeout) ∧
    ∃ b k', kernelAdvance sampleConfig true 1 T.kernel = .ret b k' ∧
      TimedOut (k'.tasks (.slot 0)) := by
  have hrun : (execute sampleConfig (fun k ev => ¬ ev.IdleLocks k) (bootEvents 1 ++
      [.semaphoreInit false (some 0) 0 1, .start false true true, .take false (some 0) 1])
      resetKernel).any (fun k => decide (((k.tasks (.slot 0)).AwaitsObject ∧
        .slot 0 ∈ k.delayQueue ∧ distance k.currentTick (k.wake (.slot 0)) = 1 ∧
        (k.tasks (.slot 0)).wait.timeoutActive = true ∧ AdvanceIsValid k true 1 ∧
        (kernelAdvance sampleConfig true 1 k).value? = some false) ∧
        (execute sampleConfig (fun _ _ => True) [.tick true 1] k).any
          (fun k' => decide ((k'.tasks (.slot 0)).wait.result = .timeout)) = true)) = true := by
    decide +kernel
  obtain ⟨k, hreach, ⟨hwaits, hqueued, hdist, hto, hvalid, hret⟩, htick⟩ := exists_reachable hrun
  obtain ⟨k', hstep, hresult⟩ := exists_step htick
  have howns : ¬ k.IdleOwns := hreach.not_idleOwns fun _ _ hev => hev
  obtain ⟨T, hT, rfl⟩ := Reachable.recorded (hreach.mono fun _ _ _ => trivial)
  obtain ⟨-, -, hconcludes, hends⟩ := (waits_end_once hT (by simp)).1 hwaits
  have hdue : T.deadline (.slot 0) = T.clock + 1 := by rw [hT.dated.date _ hqueued, hdist]
  have hret := Outcome.eq_ret hret
  exact ⟨T, hwaits, ⟨k', hconcludes _ k' hstep, hresult⟩, _, _, hret,
    (wp_ret (hends true 1 hvalid howns hto hdue.le) hret :)⟩

/-- A task waits for a semaphore for at most twelve ticks. The kernel halts in the advance that
reaches the deadline, at the wait of another task for a mutex of the idle task, and the semaphore
wait gets no result. -/
theorem timeout_never_written : ∃ (T : Timeline) (k' : Kernel), Recorded crowdConfig T ∧
    (T.kernel.mutexes 0).owner = some .idle ∧ (T.kernel.tasks (.slot 2)).AwaitsObject ∧
    (T.kernel.tasks (.slot 2)).wait.timeoutActive = true ∧
    T.deadline (.slot 2) ≤ T.clock + (11 : Tick).toNat ∧
    runEvent crowdConfig (.tick true 11) T.kernel = .halt (.assertion (.recomputeChain .idle)) k' ∧
    (k'.tasks (.slot 2)).wait.result = .none := by
  have hrun : (execute crowdConfig (fun _ _ => True) (idleOwnerEvents (.take false (some 0) 12))
      resetKernel).any (fun k => decide ((k.mutexes 0).owner = some .idle ∧
        (k.tasks (.slot 2)).AwaitsObject ∧ (k.tasks (.slot 2)).wait.timeoutActive = true ∧
        .slot 2 ∈ k.delayQueue ∧ distance k.currentTick (k.wake (.slot 2)) = 11 ∧
        (runEvent crowdConfig (.tick true 11) k).reason? =
        some (.assertion (.recomputeChain .idle)) ∧
          ((runEvent crowdConfig (.tick true 11) k).state.tasks (.slot 2)).wait.result = .none)) =
          true := by
    decide +kernel
  obtain ⟨k, hreach, howner, hwaits, hto, hqueued, hdist, hhalt, hnone⟩ := exists_reachable hrun
  obtain ⟨T, hT, rfl⟩ := Reachable.recorded hreach
  have hdue : T.deadline (.slot 2) = T.clock + 11 := by rw [hT.dated.date _ hqueued, hdist]
  exact ⟨T, _, hT, howner, hwaits, hto, hdue.le, Outcome.eq_halt hhalt, hnone⟩

end RtsKernel
