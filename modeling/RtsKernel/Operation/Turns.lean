import RtsKernel.Operation.Ledger
import RtsKernel.Operation.Preservation

/-!
# The turn of a task

The tick uses up the time slice of the current task and, when nothing is left of it, moves the task
behind its equals. An advance of any length does this at most once, however many waits and timers
expire in it.

## Main results

* `ReachableWhen.sliced`: every task in use has a part of its time slice left.
* `kernelAdvance_turnsOnce`: an advance rotates at most one queue, once.
* `wp_advance_quiet`: an advance that wakes nobody is the tick of the policy and its selection.
-/

namespace RtsKernel

open Halting Prog

variable {cfg : Config} {k k' k₁ k₂ : Kernel} {ev : Event} {c t : TaskId} {elapsed : Tick}

/-! ## Time slices -/

/-- The part of a time slice that is left. -/
def InSlice (cfg : Config) (slice : Tick) : Prop :=
  (cfg.enableTimeSlicing = true → slice ≠ 0) ∧ slice ≤ cfg.timeSliceTicks

theorem inSlice_full (cfg : Config) : InSlice cfg cfg.timeSliceTicks :=
  ⟨cfg.slice_pos, BitVec.le_refl _⟩

theorem InSlice.sub {slice : Tick} (h : InSlice cfg slice) (he : elapsed < slice) :
    InSlice cfg (slice - elapsed) := by
  obtain ⟨-, hle⟩ := h
  refine ⟨fun _ => ?_, ?_⟩ <;> bv_omega

/-- Every task in use has a part of its time slice left. -/
def Core.Sliced (cfg : Config) (C : Core) : Prop :=
  ∀ t, C.slot t = .allocated → InSlice cfg (C.slice t)

theorem Core.Sliced.setSlice {C : Core} {slice : Tick} (h : C.Sliced cfg)
    (hs : C.slot t = .allocated → InSlice cfg slice) : (C.setSlice t slice).Sliced cfg := by
  intro u hu
  rcases eq_or_ne u t with rfl | hne
  · simpa [Core.setSlice] using hs hu
  · simpa [Core.setSlice, hne] using h u hu

instance : Absorbs cfg (OnCore (Core.Sliced cfg)) where
  refill _ _ h := h.setSlice fun _ => inSlice_full cfg
  enqueue _ _ _ := id
  dequeue _ _ _ := id

instance : AbsorbsAccounts (OnCore (Core.Sliced cfg)) := ⟨fun _ _ => id⟩

theorem turns_sliced : Turns (OnCore (Core.Sliced cfg)) (OnCore (Core.Sliced cfg)) where
  same _ := id
  consume _ t _ he h := h.setSlice fun ht => (h t ht).sub he
  rotate _ _ _ _ _ := id
  turn _ _ _ := id

/-- The events that create no task keep the time slices in range. -/
theorem runEvent_sliced (hev : ¬ ev.Populates) (h : runEvent cfg ev k = .ret () k')
    (hk : k.core.Sliced cfg) : k'.core.Sliced cfg := by
  have hmoved : OnCore (Core.Sliced cfg) (k.outline.advance (ev.elapsed cfg k)) := hk
  exact runEvent_outline (P := OnCore (Core.Sliced cfg)) hev h hk hmoved turns_sliced turns_sliced

theorem Pool.sliced (hp : Pool cfg k) (h : Sound cfg k) : k.core.Sliced cfg := by
  intro t ht
  have hd : (k.tasks t).state ≠ .dormant := fun hd => (h.ok.inv.tasks t).dormant hd ht
  have hfull : k.core.slice t = cfg.timeSliceTicks := hp.slice t hd
  exact hfull ▸ inSlice_full cfg

theorem Step.sliced (hs : Step cfg k ev k') (h : Sound cfg k) (hk : k.core.Sliced cfg) :
    k'.core.Sliced cfg := by
  by_cases hev : ev.Populates
  · have hnew (hl' : k'.lifecycle ≠ .running) : k'.core.Sliced cfg :=
      ((h.step hs).pool hl').sliced (h.step hs)
    by_cases hl : k.lifecycle = .running
    · have hstart : ev.Startup := by
        cases ev with
        | init | taskCreate => exact trivial
        | _ => exact hev.elim
      exact runEvent_startup_running hstart hl hs.2 ▸ hk
    · cases ev with
      | init isr port =>
        obtain ⟨_, hret⟩ := exists_ret_of_discard hs.2
        exact hnew (leads_unstarted_init.ret hret hl)
      | taskCreate isr config outHandle stack =>
        obtain ⟨_, hret⟩ := exists_ret_of_discard hs.2
        exact hnew (leads_unstarted_taskCreate.ret hret hl)
      | _ => exact hev.elim
  · exact runEvent_sliced hev hs.2 hk

theorem ReachableWhen.sliced {allowed : Kernel → Event → Prop} (h : ReachableWhen cfg allowed k) :
    k.core.Sliced cfg := by
  refine h.invariant (P := fun k => k.core.Sliced cfg) ?_ fun _ _ _ hk hs _ _ => hs.sliced hk
  exact fun t ht => absurd ht (by simp [Kernel.core, resetKernel])

/-! ## At most one rotation -/

/-- At most one queue has been rotated, once. -/
def Rotates (queues queues' : Nat → List TaskId) : Prop :=
  queues' = queues ∨ ∃ p, queues' = Function.update queues p ((queues p).rotate 1)

/-- Tasks have left the queues and joined them, and then at most one queue has been rotated, once. A
queue is left by the tasks whose priority has fallen, and joined by such tasks and by tasks that
were blocked. -/
def TurnsOnce (k k' : Kernel) : Prop :=
  ∃ before : Nat → List TaskId,
    (∀ p, ∃ joined, before p = (k.readySet p).filter (fun t => k'.prio t = p) ++ joined ∧
      ∀ t ∈ joined, (k.tasks t).state = .blocked ∨ p < k.prio t) ∧
    Rotates before k'.readySet

namespace Elapsed

variable {woken : List TaskId} {b : Bool}

theorem turns (h : Elapsed cfg k elapsed k₁ woken k₂ b) : KeepsTurns k k₂ := by
  have hexpired : KeepsTurns k k₁ := h.expired.turns
  have hservice := h.rounds.service
  refine hexpired.trans hservice.turns fun t => ?_
  rw [hservice.sameOrder.prio]
  exact id

theorem prio_le (h : Elapsed cfg k elapsed k₁ woken k₂ b) (t : TaskId) : k₂.prio t ≤ k.prio t := by
  rw [h.rounds.service.sameOrder.prio]
  exact h.expired.prio_le t

/-- Only tasks that were blocked become runnable. -/
theorem blocked_of_runnable (h : Elapsed cfg k elapsed k₁ woken k₂ b) (hk : KernelOk cfg k)
    (hrun : (k₂.tasks t).Runnable) (hnot : ¬ (k.tasks t).Runnable) :
    (k.tasks t).state = .blocked := by
  by_cases hwoken : t ∈ woken
  · have hqueue : k.delayQueue = woken ++ k₁.delayQueue := h.expired.delayQueue
    exact (hk.inv.blocked_of_mem_delayQueue (by simp [hqueue, hwoken])).1
  · have hstate : (k₁.tasks t).state = (k.tasks t).state := (h.expired.kept t hwoken).2
    obtain hsame | ⟨-, -, hb, -⟩ := h.rounds.service.tasks t
    · rw [hsame, Tcb.Runnable, hstate] at hrun
      exact absurd hrun hnot
    · exact hstate ▸ hb

/-- Who leaves a queue before the turn of the current task, and who joins it. -/
theorem joins (h : Elapsed cfg k elapsed k₁ woken k₂ b) (hk : KernelOk cfg k) (p : Nat) :
    ∃ joined, k₂.readySet p = (k.readySet p).filter (fun t => k₂.prio t = p) ++ joined ∧
      ∀ t ∈ joined, (k.tasks t).state = .blocked ∨ p < k.prio t := by
  obtain ⟨joined, hqueue, hnew⟩ := h.turns p
  refine ⟨joined, ?_, fun t ht => ?_⟩
  · rw [hqueue]
    congr 1
    refine List.filter_congr fun t ht => ?_
    rw [((hk.inv.ready.mem p t).mp ht).2.2]
  · obtain ⟨hpol, hrun, hprio⟩ := (h.inv.ready.mem p t).mp (by simp [hqueue, ht])
    by_cases hold : (k.tasks t).Runnable
    · have hle := h.prio_le t
      have hne : k.prio t ≠ p := by
        intro heq
        obtain hout | hchanged := hnew t ht
        · exact hout ((hk.inv.ready.mem p t).mpr ⟨hpol, hold, heq⟩)
        · exact hchanged (hprio.trans heq.symm)
      exact .inr (by omega)
    · exact .inl (h.blocked_of_runnable hk hrun hold)

end Elapsed

theorem wp_policyFpYield_rotates :
    wp (policyFpYield cfg t) (fun _ k' => Rotates k.readySet k'.readySet) (fun _ _ => True) k := by
  simp only [policyFpYield, readyContains, readyHasPeer, readyRotate, wp_bind, wp_get, wp_rtsAssert,
    wp_pure, wp_ite]
  refine ⟨fun _ => ?_, fun _ => trivial⟩
  split
  · exact .inl rfl
  refine ⟨fun _ => ?_, fun _ => trivial⟩
  split
  · exact .inl rfl
  · split
    · rename_i a b l hl
      rw [wp_ite]
      split
      · refine .inr ⟨(k.tasks t).priority, ?_⟩
        simp [hl]
      · rw [wp_rtsAssert]
        exact ⟨fun _ => .inl rfl, fun _ => trivial⟩
    · rw [wp_rtsAssert]
      exact ⟨fun _ => .inl rfl, fun _ => trivial⟩

/-- The tick of the policy rotates at most one queue. -/
theorem wp_policyTick_rotates :
    wp (policyTick cfg elapsed) (fun _ k' => Rotates k.readySet k'.readySet)
      (fun _ _ => True) k := by
  have hedf {k₁ : Kernel} {c : TaskId} (hk₁ : Rotates k.readySet k₁.readySet) :
      wp (policyEdfYield c)
      (fun _ k' => Rotates k.readySet k'.readySet) (fun _ _ => True) k₁ :=
    (leads_policyEdfYield (P := OnCore fun C => Rotates k.readySet C.ready) (fun _ => id)
      fun _ _ _ => id).wp hk₁
  unfold policyTick policyFpTick policyEdfTick
  split
  all_goals
    simp only [wp_bind, wp_get]
    split
    · exact .inl rfl
    · simp only [wp_ite, wp_bind, wp_modify, readyIsFront, wp_get, wp_rtsAssert, wp_pure]
      split
      · exact .inl rfl
      · try refine ⟨fun _ => ?_, fun _ => trivial⟩
        split
        · exact .inl rfl
        · first
          | exact hedf (.inl rfl)
          | split
            · exact .inl rfl
            · exact wp_policyFpYield_rotates

theorem wp_advance_turnsOnce (h : KernelOk cfg k) (ht : TimersOk cfg k)
    (hl : k.lifecycle = .running) (he : elapsed ≤ delayMax) :
    wp (kernelTimeAdvanceCommon cfg elapsed) (fun _ => TurnsOnce k) (fun _ _ => True) k := by
  obtain ⟨c, hc, -⟩ := h.inv.phase.current hl
  refine wp_elapsed h ht hl he (fun k₁ woken k₂ b hel => ?_) (fun _ _ => trivial)
    fun _ _ _ _ _ _ => trivial
  have hcur : k₂.currentTask = some c := (hel.beforePlan h he).currentTask.trans hc
  have hturned {k₃ : Kernel} (hrot : Rotates k₂.readySet k₃.readySet) (hprio : k₃.prio = k₂.prio) :
      TurnsOnce k k₃ := by
    refine ⟨k₂.readySet, ?_, hrot⟩
    rw [hprio]
    exact hel.joins h
  have hplan {k₃ : Kernel} {unchanged : Prop} [Decidable unchanged]
      (hinv₃ : Inv cfg (k.currentTick + elapsed) noneStale k₃) (hcur₃ : k₃.currentTask = some c)
      (hk₃ : TurnsOnce k k₃) :
      wp (if unchanged then pure false else planAfterTick cfg) (fun _ => TurnsOnce k)
        (fun _ _ => True) k₃ := by
    rw [wp_ite]
    split
    · exact hk₃
    · refine wp_planAfterTick hinv₃ not_false hcur₃ (fun b' k' hp => ?_) (fun _ _ => trivial)
        fun _ => ⟨trivial, trivial⟩
      rw [hp.replanned]
      exact hk₃
  rw [wp_ite]
  split
  · exact hplan hel.inv hcur (hturned (.inl rfl) rfl)
  · have hrequeued : wp (policyTick cfg elapsed) (fun _ k₃ => Requeued cfg k₂ k₃ c)
        (fun _ _ => True) k₂ := wp_policyTick_requeued hel.inv hcur fun k₃ rotated hreq _ => hreq
    refine wp_mono (wp_and hrequeued wp_policyTick_rotates) (fun rotated k₃ hk₃ => ?_)
      fun _ _ _ => trivial
    obtain ⟨hreq, hrot⟩ := hk₃
    exact hplan (hreq.inv hel.inv) (by rw [hreq.frame]; exact hcur) (hturned hrot hreq.prio_eq)

/-- No rotation happens in an advance that is refused, and at most one in any other. -/
theorem kernelAdvance_turnsOnce {contextOk b : Bool} (h : Sound cfg k)
    (hret : kernelAdvance cfg contextOk elapsed k = .ret b k') : TurnsOnce k k' := by
  have hunchanged : TurnsOnce k k := by
    refine ⟨k.readySet, fun p => ⟨[], ?_, by simp⟩, .inl rfl⟩
    rw [List.append_nil, List.filter_eq_self.mpr]
    intro t ht
    exact decide_eq_true ((h.ok.inv.ready.mem p t).mp ht).2.2
  suffices hspec : wp (kernelAdvance cfg contextOk elapsed) (fun _ => TurnsOnce k)
      (fun _ _ => True) k from (wp_ret hspec hret :)
  unfold kernelAdvance
  rw [wp_bind, wp_get, wp_bind, wp_rtsAssert]
  refine ⟨fun _ => ?_, fun _ => trivial⟩
  rw [wp_ite]
  split <;> rename_i hvalid
  · exact wp_advance_turnsOnce h.ok h.timersOk hvalid.1 hvalid.2.2.2
  · exact hunchanged

/-! ## An advance that wakes nobody -/

/-- A task has been woken. -/
def Woke (k k' : Kernel) : Prop := ∃ t, (k.tasks t).state = .blocked ∧ (k'.tasks t).state ≠ .blocked

/-- The waits and timers that have expired have woken somebody, or they have left all tasks
alone. -/
theorem Elapsed.woke_or_same {woken : List TaskId} {b : Bool}
    (h : Elapsed cfg k elapsed k₁ woken k₂ b) (hk : KernelOk cfg k) :
    Woke k k₂ ∨ woken = [] ∧ b = false ∧ SameTasks k k₂ := by
  cases woken with
  | cons t rest =>
    have hin : t ∈ k.delayQueue := by
      have hqueue : k.delayQueue = t :: rest ++ k₁.delayQueue := h.expired.delayQueue
      simp [hqueue]
    obtain ⟨hb, happ⟩ := hk.inv.blocked_of_mem_delayQueue hin
    have hrun : (k₁.tasks t).Runnable := (h.expired.ended t (by simp)).1
    refine .inl ⟨t, hb, fun hb₂ => hrun.not_blocked ?_⟩
    exact h.rounds.service.blocked hb₂
  | nil =>
    have hsame := h.quiet rfl
    have htasks : k₁.tasks = k.tasks := by rw [hsame]
    generalize hbool : b = b' at *
    cases h.rounds.service with
    | quiet same => exact .inr ⟨rfl, rfl, hsame.trans same.same⟩
    | woken k₃ k₄ before blocked wakes after =>
      have htasks₂ : k₂.tasks = k₄.tasks := by rw [after.same]
      refine .inl ⟨.timerService, htasks ▸ blocked, ?_⟩
      simp [htasks₂, wakes.ready]

theorem Woke.congr (h : Woke k k₁) (hs : ∀ t, (k₂.tasks t).state = (k₁.tasks t).state) :
    Woke k k₂ := by
  obtain ⟨t, hb, hn⟩ := h
  exact ⟨t, hb, by rwa [hs]⟩

/-- An advance that wakes nobody is the tick of the policy and, if that has changed the ready set, a
selection. -/
theorem wp_advance_quiet {Q : Bool → Kernel → Prop} (h : KernelOk cfg k) (ht : TimersOk cfg k)
    (hl : k.lifecycle = .running) (he : elapsed ≤ delayMax)
    (hwoke : ∀ b k', Woke k k' → Q b k')
    (hquiet : ∀ k₁, SameTasks k k₁ → Inv cfg (k.currentTick + elapsed) noneStale k₁ →
      wp (policyTick cfg elapsed)
        (fun rotated => wp (if rotated = false then pure false else planAfterTick cfg) Q
          (fun _ _ => True)) (fun _ _ => True) k₁) :
    wp (kernelTimeAdvanceCommon cfg elapsed) Q (fun _ _ => True) k := by
  obtain ⟨c, hc, -⟩ := h.inv.phase.current hl
  refine wp_elapsed h ht hl he (fun k₁ woken k₂ b hel => ?_) (fun _ _ => trivial)
    fun _ _ _ _ _ _ => trivial
  have hcur : k₂.currentTask = some c := (hel.beforePlan h he).currentTask.trans hc
  rcases hel.woke_or_same h with hw | ⟨rfl, rfl, hsame⟩
  · have hplan {k₃ : Kernel} {unchanged : Prop} [Decidable unchanged] (hw₃ : Woke k k₃)
        (hinv₃ : Inv cfg (k.currentTick + elapsed) noneStale k₃)
        (hcur₃ : k₃.currentTask = some c) :
        wp (if unchanged then pure false else planAfterTick cfg) Q (fun _ _ => True) k₃ := by
      rw [wp_ite]
      split
      · exact hwoke _ _ hw₃
      · refine wp_planAfterTick hinv₃ not_false hcur₃ (fun b' k' hp => hwoke b' k' ?_)
          (fun _ _ => trivial) fun _ => ⟨trivial, trivial⟩
        exact hw₃.congr fun t => by rw [hp.replanned]
    rw [wp_ite]
    split
    · exact hplan hw hel.inv hcur
    · refine wp_policyTick_requeued hel.inv hcur fun k₃ rotated hreq _ => ?_
      exact hplan (hw.congr hreq.state) (hreq.inv hel.inv) (by rw [hreq.frame]; exact hcur)
  · have hnot : ¬ ∃ c ∈ k₁.currentTask, c ∈ ([] : List TaskId) := by simp
    rw [wp_ite, if_neg hnot]
    refine wp_mono (hquiet k₂ hsame hel.inv) (fun rotated k₃ hk₃ => ?_) fun _ _ => id
    simpa using hk₃

/-- The tick of a task at the front of its queue: its time slice is used, or it is used up and
refilled, and then the task goes behind its equals. -/
theorem wp_policyFpTick_front {Q : Bool → Kernel → Prop} {E : Fatal → Kernel → Prop}
    (hen : cfg.enableTimeSlicing = true) (hc : k.currentTask = some c)
    (hrun : (k.tasks c).state = .running) (hidle : k.idleTask ≠ some c)
    (hact : k.switchPlan.active = false) (hrange : (k.tasks c).priority < cfg.priorityCount)
    {l : List TaskId} (hqueue : k.readySet (k.tasks c).priority = c :: l)
    (hslice : (k.tasks c).sliceRemaining ≠ 0)
    (hused : elapsed < (k.tasks c).sliceRemaining → Q false (k.updateTask c fun task =>
      { task with sliceRemaining := task.sliceRemaining - elapsed }))
    (hlast : ¬ elapsed < (k.tasks c).sliceRemaining → l = [] → Q false (k.updateTask c fun task =>
      { task with sliceRemaining := cfg.timeSliceTicks }))
    (hturn : ¬ elapsed < (k.tasks c).sliceRemaining → l ≠ [] → Q true
      ((k.updateTask c fun task => { task with sliceRemaining := cfg.timeSliceTicks }).setReadyQueue
        (k.tasks c).priority (l ++ [c]))) :
    wp (policyFpTick cfg elapsed) Q E k := by
  have hin : ReadyContains cfg k c := ⟨hrange, by simp [hqueue]⟩
  have hfront : ReadyIsFront cfg k c := ⟨hin, by simp [hqueue]⟩
  simp only [policyFpTick, wp_bind, wp_get, hc]
  rw [wp_ite, if_neg (by simp [hen, hrun, hidle, hact]), wp_bind, wp_readyIsFront hin, wp_ite,
    if_neg (by simpa [hfront] using hslice), wp_ite]
  split <;> rename_i hlt
  · exact hused hlt
  · rw [wp_bind, wp_modify]
    set k₁ := k.updateTask c _ with hk₁
    have hprio : (k₁.tasks c).priority = (k.tasks c).priority := by simp [hk₁]
    have hqueue₁ : k₁.readySet (k₁.tasks c).priority = c :: l := by rw [hprio]; exact hqueue
    have hin₁ : ReadyContains cfg k₁ c := ⟨hprio ▸ hrange, by simp [hqueue₁]⟩
    rw [policyFpYield, wp_bind, wp_readyContains hin₁.1, wp_ite, if_neg (by simp [hin₁]), wp_bind,
      wp_readyHasPeer hin₁, wp_ite]
    cases l with
    | nil =>
      rw [if_pos (by simp [ReadyHasPeer, hqueue₁]), wp_pure]
      exact hlast hlt rfl
    | cons d l =>
      have hpeer : ReadyHasPeer cfg k₁ c := ⟨hin₁, by simp [hqueue₁]⟩
      rw [if_neg (by simp [hpeer])]
      simp only [readyRotate, wp_bind, wp_get, hqueue₁]
      rw [wp_ite, if_pos (hprio ▸ hrange), wp_modify, wp_pure, hprio]
      exact hturn hlt (List.cons_ne_nil d l)

/-! ## The handler of the switch -/

theorem Step.acquire_cases (hs : Step cfg k .acquire k') (h : Sound cfg k) :
    k' = k ∨ ∃ d, Acquired cfg k k' d := by
  obtain ⟨snapshot, hret⟩ := exists_ret_of_discard hs.2
  have hspec : wp (schedulerSwitchAcquire cfg) (fun _ k' => k' = k ∨ ∃ d, Acquired cfg k k' d)
      (fun _ _ => True) k :=
    wp_switchAcquire h.ok.inv not_false hs.1 (fun _ => .inl rfl) (fun _ _ d ha _ => .inr ⟨d, ha⟩)
      (fun _ => trivial) fun _ => trivial
  exact (wp_ret hspec hret :)

/-- A switch that completes gives the incoming task a new time slice. -/
theorem Step.complete_cases {snapshot : SwitchSnapshot} {intact : Bool}
    (hs : Step cfg k (.complete snapshot intact) k') (h : Sound cfg k) :
    k' = k ∨ Switched cfg k k' snapshot.fromTask snapshot.toTask ∧
      k'.core.slice = Function.update k.core.slice snapshot.toTask cfg.timeSliceTicks := by
  have hspec : wp (schedulerSwitchComplete cfg snapshot intact)
      (fun _ k' => k' = k ∨ Switched cfg k k' snapshot.fromTask snapshot.toTask)
      (fun _ _ => True) k :=
    wp_switchComplete h.ok.inv not_false (fun _ => .inl rfl) (fun _ _ hsw => .inr hsw)
      (fun _ => trivial) (fun _ => trivial) fun _ => trivial
  refine (wp_ret hspec hs.2 :).imp_right fun hsw => ⟨hsw, ?_⟩
  have hcore := schedulerSwitchComplete_core hs.2
  split at hcore
  · exact congrArg Core.slice hcore
  · have hcur : k'.currentTask = k.currentTask := congrArg (·.ledger.current) hcore
    rw [hsw.currentTask, hsw.source] at hcur
    exact absurd (Option.some.inj hcur).symm hsw.ne

theorem Step.reselect_cases (hs : Step cfg k .reselect k') (h : Sound cfg k) :
    k.switchPlan.reselectionRequired = false ∧ k' = k ∨
      ∃ k₁ b, Planned cfg k k₁ b ∧ k' = k₁.notify b := by
  have hspec : wp (runEvent cfg .reselect) (fun _ k' => k.switchPlan.reselectionRequired = false ∧
      k' = k ∨ ∃ k₁ b, Planned cfg k k₁ b ∧ k' = k₁.notify b) (fun _ _ => True) k := by
    unfold runEvent
    rw [wp_bind]
    refine wp_reselectAfterSwitch h.ok.inv not_false hs.1.1 (fun hnone => ?_) (fun b k₁ hp => ?_)
      (fun _ _ => trivial) (fun _ => trivial) fun _ => trivial
    · exact wp_notifyPort (.inl ⟨hnone, rfl⟩)
    · exact wp_notifyPort (.inr ⟨k₁, b, hp, rfl⟩)
  exact (wp_ret hspec hs.2 :)

end RtsKernel
