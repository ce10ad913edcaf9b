import RtsKernel.Model.Run
import RtsKernel.Operation.Turns

/-!
# Round robin among equals

A run of ticks, one at a time, with the switch that each may cause. While nobody wakes, the queue of
the highest ready priority only rotates: after `n` ticks by `n / Q`, `Q` being the length of a time
slice, and its head is the task that runs.

## Main results

* `Rota.step`: what one event of the handlers does to the rota.
* `Rota.tick_iff`: when a tick returns.
* `round_robin_exact`: which task runs after `n` ticks, and what an advance of any length can do.
* `idle_turn_halts`: an idle task that has inherited a priority does not get its turn.
-/

namespace RtsKernel

open Halting Prog

variable {cfg : Config} {k k' k₁ : Kernel} {ev : Event} {c d : TaskId} {p n : Nat}
    {ts : List TaskId}

/-! ## Runs of the handlers -/

/-- A step that wakes nobody. -/
def QuietStep (cfg : Config) (k : Kernel) (ev : Event) (k' : Kernel) : Prop :=
  Step cfg k ev k' ∧ ¬ Woke k k'

/-- The events of the tick and switch handlers: one tick at a time, and none before the last switch
is complete. -/
def HandlerEvent (k : Kernel) : Event → Prop
  | .tick isr elapsed =>
    isr = true ∧ elapsed = 1 ∧ k.switchPlan.pending = false ∧ k.switchPlan.active = false
  | .acquire | .complete _ _ | .reselect => True
  | _ => False

/-- Runs of the handlers, with the ticks that have elapsed. -/
abbrev HandlerRun (cfg : Config) (k₀ : Kernel) : Kernel → Nat → Prop :=
  Transition.Observed (QuietStep cfg) HandlerEvent
    (fun n k ev _ => n + (ev.elapsed cfg k).toNat) k₀ 0

/-- The tasks of the highest ready priority, the first of which has just been switched in. -/
structure Kernel.Leads (cfg : Config) (k : Kernel) (p : Nat) (ts : List TaskId) : Prop where
  running : k.lifecycle = .running
  range : p < cfg.priorityCount
  queue : k.readySet p = ts
  top : ∀ q, p < q → q < cfg.priorityCount → k.readySet q = []
  current : ∃ c, ts.head? = some c ∧ k.currentTask = some c ∧ (k.tasks c).state = .running ∧
    (k.tasks c).sliceRemaining = cfg.timeSliceTicks
  settled : k.switchPlan.pending = false ∧ k.switchPlan.active = false

/-! ## The rota -/

/-- The number of turns that `n` ticks make. -/
abbrev turns (cfg : Config) (n : Nat) : Nat := n / cfg.timeSliceTicks.toNat

theorem turns_succ_of_lt (h : n % cfg.timeSliceTicks.toNat + 1 < cfg.timeSliceTicks.toNat) :
    turns cfg (n + 1) = turns cfg n ∧
      (n + 1) % cfg.timeSliceTicks.toNat = n % cfg.timeSliceTicks.toNat + 1 := by
  refine (Nat.div_mod_unique (by omega)).mpr ⟨?_, h⟩
  have hn := Nat.mod_add_div n cfg.timeSliceTicks.toNat
  rw [Nat.add_right_comm, hn]

theorem turns_succ_of_eq (h : n % cfg.timeSliceTicks.toNat + 1 = cfg.timeSliceTicks.toNat) :
    turns cfg (n + 1) = turns cfg n + 1 ∧ (n + 1) % cfg.timeSliceTicks.toNat = 0 := by
  refine (Nat.div_mod_unique (by omega)).mpr ⟨?_, by omega⟩
  have hn := Nat.mod_add_div n cfg.timeSliceTicks.toNat
  rw [Nat.mul_add]
  linarith

theorem head?_rotate_mod (ts : List TaskId) (m : Nat) :
    (ts.rotate m).head? = ts[m % ts.length]? := by
  cases ts with
  | nil => simp
  | cons t l =>
    rw [← List.rotate_mod]
    exact List.head?_rotate (Nat.mod_lt _ (Nat.succ_pos l.length))

/-- The head of the queue runs, or the switch to it is under way. -/
inductive RotaPhase (cfg : Config) (k : Kernel) (ts : List TaskId) (n : Nat) : Prop where
  | settled (c : TaskId) (current : k.currentTask = some c) (state : (k.tasks c).state = .running)
      (head : (ts.rotate (turns cfg n)).head? = some c)
      (slice : c = .idle ∨ (k.tasks c).sliceRemaining.toNat + n % cfg.timeSliceTicks.toNat =
        cfg.timeSliceTicks.toNat)
      (plan : k.switchPlan.pending = false ∧ k.switchPlan.active = false)
  | turning (c d : TaskId) (current : k.currentTask = some c)
      (state : (k.tasks c).state = .running) (mem : c ∈ ts)
      (head : (ts.rotate (turns cfg n)).head? = some d) (whole : n % cfg.timeSliceTicks.toNat = 0)
      (target : k.switchPlan.toTask = some d) (ne : d ≠ c)
      (plan : k.switchPlan.pending = true ∨ k.switchPlan.active = true)

theorem RotaPhase.notify (h : RotaPhase cfg k ts n) (b : Bool) :
    RotaPhase cfg (k.notify b) ts n := by
  cases h with
  | settled c hc hst hhead hslice hplan => exact .settled c hc hst hhead hslice hplan
  | turning c d hc hst hmem hhead hwhole hto hne hplan =>
    exact .turning c d hc hst hmem hhead hwhole hto hne hplan

/-- The queue of the highest ready priority after `n` ticks. Its head may be the idle task only at
the priority of the idle task, since the selection accepts it at no other. -/
structure Rota (cfg : Config) (k : Kernel) (p : Nat) (ts : List TaskId) (n : Nat) : Prop where
  running : k.lifecycle = .running
  range : p < cfg.priorityCount
  queue : k.readySet p = ts.rotate (turns cfg n)
  top : ∀ q, p < q → q < cfg.priorityCount → k.readySet q = []
  legal : (ts.rotate (turns cfg n)).head? = some .idle → p = 0
  phase : RotaPhase cfg k ts n

theorem Kernel.Leads.rota (h : k.Leads cfg p ts) (hinv : Inv cfg base noneStale k) :
    Rota cfg k p ts 0 := by
  obtain ⟨c, hhead, hc, hst, hslice⟩ := h.current
  have hturns : turns cfg 0 = 0 := Nat.zero_div _
  refine ⟨h.running, h.range, ?_, h.top, ?_, .settled c hc hst ?_ (.inr ?_) h.settled⟩
  · rw [hturns, List.rotate_zero, h.queue]
  · rw [hturns, List.rotate_zero]
    intro hidle
    obtain rfl : c = .idle := Option.some.inj (hhead.symm.trans hidle)
    have hin : .idle ∈ k.readySet p := h.queue ▸ List.mem_of_mem_head? hidle
    exact ((hinv.ready.mem p .idle).mp hin).2.2.symm.trans (hinv.idle_prio not_false hc)
  · rw [hturns, List.rotate_zero, hhead]
  · rw [hslice, Nat.zero_mod, add_zero]

namespace Rota

theorem pick (h : Rota cfg k p ts n) (hpol : cfg.policy = .fixedPriority)
    (hd : (ts.rotate (turns cfg n)).head? = some d) : policyPickNext cfg k = some d := by
  simp only [policyPickNext, hpol, readyPeekHighest]
  exact highestBelow_eq_some.mpr ⟨p, h.range, by rw [h.queue, hd], h.top⟩

/-- Plans do not matter to the queues. -/
theorem replanned (h : Rota cfg k p ts n) (hr : Replanned k k') (hphase : RotaPhase cfg k' ts n) :
    Rota cfg k' p ts n := by
  refine ⟨?_, h.range, ?_, ?_, h.legal, hphase⟩ <;> rw [hr]
  · exact h.running
  · exact h.queue
  · exact h.top

theorem acquire (h : Rota cfg k p ts n) (hs : Step cfg k .acquire k') (hk : Sound cfg k) :
    Rota cfg k' p ts n := by
  obtain rfl | ⟨e, ha⟩ := hs.acquire_cases hk
  · exact h
  · refine h.replanned ha.replanned ?_
    cases h.phase with
    | settled _ _ _ _ _ hplan => simp [ha.pending] at hplan
    | turning c d hc hst hmem hhead hwhole hto hne _ =>
      refine .turning c d ?_ ?_ hmem hhead hwhole ?_ hne ?_
      · rw [ha.replanned]; exact hc
      · rw [ha.replanned]; exact hst
      · rw [ha.plan]; exact hto
      · simp [ha.plan]

theorem complete {snapshot : SwitchSnapshot} {intact : Bool} (h : Rota cfg k p ts n)
    (hs : Step cfg k (.complete snapshot intact) k') (hk : Sound cfg k) : Rota cfg k' p ts n := by
  obtain rfl | ⟨hsw, hslice⟩ := hs.complete_cases hk
  · exact h
  · have hl : k'.lifecycle = .running := (Kernel.of_rest Kernel.lifecycle hsw.rest).trans h.running
    refine ⟨hl, h.range, hsw.readySet ▸ h.queue, hsw.readySet ▸ h.top, h.legal, ?_⟩
    cases h.phase with
    | settled _ _ _ _ _ hplan => simp [hsw.active] at hplan
    | turning c d hc hst hmem hhead hwhole hto hne _ =>
      obtain rfl : snapshot.toTask = d := Option.some.inj (hsw.target.symm.trans hto)
      have hrun : (k'.tasks snapshot.toTask).state = .running := by simp [hsw.state_eq]
      have hfull : (k'.tasks snapshot.toTask).sliceRemaining = cfg.timeSliceTicks := by
        have := congrFun hslice snapshot.toTask
        rwa [Function.update_self] at this
      refine .settled _ hsw.currentTask hrun hhead (.inr ?_) ?_
      · rw [hfull, hwhole, add_zero]
      · simp [hsw.switchPlan, switchPlanClear]

theorem reselect (h : Rota cfg k p ts n) (hpol : cfg.policy = .fixedPriority)
    (hs : Step cfg k .reselect k') (hk : Sound cfg k) : Rota cfg k' p ts n := by
  obtain ⟨-, rfl⟩ | ⟨k₁, b, hp, rfl⟩ := hs.reselect_cases hk
  · exact h
  · refine h.replanned (hp.replanned.trans (.notify k₁ b)) ?_
    refine RotaPhase.notify ?_ b
    cases hp with
    | rejected ready => exact h.phase
    | prepared c' d' hc' _ hpick _ hprep =>
      have htasks : k₁.tasks = k.tasks := by rw [hprep.replanned]
      have hcur : k₁.currentTask = k.currentTask := by rw [hprep.replanned]
      cases h.phase with
      | settled c hc hst hhead hslice hplan =>
        obtain rfl : c' = c := Option.some.inj (hc'.symm.trans hc)
        obtain rfl : d' = c' := Option.some.inj (hpick.symm.trans (h.pick hpol hhead))
        refine .settled d' (hcur.trans hc) (htasks ▸ hst) hhead (htasks ▸ hslice) ⟨?_, ?_⟩
        · exact hprep.cancelled hplan.2 rfl
        · exact hprep.active.trans hplan.2
      | turning c d hc hst hmem hhead hwhole hto hne hplan =>
        obtain rfl : c' = c := Option.some.inj (hc'.symm.trans hc)
        obtain rfl : d' = d := Option.some.inj (hpick.symm.trans (h.pick hpol hhead))
        refine .turning c' d' (hcur.trans hc) (htasks ▸ hst) hmem hhead hwhole ?_ hne ?_ <;>
          cases ha : k.switchPlan.active
        · exact (hprep.planned ha hne).2.2
        · simp [hprep.deferred ha, hto]
        · exact .inl (hprep.planned ha hne).1
        · exact .inr (hprep.active.trans ha)

/-- A queue of one task stays as it is. -/
theorem alone (h : Rota cfg k p ts n) (hq : k.readySet p = [c]) (m : Nat) :
    k.readySet p = ts.rotate (turns cfg m) ∧ (ts.rotate (turns cfg m)).head? = some c := by
  have hlen : ts.length = 1 := by simpa [hq] using congrArg List.length h.queue.symm
  obtain ⟨t, rfl⟩ := List.length_eq_one_iff.mp hlen
  obtain rfl : c = t := by simpa [hq] using h.queue
  simp [hq]

/-- The idle task has no equals. -/
theorem idle_alone (hinv : Inv cfg base noneStale k)
    (hc : k.currentTask = some .idle) (hq : (k.readySet p).head? = some .idle) :
    k.readySet p = [.idle] := by
  have hmem {u : TaskId} (hu : u ∈ k.readySet p) := (hinv.ready.mem p u).mp hu
  have hzero : p = 0 :=
    (hmem (List.mem_of_mem_head? hq)).2.2.symm.trans (hinv.idle_prio not_false hc)
  have hall : ∀ u ∈ k.readySet p, u = .idle := by
    intro u hu
    by_contra hne
    have hpos := hinv.prio_pos (hmem hu).2.1.not_dormant hne
    have hprio : (k.tasks u).priority = p := (hmem hu).2.2
    omega
  have hnd := hinv.ready.nodup p
  cases hqueue : k.readySet p with
  | nil => simp [hqueue] at hq
  | cons a l =>
    rw [hqueue] at hall hnd
    cases l with
    | nil => simpa using hall
    | cons b l => simp_all

theorem sameTasks (h : Rota cfg k p ts n) (hs : SameTasks k k') : Rota cfg k' p ts n := by
  refine ⟨?_, h.range, ?_, ?_, h.legal, ?_⟩
  · rw [hs]; exact h.running
  · rw [hs]; exact h.queue
  · rw [hs]; exact h.top
  · rw [hs]
    cases h.phase with
    | settled c hc hst hhead hslice hplan => exact .settled c hc hst hhead hslice hplan
    | turning c d hc hst hmem hhead hwhole hto hne hplan =>
      exact .turning c d hc hst hmem hhead hwhole hto hne hplan

/-- The time slice of the current task has been refilled and the task has gone behind its equals. -/
theorem requeued {slice : Tick} {l : List TaskId} (hinv : Inv cfg base noneStale k)
    (hl : k.readySet (k.tasks c).priority = c :: l) : Requeued cfg k
      ((k.updateTask c fun task => { task with sliceRemaining := slice }).setReadyQueue
        (k.tasks c).priority (l ++ [c])) c := by
  refine ⟨rfl, ?_, fun u hu => ?_, ?_⟩
  · simp [Tcb.SameButRelease]
  · simp [hu]
  · refine hinv.ready.reorder ?_
    rw [hl]
    exact List.perm_append_singleton c l

/-- The turn has come to the idle task at a priority that it has inherited. -/
def IdleTurn (cfg : Config) (p : Nat) (ts : List TaskId) (n : Nat) : Prop :=
  (ts.rotate (turns cfg n)).head? = some .idle ∧ p ≠ 0

/-- The selection after a rotation plans the switch to the new head of the queue, unless it refuses
to select it. -/
theorem wp_turn (hinv : Inv cfg base noneStale k) (hpol : cfg.policy = .fixedPriority)
    (hl : k.lifecycle = .running) (hrange : p < cfg.priorityCount)
    (hqueue : k.readySet p = ts.rotate (turns cfg n))
    (htop : ∀ q, p < q → q < cfg.priorityCount → k.readySet q = [])
    (hhead : (ts.rotate (turns cfg n)).head? = some d) (hc : k.currentTask = some c)
    (hst : (k.tasks c).state = .running) (hmem : c ∈ ts) (hne : d ≠ c)
    (hact : k.switchPlan.active = false) (hwhole : n % cfg.timeSliceTicks.toNat = 0) :
    wp (planAfterTick cfg) (fun _ k' => Rota cfg k' p ts n ∧ k'.tasks = k.tasks)
      (fun _ _ => IdleTurn cfg p ts n) k := by
  have hpick : policyPickNext cfg k = some d := by
    simp only [policyPickNext, hpol, readyPeekHighest]
    exact highestBelow_eq_some.mpr ⟨p, hrange, by rw [hqueue, hhead], htop⟩
  have hprio : (k.tasks d).priority = p := by
    refine ((hinv.ready.mem p d).mp ?_).2.2
    rw [hqueue]
    exact List.mem_of_mem_head? hhead
  have hready : ¬ k.CurrentReady := by
    rintro ⟨c', hc', hready⟩
    obtain rfl : c = c' := Option.some.inj (hc.symm.trans hc')
    simp [hst] at hready
  refine wp_planAfterTick hinv not_false hc (fun b k' hp => ?_) (fun hidle hboosted => ?_)
    fun hr => absurd hr hready
  · cases hp with
    | rejected hr => exact absurd hr hready
    | prepared c' d' hc' _ hpick' hrun hprep =>
      obtain rfl : c = c' := Option.some.inj (hc.symm.trans hc')
      obtain rfl : d = d' := Option.some.inj (hpick.symm.trans hpick')
      obtain ⟨hpend, -, hto⟩ := hprep.planned hact hne
      have hlegal : (ts.rotate (turns cfg n)).head? = some .idle → p = 0 := by
        intro hidle
        have hd : d = .idle := Option.some.inj (hhead.symm.trans hidle)
        exact hprio.symm.trans ((hinv.taskIsRunnable_iff.mp hrun).2 hd)
      have hphase : RotaPhase cfg k' ts n := by
        refine .turning c d ?_ ?_ hmem hhead hwhole hto hne (.inl hpend) <;> rw [hprep.replanned]
        · exact hc
        · exact hst
      refine ⟨⟨?_, hrange, ?_, ?_, hlegal, hphase⟩, ?_⟩ <;> rw [hprep.replanned]
      · exact hl
      · exact hqueue
      · exact htop
  · obtain rfl : d = .idle := Option.some.inj (hpick.symm.trans hidle)
    exact ⟨hhead, hprio ▸ hboosted⟩

/-- The current task has used a part of its time slice. -/
theorem used (h : Rota cfg k p ts n) (hc : k.currentTask = some c)
    (hst : (k.tasks c).state = .running) (hhead : (ts.rotate (turns cfg n)).head? = some c)
    (hcount : (k.tasks c).sliceRemaining.toNat + n % cfg.timeSliceTicks.toNat =
      cfg.timeSliceTicks.toNat) (hplan : k.Settled) (hused : 1 < (k.tasks c).sliceRemaining) :
    Rota cfg (k.updateTask c fun task => { task with sliceRemaining := task.sliceRemaining - 1 })
      p ts (n + 1) := by
  have hwithin : n % cfg.timeSliceTicks.toNat + 1 < cfg.timeSliceTicks.toNat := by bv_omega
  obtain ⟨hturns, hmod⟩ := turns_succ_of_lt hwithin
  refine ⟨h.running, h.range, ?_, h.top, ?_, .settled c hc (by simpa using hst) ?_ (.inr ?_) hplan⟩
  · rw [hturns]; exact h.queue
  · rw [hturns]; exact h.legal
  · rw [hturns]; exact hhead
  · simp only [Kernel.updateTask_tasks, Function.update_self, hmod]
    bv_omega

/-- The current task, which has no equals, has used up its time slice and got a new one. -/
theorem refilled (h : Rota cfg k p ts n) (hc : k.currentTask = some c)
    (hst : (k.tasks c).state = .running) (hl : k.readySet p = [c]) (hidle : c ≠ .idle)
    (hplan : k.Settled) (hmod : (n + 1) % cfg.timeSliceTicks.toNat = 0) :
    Rota cfg (k.updateTask c fun task => { task with sliceRemaining := cfg.timeSliceTicks })
      p ts (n + 1) := by
  obtain ⟨hqueue, hhead⟩ := h.alone hl (n + 1)
  refine ⟨h.running, h.range, hqueue, h.top, fun hi => ?_,
    .settled c hc (by simpa using hst) hhead (.inr ?_) hplan⟩
  · exact absurd (Option.some.inj (hhead.symm.trans hi)) hidle
  · simp [hmod]

/-- The current task has used up its time slice, and its equals come before it. -/
theorem wp_rotated {l : List TaskId} (h : Rota cfg k p ts n) (hpol : cfg.policy = .fixedPriority)
    (hinv : Inv cfg base noneStale k) (hc : k.currentTask = some c)
    (hst : (k.tasks c).state = .running) (hl : k.readySet (k.tasks c).priority = c :: l)
    (hp : (k.tasks c).priority = p) (hcons : l ≠ []) (hplan : k.Settled)
    (hturns : turns cfg (n + 1) = turns cfg n + 1)
    (hmod : (n + 1) % cfg.timeSliceTicks.toNat = 0) :
    wp (planAfterTick cfg)
      (fun _ k' => Rota cfg k' p ts (n + 1) ∧ ∀ t, (k'.tasks t).state = (k.tasks t).state)
      (fun _ _ => IdleTurn cfg p ts (n + 1))
      ((k.updateTask c fun task => { task with sliceRemaining := cfg.timeSliceTicks }).setReadyQueue
        (k.tasks c).priority (l ++ [c])) := by
  subst hp
  set k₁ := Kernel.setReadyQueue _ _ _ with hk₁
  have hreq : Requeued cfg k k₁ c := requeued hinv hl
  obtain ⟨d, l', rfl⟩ := List.exists_cons_of_ne_nil hcons
  have hqueue₁ : k₁.readySet (k.tasks c).priority = ts.rotate (turns cfg (n + 1)) := by
    rw [hturns, ← List.rotate_rotate, ← h.queue, hl]
    simp [hk₁]
  have hhead₁ : (ts.rotate (turns cfg (n + 1))).head? = some d := by
    rw [← hqueue₁]
    simp [hk₁]
  have hne : d ≠ c := by
    have := hinv.ready.nodup (k.tasks c).priority
    rw [hl] at this
    grind
  have htop₁ : ∀ q, (k.tasks c).priority < q → q < cfg.priorityCount → k₁.readySet q = [] := by
    intro q hq hq'
    simpa [hk₁, hq.ne'] using h.top q hq hq'
  have hmem : c ∈ ts := by
    refine List.mem_rotate.mp (?_ : c ∈ ts.rotate (turns cfg n))
    rw [← h.queue, hl]
    exact List.mem_cons_self
  refine wp_mono (wp_turn (hreq.inv hinv) hpol h.running h.range hqueue₁ htop₁ hhead₁ hc
    ((hreq.state c).trans hst) hmem hne hplan.2 hmod) (fun _ k' hk' => ?_) fun _ _ => id
  exact ⟨hk'.1, fun t => hk'.2 ▸ hreq.state t⟩

/-- The tick of the policy, and the selection it may cause. It wakes nobody. -/
theorem tick (h : Rota cfg k p ts n) (hpol : cfg.policy = .fixedPriority)
    (hen : cfg.enableTimeSlicing = true) (hinv : Inv cfg base noneStale k) (hsettled : k.Settled) :
    wp (policyFpTick cfg 1) (fun rotated => wp (if rotated = false then pure false
      else planAfterTick cfg)
        (fun _ k' => Rota cfg k' p ts (n + 1) ∧ ∀ t, (k'.tasks t).state = (k.tasks t).state)
        (fun _ _ => IdleTurn cfg p ts (n + 1)))
      (fun _ _ => IdleTurn cfg p ts (n + 1)) k := by
  have hidleTask : k.idleTask = some .idle := hinv.phase.idleTask (by simp [h.running])
  cases h.phase with
  | turning c d hc hst hmem hhead hwhole hto hne hplan =>
    simp [hsettled.1, hsettled.2] at hplan
  | settled c hc hst hhead hslice hplan =>
    have hfront : (k.readySet p).head? = some c := by rw [h.queue]; exact hhead
    obtain ⟨l, hl⟩ : ∃ l, k.readySet p = c :: l := by
      cases hq : k.readySet p with
      | nil => simp [hq] at hfront
      | cons a l => exact ⟨l, by simp_all⟩
    have hmem := (hinv.ready.mem p c).mp (by simp [hl])
    obtain rfl : (k.tasks c).priority = p := hmem.2.2
    rcases eq_or_ne c .idle with rfl | hidle
    · -- the idle task has neither a time slice nor equals
      simp only [policyFpTick, wp_bind, wp_get, hc, hidleTask]
      rw [wp_ite, if_pos (by simp), wp_pure, wp_ite, if_pos rfl, wp_pure]
      obtain ⟨hqueue, hhead'⟩ := h.alone (idle_alone hinv hc hfront) (n + 1)
      exact ⟨⟨h.running, h.range, hqueue, h.top, fun _ => hinv.idle_prio not_false hc,
        .settled _ hc hst hhead' (.inl rfl) hplan⟩, fun _ => rfl⟩
    · have hcount : (k.tasks c).sliceRemaining.toNat + n % cfg.timeSliceTicks.toNat =
        cfg.timeSliceTicks.toNat := hslice.resolve_left hidle
      have hpos : 0 < cfg.timeSliceTicks.toNat := by
        have := cfg.slice_pos hen
        bv_omega
      have hlt := Nat.mod_lt n hpos
      have hstates (slice : Tick) (t : TaskId) : ((k.updateTask c fun task =>
          { task with sliceRemaining := slice }).tasks t).state = (k.tasks t).state := by
        rcases eq_or_ne t c with rfl | ht
        · simp
        · simp [ht]
      have hwhole (hlast : ¬ 1 < (k.tasks c).sliceRemaining) :
          turns cfg (n + 1) = turns cfg n + 1 ∧ (n + 1) % cfg.timeSliceTicks.toNat = 0 :=
        turns_succ_of_eq (by bv_omega)
      refine wp_policyFpTick_front hen hc hst (by simpa [hidleTask] using hidle.symm) hsettled.2
        h.range hl ?_ (fun hused => ?_) (fun hlast hnil => ?_) fun hlast hcons => ?_
      · bv_omega
      · rw [wp_ite, if_pos rfl, wp_pure]
        exact ⟨h.used hc hst hhead hcount hplan hused, hstates _⟩
      · rw [wp_ite, if_pos rfl, wp_pure]
        exact ⟨h.refilled hc hst (hnil ▸ hl) hidle hplan (hwhole hlast).2, hstates _⟩
      · rw [wp_ite, if_neg (by simp)]
        exact h.wp_rotated hpol hinv hc hst hl rfl hcons hplan (hwhole hlast).1 (hwhole hlast).2

/-- One tick, after which nobody has woken. -/
theorem advance (h : Rota cfg k p ts n) (hpol : cfg.policy = .fixedPriority)
    (hen : cfg.enableTimeSlicing = true) (hk : Sound cfg k)
    (hnone : k.switchPlan.pending = false ∧ k.switchPlan.active = false) :
    wp (kernelTimeAdvanceCommon cfg 1) (fun _ k' => Woke k k' ∨ Rota cfg k' p ts (n + 1))
      (fun _ _ => True) k := by
  refine wp_advance_quiet hk.ok hk.timersOk h.running (by decide) (fun _ _ => .inl)
    fun k₁ hsame hinv => ?_
  simp only [policyTick, hpol]
  have hsettled₁ : k₁.Settled := by rw [hsame]; exact hnone
  refine wp_mono ((h.sameTasks hsame).tick hpol hen hinv hsettled₁)
    (fun rotated k₂ hk₂ => ?_) fun _ _ _ => trivial
  exact wp_mono hk₂ (fun _ _ hk₃ => .inr hk₃.1) fun _ _ _ => trivial

/-- What one event of the handlers does to the rota. -/
theorem step (h : Rota cfg k p ts n) (hpol : cfg.policy = .fixedPriority)
    (hen : cfg.enableTimeSlicing = true) (hk : Sound cfg k) (hs : QuietStep cfg k ev k')
    (hev : HandlerEvent k ev) : Rota cfg k' p ts (n + (ev.elapsed cfg k).toNat) := by
  obtain ⟨hs, hquiet⟩ := hs
  cases ev with
  | acquire => exact h.acquire hs hk
  | complete snapshot intact => exact h.complete hs hk
  | reselect => exact h.reselect hpol hs hk
  | tick isr elapsed =>
    obtain ⟨rfl, rfl, hnone⟩ := hev
    have hvalid : AdvanceIsValid k true 1 := ⟨h.running, rfl, by decide, by decide⟩
    have hspec : wp (runEvent cfg (.tick true 1))
        (fun _ k' => Woke k k' ∨ Rota cfg k' p ts (n + 1)) (fun _ _ => True) k := by
      simp only [runEvent, kernelTickAdvance, kernelAdvance, wp_bind, wp_get]
      rw [wp_rtsAssert_of hvalid, wp_ite, if_pos hvalid]
      refine wp_mono (h.advance hpol hen hk hnone) (fun b k₁ hk₁ => wp_notifyPort ?_) fun _ _ => id
      exact hk₁.imp id fun hr => hr.replanned (.notify k₁ b) (hr.phase.notify b)
    have hone : (Event.tick true 1).elapsed cfg k = 1 := if_pos hvalid
    rw [hone]
    exact (wp_ret hspec hs.2 :).resolve_left hquiet
  | _ => exact hev.elim

/-- The rota of a whole run. -/
theorem run (hpol : cfg.policy = .fixedPriority) (hen : cfg.enableTimeSlicing = true)
    (hk : Reachable cfg k) (hleads : k.Leads cfg p ts) (h : HandlerRun cfg k k' n) :
    Reachable cfg k' ∧ Rota cfg k' p ts n := by
  induction h with
  | start => exact ⟨hk, hleads.rota (ReachableWhen.sound hk).ok.inv⟩
  | step _ hev hs ih =>
    obtain ⟨hreach, hrota⟩ := ih
    exact ⟨hreach.tail trivial hs.1, hrota.step hpol hen (ReachableWhen.sound hreach) hs hev⟩

/-- Between two switches the head of the queue runs. -/
theorem currentTask (h : Rota cfg k p ts n)
    (hnone : k.switchPlan.pending = false ∧ k.switchPlan.active = false) :
    k.currentTask = ts[turns cfg n % ts.length]? := by
  cases h.phase with
  | turning c d hc hst hmem hhead hwhole hto hne hplan => simp [hnone] at hplan
  | settled c hc hst hhead hslice hplan => rw [hc, ← hhead, head?_rotate_mod]

/-- Only the tasks of the rota run. -/
theorem current_mem (h : Rota cfg k p ts n) :
    ∃ c ∈ ts, k.currentTask = some c ∧ (k.tasks c).state = .running := by
  cases h.phase with
  | settled c hc hst hhead hslice hplan =>
    exact ⟨c, List.mem_rotate.mp (List.mem_of_mem_head? hhead), hc, hst⟩
  | turning c d hc hst hmem hhead hwhole hto hne hplan => exact ⟨c, hmem, hc, hst⟩

theorem exists_head (h : Rota cfg k p ts n) : ∃ d, (ts.rotate (turns cfg n)).head? = some d := by
  cases h.phase with
  | settled c _ _ hhead _ _ => exact ⟨c, hhead⟩
  | turning _ d _ _ _ hhead _ _ _ _ => exact ⟨d, hhead⟩

theorem not_currentReady (h : Rota cfg k p ts n) : ¬ k.CurrentReady := by
  rintro ⟨c, hc, hready⟩
  obtain ⟨d, -, hd, hst⟩ := h.current_mem
  obtain rfl : c = d := Option.some.inj (hc.symm.trans hd)
  simp [hst] at hready

end Rota

/-! ## Ticks and switches return -/

/-- The handler of the context switch has run to its end: it has acquired the plan, completed the
switch and reselected. -/
def SwitchHandled (cfg : Config) (k k' : Kernel) : Prop :=
  ∃ snapshot k₁ k₂, schedulerSwitchAcquire cfg k = .ret (some snapshot) k₁ ∧
    Step cfg k₁ (.complete snapshot true) k₂ ∧ Step cfg k₂ .reselect k'

/-- The next tick finds neither a wait nor a timer that has expired. -/
def Kernel.NoneDue (k : Kernel) : Prop :=
  delayPeekExpired k (k.currentTick + 1) = none ∧
    timerQueuePeekExpired k (k.currentTick + 1) = none

instance (k : Kernel) : Decidable k.NoneDue := inferInstanceAs (Decidable (_ ∧ _))

/-- What lets every tick return, whatever it finds due: the idle task owns no mutex and no timer is
overdue. -/
structure Kernel.Unimpaired (k : Kernel) : Prop where
  idle : ¬ k.IdleOwns
  timers : k.Ahead

theorem HandlerEvent.elapsed_le (hev : HandlerEvent k ev) : (ev.elapsed cfg k).toNat ≤ 1 := by
  cases ev with
  | tick isr elapsed =>
    obtain ⟨-, rfl, -⟩ := hev
    simp only [Event.elapsed]
    split <;> decide
  | acquire | complete | reselect => exact Nat.zero_le 1
  | _ => exact hev.elim

theorem Kernel.Unimpaired.step (h : k.Unimpaired) (hk : Sound cfg k) (hs : Step cfg k ev k')
    (hev : HandlerEvent k ev) : k'.Unimpaired := by
  have hlocks : ¬ ev.IdleLocks k := by
    cases ev with
    | lock => exact hev.elim
    | _ => exact not_false
  have hstepped := hs.stepped hk
  exact ⟨fun howns => h.idle ((hstepped.effect hk).idleOwns hk.ok hlocks howns),
    hstepped.ahead h.timers (h.timers.spread_one hk.timersOk hev.elapsed_le)⟩

/-- A tick that finds nothing due is the check of the timer manager and the tick of the policy. -/
theorem wp_advance_noneDue {Q : Bool → Kernel → Prop} {E : Fatal → Kernel → Prop}
    (hdue : k.NoneDue)
    (hvalid : ∀ k₁, SameTasks k k₁ → TimerManagerValidate cfg k →
      wp (policyTick cfg 1)
        (fun rotated => wp (if rotated = false then pure false else planAfterTick cfg) Q E) E k₁)
    (hinvalid : ∀ k₁, ¬ TimerManagerValidate cfg k → E (.assertion .timerManager) k₁) :
    wp (kernelTimeAdvanceCommon cfg 1) Q E k := by
  unfold kernelTimeAdvanceCommon
  simp only [wp_bind, wp_modify, wp_get]
  generalize hk₁ : Kernel.count _ _ = k₁
  have hsame : SameTasks k k₁ := by rw [← hk₁]; rfl
  have hdelay : delayPeekExpired k₁ k₁.currentTick = none := by rw [← hk₁]; exact hdue.1
  have htimer : timerQueuePeekExpired k₁ k₁.currentTick = none := by rw [← hk₁]; exact hdue.2
  have hmanager : TimerManagerValidate cfg k₁ ↔ TimerManagerValidate cfg k := by rw [← hk₁]; rfl
  rw [wp_of_ret (delayLoop_quiet hdelay _)]
  simp only [wp_bind, wp_get]
  rw [wp_congr (timerManagerProcessExpired_quiet htimer), wp_bind, wp_fatalUnless, hmanager]
  refine ⟨fun hv => ?_, hinvalid k₁⟩
  rw [wp_pure, wp_ite, if_neg (by simp), wp_bind]
  refine wp_mono (hvalid k₁ hsame hv) (fun rotated k₂ hk₂ => ?_) fun _ _ => id
  simpa using hk₂

namespace Rota

theorem tick_returns (h : Rota cfg k p ts n) (hk : Sound cfg k) (hu : k.Unimpaired) :
    ∃ k', Step cfg k (.tick true 1) k' := by
  obtain ⟨c, -, hc, hst⟩ := h.current_mem
  have hvalid : AdvanceIsValid k true 1 := ⟨h.running, rfl, by decide, by decide⟩
  have hdue : ¬ k.ServiceDue 1 := by
    rintro ⟨hcur, hb, -⟩
    obtain rfl : c = .timerService := Option.some.inj (hc.symm.trans hcur)
    simp [hst] at hb
  have hspread : k.Spread (k.currentTick + 1) := hu.timers.spread_one hk.timersOk (by decide)
  have hspec : wp (runEvent cfg (.tick true 1)) (fun _ _ => True) (fun _ _ => False) k := by
    simp only [runEvent, kernelTickAdvance, wp_bind]
    have hready := not_or.mpr ⟨h.not_currentReady, hdue⟩
    refine wp_mono
      (wp_kernelAdvance_returns hk.ok hk.timersOk hvalid hu.idle hready hu.timers hspread)
      (fun b k₁ _ => wp_notifyPort trivial) fun _ _ => id
  obtain ⟨_, k', hret, -⟩ := exists_ret_of_wp hspec
  exact ⟨k', .inl rfl, hret⟩

/-- A tick that finds nothing due returns unless the timer manager is found corrupt or the turn
comes to an idle task of inherited priority. -/
theorem tick_iff (h : Rota cfg k p ts n) (hpol : cfg.policy = .fixedPriority)
    (hen : cfg.enableTimeSlicing = true) (hk : Sound cfg k) (hsettled : k.Settled)
    (hdue : k.NoneDue) : (∃ k', QuietStep cfg k (.tick true 1) k') ↔
      TimerManagerValidate cfg k ∧ ¬ IdleTurn cfg p ts (n + 1) := by
  have hvalid : AdvanceIsValid k true 1 := ⟨h.running, rfl, by decide, by decide⟩
  have hspec : wp (runEvent cfg (.tick true 1))
      (fun _ k' => ¬ Woke k k' ∧ TimerManagerValidate cfg k ∧ ¬ IdleTurn cfg p ts (n + 1))
      (fun _ _ => ¬ (TimerManagerValidate cfg k ∧ ¬ IdleTurn cfg p ts (n + 1))) k := by
    simp only [runEvent, kernelTickAdvance, kernelAdvance, wp_bind, wp_get]
    rw [wp_rtsAssert_of hvalid, wp_ite, if_pos hvalid]
    refine wp_advance_noneDue hdue (fun k₁ hsame hmanager => ?_) fun _ hnot hboth => hnot hboth.1
    have hsettled₁ : k₁.Settled := by rw [hsame]; exact hsettled
    have htasks₁ : k₁.tasks = k.tasks := by rw [hsame]
    simp only [policyTick, hpol]
    refine wp_mono ((h.sameTasks hsame).tick hpol hen (hk.ok.inv.sameTasks hsame)
      hsettled₁) (fun rotated k₂ hk₂ => ?_) fun _ _ hidle hboth => hboth.2 hidle
    refine wp_mono hk₂ (fun b k₃ hk₃ => wp_notifyPort ?_) fun _ _ hidle hboth => hboth.2 hidle
    obtain ⟨hrota, hstates⟩ := hk₃
    refine ⟨?_, hmanager, fun hidle => hidle.2 (hrota.legal hidle.1)⟩
    rintro ⟨t, hb, hb'⟩
    exact hb' ((hstates t).trans (htasks₁ ▸ hb))
  constructor
  · rintro ⟨k', hs, -⟩
    exact (wp_ret hspec hs.2 :).2
  · intro hboth
    obtain ⟨_, k', hret, hquiet, -⟩ := exists_ret_of_wp
      (wp_mono hspec (fun _ _ => id) fun _ _ hnot => hnot hboth)
    exact ⟨k', ⟨.inl rfl, hret⟩, hquiet⟩

/-- The idle task is at the head of the queue only at its own priority. -/
theorem idle_prio_of_head (h : Rota cfg k p ts n) (hinv : Inv cfg base noneStale k)
    (hhead : (ts.rotate (turns cfg n)).head? = some .idle) : (k.tasks .idle).priority = 0 := by
  have hin : .idle ∈ k.readySet p := by
    rw [h.queue]
    exact List.mem_of_mem_head? hhead
  exact ((hinv.ready.mem p .idle).mp hin).2.2.trans (h.legal hhead)

/-- The task that the plan leads to can be switched in. -/
theorem canAcquire (h : Rota cfg k p ts n) (hk : Sound cfg k)
    (hpend : k.switchPlan.pending = true) : k.CanAcquire cfg := by
  have hinv := hk.ok.inv
  refine ⟨hinv.plan.exclusive hpend, fun d hd => ?_⟩
  cases h.phase with
  | settled _ _ _ _ _ hplan => simp [hpend] at hplan
  | turning c d' hc hst hmem hhead hwhole hto hne _ =>
    obtain rfl : d = d' := Option.some.inj (hd.symm.trans hto)
    have hin : d ∈ k.readySet p := by
      rw [h.queue]
      exact List.mem_of_head? hhead
    have hrun := ((hinv.ready.mem p d).mp hin).2.1
    refine ⟨hrun.resolve_right fun hrunning => hne ?_, hinv.taskIsRunnable_iff.mpr ⟨hrun, ?_⟩⟩
    · exact Option.some.inj ((hinv.running d hrunning).symm.trans hc)
    · rintro rfl
      exact h.idle_prio_of_head hinv hhead

theorem acquire_returns (h : Rota cfg k p ts n) (hk : Sound cfg k)
    (hpend : k.switchPlan.pending = true) : ∃ snapshot k₁,
      schedulerSwitchAcquire cfg k = .ret (some snapshot) k₁ ∧
      CompletePlanIsValid cfg k₁ snapshot := by
  have hinv := hk.ok.inv
  have hcan := h.canAcquire hk hpend
  have hspec : wp (schedulerSwitchAcquire cfg) (fun r k₁ => ∃ snapshot d, r = some snapshot ∧
      Acquired cfg k k₁ d ∧ snapshot.Matches k.switchPlan) (fun _ _ => False) k :=
    wp_switchAcquire hinv not_false h.running
      (fun hnone => absurd (hnone hpend hcan) h.not_currentReady)
      (fun snapshot k₁ d ha hm => ⟨snapshot, d, rfl, ha, hm⟩) (fun hnot => hnot hcan)
      h.not_currentReady
  obtain ⟨_, k₁, hret, snapshot, d, rfl, ha, hfrom, hto, hgen⟩ := exists_ret_of_wp hspec
  have hcur : k.currentTask = some snapshot.fromTask :=
    (hinv.plan.source (.inl hpend)).symm.trans hfrom
  obtain ⟨d', hd', hne⟩ := hinv.plan.target (.inl hpend)
  obtain rfl : d' = snapshot.toTask := Option.some.inj (hd'.symm.trans hto)
  have hne' : snapshot.fromTask ≠ snapshot.toTask := fun he => hne (hcur.trans (congrArg some he))
  obtain ⟨hready, hrun⟩ := hcan.2 _ hto
  refine ⟨snapshot, k₁, hret, ?_⟩
  rw [ha.replanned, CompletePlanIsValid, ha.plan]
  exact ⟨h.running, rfl, rfl, hgen.symm, hfrom, hto, hne', hcur, hready, hrun⟩

theorem complete_returns {snapshot : SwitchSnapshot} (h : Rota cfg k p ts n) (hk : Sound cfg k)
    (hvalid : CompletePlanIsValid cfg k snapshot) :
    ∃ k', Step cfg k (.complete snapshot true) k' ∧ k'.Settled := by
  have hspec : wp (runEvent cfg (.complete snapshot true)) (fun _ k' => k'.Settled)
      (fun _ _ => False) k := by
    refine wp_switchComplete hk.ok.inv not_false
      (fun hready => absurd (hready hvalid) h.not_currentReady) (fun k' _ hsw => ?_)
      (fun hnot => hnot hvalid) h.not_currentReady (by simp)
    simp [Kernel.Settled, hsw.switchPlan, switchPlanClear]
  obtain ⟨_, k', hret, hk'⟩ := exists_ret_of_wp hspec
  exact ⟨k', ⟨h.running, hret⟩, hk'⟩

theorem reselect_returns (h : Rota cfg k p ts n) (hpol : cfg.policy = .fixedPriority)
    (hk : Sound cfg k) (hact : k.switchPlan.active = false) : ∃ k', Step cfg k .reselect k' := by
  obtain ⟨c, -, hc, hst⟩ := h.current_mem
  have hidle (hpick : policyPickNext cfg k = some .idle) : (k.tasks .idle).priority = 0 := by
    obtain ⟨d, hd⟩ := h.exists_head
    obtain rfl : .idle = d := Option.some.inj (hpick.symm.trans (h.pick hpol hd))
    exact h.idle_prio_of_head hk.ok.inv hd
  have hspec : wp (runEvent cfg .reselect) (fun _ _ => True) (fun _ _ => False) k := by
    unfold runEvent
    rw [wp_bind]
    exact wp_reselectAfterSwitch hk.ok.inv not_false h.running (fun _ => wp_notifyPort trivial)
      (fun _ _ _ => wp_notifyPort trivial) (fun hpick hboosted => hboosted (hidle hpick))
      h.not_currentReady fun hnot => hnot c hc hst
  obtain ⟨_, k', hret, -⟩ := exists_ret_of_wp hspec
  exact ⟨k', ⟨h.running, hact⟩, hret⟩

/-- While the head of the queue runs, a reselection plans nothing. -/
theorem settled_of_reselect (h : Rota cfg k p ts n) (h' : Rota cfg k' p ts n) (hsettled : k.Settled)
    (hcur : k'.currentTask = k.currentTask) : k'.Settled := by
  cases h.phase with
  | turning _ _ _ _ _ _ _ _ _ hplan => simp [hsettled.1, hsettled.2] at hplan
  | settled c hc _ hhead _ _ =>
    cases h'.phase with
    | settled _ _ _ _ _ hplan => exact hplan
    | turning c' d hc' _ _ hhead' _ _ hne _ =>
      obtain rfl : c' = c := Option.some.inj (hc'.symm.trans (hcur.trans hc))
      exact absurd (Option.some.inj (hhead'.symm.trans hhead)) hne

end Rota

/-- The parts of a context switch wake nobody. -/
theorem Step.quiet (hs : Step cfg k ev k') (hk : Sound cfg k)
    (hev : ev = .acquire ∨ (∃ snapshot intact, ev = .complete snapshot intact) ∨ ev = .reselect) :
    QuietStep cfg k ev k' := by
  refine ⟨hs, ?_⟩
  rintro ⟨t, hb, hb'⟩
  obtain rfl | ⟨snapshot, intact, rfl⟩ | rfl := hev
  · obtain rfl | ⟨d, ha⟩ := hs.acquire_cases hk
    · exact hb' hb
    · rw [ha.replanned] at hb'
      exact hb' hb
  · obtain rfl | ⟨hsw, -⟩ := hs.complete_cases hk
    · exact hb' hb
    · exact hb' ((hsw.blocked_iff t).mpr hb)
  · obtain ⟨-, rfl⟩ | ⟨k₁, b, hp, rfl⟩ := hs.reselect_cases hk
    · exact hb' hb
    · rw [hp.replanned.trans (.notify k₁ b)] at hb'
      exact hb' hb

namespace HandlerRun

variable {k₀ : Kernel}

theorem unimpaired (h : HandlerRun cfg k₀ k n) (hk₀ : Reachable cfg k₀) (hu : k₀.Unimpaired) :
    Reachable cfg k ∧ k.Unimpaired := by
  induction h with
  | start => exact ⟨hk₀, hu⟩
  | step _ hev hs ih =>
    obtain ⟨hreach, hu⟩ := ih
    exact ⟨hreach.tail trivial hs.1, hu.step (ReachableWhen.sound hreach) hs.1 hev⟩

/-- A switch that is planned runs to its end. -/
theorem switch (h : HandlerRun cfg k₀ k n) (hpol : cfg.policy = .fixedPriority)
    (hrota : Rota cfg k p ts n) (hk : Sound cfg k)
    (hpend : k.switchPlan.pending = true) :
    ∃ k', SwitchHandled cfg k k' ∧ HandlerRun cfg k₀ k' n ∧ k'.Settled := by
  obtain ⟨snapshot, k₁, hret, hvalid⟩ := hrota.acquire_returns hk hpend
  have hs₁ : Step cfg k .acquire k₁ := ⟨hrota.running, discard_ret hret⟩
  have hrota₁ := hrota.acquire hs₁ hk
  have hk₁ := hk.step hs₁
  obtain ⟨k₂, hs₂, hsettled₂⟩ := hrota₁.complete_returns hk₁ hvalid
  have hrota₂ := hrota₁.complete hs₂ hk₁
  have hk₂ := hk₁.step hs₂
  obtain ⟨k₃, hs₃⟩ := hrota₂.reselect_returns hpol hk₂ hsettled₂.2
  have hcur : k₃.currentTask = k₂.currentTask := by
    obtain ⟨-, rfl⟩ | ⟨k', b, hp, rfl⟩ := hs₃.reselect_cases hk₂
    · rfl
    · rw [hp.replanned.trans (.notify k' b)]
  refine ⟨k₃, ⟨snapshot, k₁, k₂, hret, hs₂, hs₃⟩, ?_, ?_⟩
  · have hrun₁ : HandlerRun cfg k₀ k₁ n :=
      h.step (show HandlerEvent k .acquire from trivial) (hs₁.quiet hk (.inl rfl))
    have hrun₂ : HandlerRun cfg k₀ k₂ n :=
      hrun₁.step (show HandlerEvent k₁ (.complete snapshot true) from trivial)
        (hs₂.quiet hk₁ (.inr (.inl ⟨_, _, rfl⟩)))
    exact hrun₂.step (show HandlerEvent k₂ .reselect from trivial)
      (hs₃.quiet hk₂ (.inr (.inr rfl)))
  · exact hrota₂.settled_of_reselect (hrota₂.reselect hpol hs₃ hk₂) hsettled₂ hcur

end HandlerRun

/-! ## The main result -/

/-- Round robin is exact: after `n` ticks the task at `n / Q`, modulo their number, of the tasks of
the highest ready priority is current and running, and nobody of a lower priority ever runs. No time
slice is used up or exceeds its length. Every switch runs to its end. A tick that finds nothing due
returns, and wakes nobody, exactly if the timer manager passes its check and the turn does not come
to the idle task at a priority it has inherited; and every tick returns while the idle task owns no
mutex and no timer is overdue. An advance of any length makes at most one turn. -/
theorem round_robin_exact {k₀ : Kernel} (hpol : cfg.policy = .fixedPriority)
    (hen : cfg.enableTimeSlicing = true) (hk₀ : Reachable cfg k₀) (hleads : k₀.Leads cfg p ts) :
    (∀ k n, HandlerRun cfg k₀ k n →
      (k.switchPlan.pending = false → k.switchPlan.active = false →
        k.currentTask = ts[n / cfg.timeSliceTicks.toNat % ts.length]?) ∧
      (∃ c, k.currentTask = some c ∧ (k.tasks c).state = .running) ∧
      (∀ t, (k.tasks t).state = .running → t ∈ ts ∧ (k.tasks t).priority = p) ∧
      ∀ t, (k.tasks t).slotState = .allocated →
        1 ≤ (k.tasks t).sliceRemaining ∧ (k.tasks t).sliceRemaining ≤ cfg.timeSliceTicks) ∧
    (∀ k n, HandlerRun cfg k₀ k n →
      (k.switchPlan.pending = true →
        ∃ k', SwitchHandled cfg k k' ∧ HandlerRun cfg k₀ k' n ∧ k'.Settled) ∧
      (k.Settled → k.NoneDue → ((∃ k', QuietStep cfg k (.tick true 1) k') ↔
        TimerManagerValidate cfg k ∧
          (ts[(n + 1) / cfg.timeSliceTicks.toNat % ts.length]? = some .idle → p = 0))) ∧
      (k₀.Unimpaired → ∃ k', Step cfg k (.tick true 1) k')) ∧
    ∀ k isr elapsed b k', Reachable cfg k → kernelAdvance cfg isr elapsed k = .ret b k' →
      TurnsOnce k k' := by
  refine ⟨fun k n hrun => ?_, fun k n hrun => ?_, fun k isr elapsed b k' hk hret => ?_⟩
  · obtain ⟨hreach, hrota⟩ := Rota.run hpol hen hk₀ hleads hrun
    have hinv := (ReachableWhen.sound hreach).ok.inv
    obtain ⟨c, hmem, hc, hst⟩ := hrota.current_mem
    refine ⟨fun hpend hact => hrota.currentTask ⟨hpend, hact⟩, ⟨c, hc, hst⟩, fun t ht => ?_,
      fun t ht => ?_⟩
    · obtain rfl : c = t := Option.some.inj (hc.symm.trans (hinv.running t ht))
      refine ⟨hmem, ((hinv.ready.mem p c).mp ?_).2.2⟩
      rw [hrota.queue]
      exact List.mem_rotate.mpr hmem
    · obtain ⟨hpos, hle⟩ := ReachableWhen.sliced hreach t ht
      refine ⟨?_, hle⟩
      have hne : (k.tasks t).sliceRemaining ≠ 0 := hpos hen
      bv_omega
  · obtain ⟨hreach, hrota⟩ := Rota.run hpol hen hk₀ hleads hrun
    have hk := ReachableWhen.sound hreach
    refine ⟨hrun.switch hpol hrota hk, fun hsettled hdue => ?_, fun hu => ?_⟩
    · rw [hrota.tick_iff hpol hen hk hsettled hdue, Rota.IdleTurn, head?_rotate_mod]
      tauto
    · exact hrota.tick_returns hk (hrun.unimpaired hk₀ hu).2
  · exact kernelAdvance_turnsOnce (ReachableWhen.sound hk) hret

/-- The application tasks are awake and the timer service is at rest. -/
def Kernel.AllAwake (cfg : Config) (k : Kernel) : Prop :=
  (∀ i < cfg.maxTasks, (k.tasks (.slot i)).state ≠ .blocked) ∧
    (k.tasks .timerService).state = .blocked

instance (cfg : Config) : DecidablePred (Kernel.AllAwake cfg) := fun _ =>
  inferInstanceAs (Decidable (_ ∧ _))

theorem Kernel.AllAwake.not_woke (h : k.AllAwake cfg) (hk : Sound cfg k) (h' : k'.AllAwake cfg) :
    ¬ Woke k k' := by
  rintro ⟨t, hb, hb'⟩
  have hknown := ((hk.ok.inv.tasks t).valid (by simp [hb])).known
  cases t with
  | slot i => exact h.1 i (by simpa [TaskId.IsApplication] using hknown) hb
  | idle => exact hk.ok.inv.idle_not_blocked hb
  | timerService => exact hb' h'.2

/-- The sample configuration with time slices of one tick. -/
def shortSlices : Config := { sampleConfig with timeSliceTicks := 1, slice_pos := by decide }

/-- Two tasks of one priority: the first tick switches to the second, and the next tick returns and
wakes nobody. -/
theorem round_robin_exact_two : ∃ k₀ k k' : Kernel, k₀.Leads shortSlices 2 [.slot 0, .slot 1] ∧
    HandlerRun shortSlices k₀ k 1 ∧ k.currentTask = some (.slot 1) ∧
    QuietStep shortSlices k (.tick true 1) k' := by
  have hrun : (execute shortSlices (fun _ _ => True) (bootEvents 2 ++
      [createEvent 2, .start false true true])
      resetKernel).any (fun k₀ => decide (
        (k₀.lifecycle = .running ∧ k₀.readySet 2 = [.slot 0, .slot 1] ∧ k₀.readySet 3 = [] ∧
          k₀.currentTask = some (.slot 0) ∧ (k₀.tasks (.slot 0)).state = .running ∧
          (k₀.tasks (.slot 0)).sliceRemaining = 1 ∧ k₀.switchPlan.pending = false ∧
          k₀.switchPlan.active = false ∧ k₀.AllAwake shortSlices) ∧
        (execute shortSlices (fun _ _ => True) [.tick true 1] k₀).any (fun k₁ => decide (
          k₁.AllAwake shortSlices ∧
          (execute shortSlices (fun _ _ => True) [.acquire] k₁).any (fun k₂ => decide (
            k₂.AllAwake shortSlices ∧
            (execute shortSlices (fun _ _ => True)
              [.complete ⟨.slot 0, .slot 1, k₂.switchPlan.generation⟩ true] k₂).any
                (fun k₃ => decide (
              k₃.AllAwake shortSlices ∧ k₃.Settled ∧ k₃.NoneDue ∧
                TimerManagerValidate shortSlices k₃)) = true)) = true)) = true)) = true := by
    decide +kernel
  obtain ⟨k₀, hreach, ⟨hl, hq, htop, hc, hst, hslice, hpend, hact, haw₀⟩, h₁⟩ :=
    exists_reachable hrun
  obtain ⟨k₁, hs₁, haw₁, h₂⟩ := exists_step h₁
  obtain ⟨k₂, hs₂, haw₂, h₃⟩ := exists_step h₂
  obtain ⟨k₃, hs₃, haw₃, hsettled₃, hdue₃, hvalid₃⟩ := exists_step h₃
  have hleads : k₀.Leads shortSlices 2 [.slot 0, .slot 1] := by
    refine ⟨hl, by decide, hq, fun q hq hq' => ?_, ⟨_, rfl, hc, hst, hslice⟩, hpend, hact⟩
    have hcount : shortSlices.priorityCount = 4 := rfl
    obtain rfl : q = 3 := by omega
    exact htop
  have hreach₁ : Reachable shortSlices k₁ := hreach.tail trivial hs₁
  have hreach₂ : Reachable shortSlices k₂ := hreach₁.tail trivial hs₂
  have hhandler : HandlerRun shortSlices k₀ k₃ 1 := by
    have hvalid : AdvanceIsValid k₀ true 1 := ⟨hl, rfl, by decide, by decide⟩
    have htick :
        HandlerRun shortSlices k₀ k₁ (0 + ((Event.tick true 1).elapsed shortSlices k₀).toNat) :=
      Transition.Observed.start.step ⟨rfl, rfl, hpend, hact⟩
        ⟨hs₁, haw₀.not_woke (ReachableWhen.sound hreach) haw₁⟩
    have hone : (Event.tick true 1).elapsed shortSlices k₀ = 1 := if_pos hvalid
    rw [hone] at htick
    have hacquire : HandlerRun shortSlices k₀ k₂ 1 :=
      htick.step (show HandlerEvent k₁ .acquire from trivial)
        ⟨hs₂, haw₁.not_woke (ReachableWhen.sound hreach₁) haw₂⟩
    exact hacquire.step (show HandlerEvent k₂ (.complete _ _) from trivial)
      ⟨hs₃, haw₂.not_woke (ReachableWhen.sound hreach₂) haw₃⟩
  obtain ⟨hexact, hreturns, -⟩ := round_robin_exact rfl rfl hreach hleads
  obtain ⟨-, htick, -⟩ := hreturns k₃ 1 hhandler
  obtain ⟨k', hquiet⟩ := (htick hsettled₃ hdue₃).mpr ⟨hvalid₃, by decide⟩
  exact ⟨k₀, k₃, k', hleads, hhandler, (hexact k₃ 1 hhandler).1 hsettled₃.1 hsettled₃.2, hquiet⟩

/-- The idle task takes a mutex while the two tasks sleep. The first of them, awake again, waits for
it, and the idle task inherits its priority and is put behind the second. -/
def idleHeirEvents : List Event :=
  bootEvents 2 ++ [createEvent 2, .mutexInit false (some 0), .start false true true,
      .delay false 1] ++
    switchEvents (.slot 0) (.slot 1) 1 ++ .delay false 1 ::
    switchEvents (.slot 1) .idle 2 ++ [.lock false (some 0) 0, .tick true 1] ++
    switchEvents .idle (.slot 0) 3 ++ .lock false (some 0) 10 ::
    switchEvents (.slot 0) (.slot 1) 4

/-- The time slice of the second task ends with nothing due, and the turn would come to the idle
task, which the selection refuses at the priority it has inherited. -/
theorem idle_turn_halts : ∃ k₀ k', Reachable shortSlices k₀ ∧
    k₀.Leads shortSlices 2 [.slot 1, .idle] ∧ k₀.NoneDue ∧ TimerManagerValidate shortSlices k₀ ∧
    runEvent shortSlices (.tick true 1) k₀ = .halt (.assertion .selectRunnable) k' := by
  have hrun : (execute shortSlices (fun _ _ => True) idleHeirEvents resetKernel).any (fun k₀ =>
      decide ((k₀.lifecycle = .running ∧ k₀.readySet 2 = [.slot 1, .idle] ∧ k₀.readySet 3 = [] ∧
        k₀.currentTask = some (.slot 1) ∧ (k₀.tasks (.slot 1)).state = .running ∧
        (k₀.tasks (.slot 1)).sliceRemaining = 1 ∧ k₀.Settled) ∧ k₀.NoneDue ∧
        TimerManagerValidate shortSlices k₀ ∧ (runEvent shortSlices (.tick true 1) k₀).reason? =
          some (.assertion .selectRunnable))) = true := by
    decide +kernel
  obtain ⟨k₀, hreach, ⟨hl, hq, htop, hc, hst, hslice, hsettled⟩, hdue, hvalid, hhalt⟩ :=
    exists_reachable hrun
  refine ⟨k₀, _, hreach, ⟨hl, by decide, hq, fun q hq hq' => ?_, ⟨_, rfl, hc, hst, hslice⟩,
    hsettled⟩, hdue, hvalid, Outcome.eq_halt hhalt⟩
  have hcount : shortSlices.priorityCount = 4 := rfl
  obtain rfl : q = 3 := by omega
  exact htop

end RtsKernel
