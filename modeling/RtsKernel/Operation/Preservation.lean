import RtsKernel.Operation.Step

/-!
# What every step preserves

The consequences of the ways a step can end: the state between operations stays sound, the current
task becomes `READY` only through one kind of advance, plan and policy part only through one kind of
withdrawal, and timers, wait lists and the plan move as their own step lemmas say.
-/

namespace RtsKernel

open Halting Prog

variable {cfg : Config} {k k' : Kernel} {t c : TaskId} {ev : Event} {elapsed : Tick}

theorem Pool.congr (h : Pool cfg k) (ht : k'.tasks = k.tasks)
    (ha : k'.allocatedCount = k.allocatedCount) (hh : k'.nextFreeHint = k.nextFreeHint) :
    Pool cfg k' := by
  obtain ⟨h1, h2, h3, h4, h5⟩ := h
  rw [← ht] at h1 h2 h5
  rw [← ha] at h2 h3 h4
  exact ⟨h1, h2, h3, hh.trans h4, h5⟩

/-- Time advances only while the scheduler runs. -/
theorem Event.running_of_elapsed (h : ev.elapsed cfg k ≠ 0) : k.lifecycle = .running := by
  cases ev with
  | tick isr elapsed =>
    by_contra hl
    exact h (if_neg fun hv => hl hv.1)
  | skip isr elapsed =>
    by_contra hl
    exact h (if_neg fun hv => hl hv.1)
  | powerIdle isr result =>
    by_contra hl
    refine h ?_
    simp only [Event.elapsed]
    split
    · exact if_neg fun hv => hl hv.2.2.2.1
    · rfl
  | _ => exact absurd rfl h

/-- Whoever withdraws the timer service is running. -/
theorem Event.WithdrawsService.thread (hw : ev.WithdrawsService cfg k) (h : KernelOk cfg k)
    (hen : ev.Enabled k) (hc : k.currentTask = some c) : (k.tasks c).state = .running := by
  have hthread : ev.isr = true ∨ ThreadMayCall k → ev.isr = false → (k.tasks c).state = .running :=
    fun hcall hisr => ThreadMayCall.running h (hcall.resolve_left (by simp [hisr])) hc
  cases ev with
  | timerRestart isr i => exact hthread hen hw.1
  | timerStop isr i => exact hthread hen hw.1
  | _ => exact hw.elim

/-! ## Timer calls -/

theorem Withdrawn.withdraws (hw : Withdrawn k k') (hcall : TimerCall cfg k ev k') :
    ev.WithdrawsService cfg k := by
  obtain hb | hev := hcall.blocked hw.blocked
  · simp [hw.ready] at hb
  · exact hev

theorem TimerCall.parked (hcall : TimerCall cfg k ev k') (h : KernelOk cfg k) (hen : ev.Enabled k) :
    k'.Parked := by
  cases hcall.tended with
  | quiet same _ =>
    unfold Kernel.Parked
    rw [same]
    exact h.parked
  | withdrawn hw => exact hw.parked fun c hc => (hw.withdraws hcall).thread h hen hc

theorem TimerCall.currentReady (hcall : TimerCall cfg k ev k') (h : KernelOk cfg k)
    (hen : ev.Enabled k) (hr : k'.CurrentReady) : k.CurrentReady := by
  cases hcall.tended with
  | quiet same _ => exact same.sameSchedule.currentReady hr
  | withdrawn hw =>
    exact absurd hr (hw.not_currentReady fun c hc => (hw.withdraws hcall).thread h hen hc)

/-- A withdrawal that cancels the plan without looking for another task. -/
def Event.LosesPick (cfg : Config) (k : Kernel) (ev : Event) : Prop :=
  ev.WithdrawsService cfg k ∧ k.switchPlan.pending = true ∧
  k.switchPlan.toTask = some .timerService ∧
  policyPickNext cfg (k.removeReady .timerService) ≠ k.currentTask

instance (cfg : Config) (k : Kernel) (ev : Event) : Decidable (ev.LosesPick cfg k) :=
  inferInstanceAs (Decidable (_ ∧ _ ∧ _ ∧ _))

theorem TimerCall.agrees (hcall : TimerCall cfg k ev k') (h : KernelOk cfg k) (hen : ev.Enabled k)
    (ha : k.Agrees cfg) (hpick : ¬ ev.LosesPick cfg k) : k'.Agrees cfg := by
  cases hcall.tended with
  | quiet same _ => exact same.sameSchedule.agrees ha
  | withdrawn hw =>
    have hev := hw.withdraws hcall
    have hl : k.lifecycle = .running := h.inv.running_of_service (.inl hw.ready)
    refine hw.agrees ha (h.inv.exists_pick (by simp [hl])) (fun c hc => hev.thread h hen hc)
      fun hp hto => ?_
    by_contra hne
    exact hpick ⟨hev, hp, hto, hne⟩

theorem TimerCall.running (hcall : TimerCall cfg k ev k') (h : KernelOk cfg k)
    (hl : k.lifecycle = .running) : k'.lifecycle = .running := by
  obtain ⟨c, hc, -⟩ := h.inv.phase.current hl
  cases hcall.tended with
  | quiet same _ => rwa [same]
  | withdrawn hw => exact hcall.inv.running_of_current (hw.currentTask.trans hc)

theorem TimerCall.pool (hcall : TimerCall cfg k ev k') (h : Sound cfg k)
    (hl : k'.lifecycle ≠ .running) : Pool cfg k' := by
  cases hcall.tended with
  | quiet same _ =>
    have hlife : k'.lifecycle = k.lifecycle := by rw [same]
    exact (h.pool (hlife ▸ hl)).congr (by rw [same]) (by rw [same]) (by rw [same])
  | withdrawn hw =>
    exact absurd (hcall.running h.ok (h.ok.inv.running_of_service (.inl hw.ready))) hl

/-! ## Soundness -/

theorem Scheduled.sound (hs : Scheduled cfg k k') (h : Sound cfg k) : Sound cfg k' where
  ok := hs.ok
  timersOk := h.timersOk.congr hs.rest fun hb => .inl (hs.service.mp hb)
  pool hl := by
    have hlife : k'.lifecycle = k.lifecycle := Kernel.of_rest Kernel.lifecycle hs.rest
    rw [hlife] at hl
    exact (h.pool hl).congr (hs.unstarted hl) (Kernel.of_rest Kernel.allocatedCount hs.rest)
      (Kernel.of_rest Kernel.nextFreeHint hs.rest)

theorem Acquired.running {d : TaskId} (ha : Acquired cfg k k' d) (h : KernelOk cfg k) :
    k.lifecycle = .running := by
  by_contra hl
  simpa [ha.pending] using (h.inv.phase.still hl).2.1

theorem Acquired.rest {d : TaskId} (ha : Acquired cfg k k' d) : k'.rest = k.rest := by
  rw [ha.replanned]
  rfl

theorem Acquired.kernelOk {d : TaskId} (ha : Acquired cfg k k' d) (h : KernelOk cfg k) :
    KernelOk cfg k' := by
  have htick : k'.currentTick = k.currentTick := Kernel.of_rest Kernel.currentTick ha.rest
  refine ⟨htick ▸ ha.inv h.inv (ha.running h), fun c _ _ => .inr ?_⟩
  rw [ha.plan]

theorem Switched.kernelOk {src dst : TaskId} (hs : Switched cfg k k' src dst) (h : KernelOk cfg k) :
    KernelOk cfg k' := by
  have htick : k'.currentTick = k.currentTick := Kernel.of_rest Kernel.currentTick hs.rest
  refine ⟨htick ▸ h.inv.switched not_false hs, fun c hc hb => ?_⟩
  obtain rfl : dst = c := Option.some.inj (hs.currentTask.symm.trans hc)
  simp [hs.state_eq] at hb

/-- The scheduler, once started, keeps running. -/
theorem Stepped.running (hs : Stepped cfg k ev k') (h : KernelOk cfg k)
    (hl : k.lifecycle = .running) : k'.lifecycle = .running := by
  have hrest : k'.rest = k.rest → k'.lifecycle = .running := fun hrest =>
    (Kernel.of_rest Kernel.lifecycle hrest).trans hl
  cases hs with
  | starts _ hst => exact absurd hl hst.before
  | serves _ hsch _ _ => exact hrest hsch.rest
  | gives hg => exact hrest hg.scheduled.rest
  | calls _ hcall => exact hcall.running h hl
  | rests hr _ => exact hrest hr.rest
  | advances _ _ hadv =>
    obtain ⟨c, hc, -⟩ := h.inv.phase.current hl
    exact hadv.ok.inv.running_of_current (hadv.currentTask.trans hc)
  | acquires ha => exact hrest ha.rest
  | completes _ hsw => exact hrest hsw.rest

theorem Stepped.sound (hs : Stepped cfg k ev k') (h : Sound cfg k) (hen : ev.Enabled k) :
    Sound cfg k' := by
  have hrun : k.lifecycle = .running → k'.lifecycle ≠ .running → Pool cfg k' := fun hl hl' =>
    absurd (hs.running h.ok hl) hl'
  cases hs with
  | starts _ hst => exact ⟨hst.ok, hst.timersOk, hst.pool⟩
  | serves _ hsch _ _ => exact hsch.sound h
  | gives hg => exact hg.scheduled.sound h
  | calls _ hcall =>
    exact ⟨⟨hcall.tick ▸ hcall.inv, hcall.parked h.ok hen⟩, hcall.timers, hcall.pool h⟩
  | rests hr _ =>
    exact ⟨hr.ok, h.timersOk.congr hr.rest fun hb => .inr (hr.empty hb), hrun hen.1.1⟩
  | advances hmoved _ hadv =>
    exact ⟨hadv.ok, hadv.timersOk, hrun (Event.running_of_elapsed hmoved)⟩
  | acquires ha =>
    have htasks : k'.tasks = k.tasks := by rw [ha.replanned]
    exact ⟨ha.kernelOk h.ok, h.timersOk.congr ha.rest fun hb => .inl (htasks ▸ hb),
      hrun (ha.running h.ok)⟩
  | completes hv hsw =>
    exact ⟨hsw.kernelOk h.ok, h.timersOk.congr hsw.rest fun hb => .inl ((hsw.blocked_iff _).mp hb),
      hrun hv.1⟩

/-! ## The current task and the pick of the policy -/

theorem Switched.not_currentReady {src dst : TaskId} (hs : Switched cfg k k' src dst) :
    ¬ k'.CurrentReady := by
  rintro ⟨c, hc, hr⟩
  obtain rfl : dst = c := Option.some.inj (hs.currentTask.symm.trans hc)
  simp [hs.state_eq] at hr

theorem Stepped.currentReady (hs : Stepped cfg k ev k') (h : Sound cfg k) (hen : ev.Enabled k)
    (hr : k'.CurrentReady) : k.CurrentReady ∨ ev.ReadiesService cfg k := by
  cases hs with
  | starts _ hst => exact absurd hr hst.notReady
  | serves _ hsch _ _ => exact .inl (hsch.ready hr)
  | gives hg => exact .inl (hg.scheduled.ready hr)
  | calls _ hcall => exact .inl (hcall.currentReady h.ok hen hr)
  | rests hrest _ => exact .inl (hrest.ready hr)
  | advances hmoved _ hadv => exact (hadv.ready hr).imp_right fun hdue => ⟨hmoved, hdue⟩
  | acquires ha => exact .inl (ha.replanned.currentReady.mp hr)
  | completes _ hsw => exact absurd hr hsw.not_currentReady

/-- The plan that becomes active leads to the pick. -/
theorem Acquired.agrees {d : TaskId} (ha : Acquired cfg k k' d) (h : KernelOk cfg k)
    (hag : k.Agrees cfg) : k'.Agrees cfg := by
  have hl := ha.running h
  obtain ⟨c, hc, -⟩ := h.inv.phase.current hl
  obtain ⟨p, hp⟩ := h.inv.exists_pick (by simp [hl])
  refine ⟨fun _ _ _ _ hact => by simp [ha.plan] at hact, fun e _ hres he => .inl ?_⟩
  rw [ha.plan] at hres he
  obtain ⟨hplanned, hcancelled⟩ := hag.settled c p hc hp ha.inactive hres
  have hpc : p ≠ c := fun hpc => by simpa [ha.pending] using hcancelled hpc
  obtain rfl : e = p := Option.some.inj (he.symm.trans (hplanned hpc).2.2)
  rw [ha.replanned.pick, hp]

/-- The task that a completed switch has led to is the pick, unless a reselection is due. -/
theorem Switched.agrees {src dst : TaskId} (hs : Switched cfg k k' src dst) (hag : k.Agrees cfg) :
    k'.Agrees cfg := by
  refine ⟨fun c p hc hp _ hres => ?_,
    fun d hact => by simp [hs.switchPlan, switchPlanClear] at hact⟩
  obtain rfl : dst = c := Option.some.inj (hs.currentTask.symm.trans hc)
  rw [policyPickNext_congr hs.readySet hs.edfReady] at hp
  rw [hs.switchPlan] at hres ⊢
  obtain hpick | hne := hag.switching dst hs.active hres hs.target
  · obtain rfl : dst = p := Option.some.inj (hpick.symm.trans hp)
    exact ⟨fun hne => absurd rfl hne, fun _ => rfl⟩
  · exact absurd hs.ready hne

theorem Stepped.agrees (hs : Stepped cfg k ev k') (h : Sound cfg k) (hen : ev.Enabled k)
    (hag : k.Agrees cfg) (hnr : ¬ k'.CurrentReady) (hpick : ¬ ev.LosesPick cfg k) :
    k'.Agrees cfg := by
  cases hs with
  | starts _ hst => exact hst.agrees
  | serves _ hsch _ _ => exact hsch.agrees hag hnr
  | gives hg => exact hg.scheduled.agrees hag hnr
  | calls _ hcall => exact hcall.agrees h.ok hen hag hpick
  | rests hrest _ => exact hrest.agrees hag hnr
  | advances _ _ hadv => exact hadv.agrees hag hnr
  | acquires ha => exact ha.agrees h.ok hag
  | completes _ hsw => exact hsw.agrees hag

/-! ## Waits, owners and wait lists -/

theorem Starts.fifo (h : Starts cfg k k') : Fifo k k' := by
  intro o a b hsub
  rw [h.waiters o] at hsub
  simp at hsub

theorem Switched.fifo {src dst : TaskId} (h : Switched cfg k k' src dst) : Fifo k k' := by
  refine .of_sublist (fun o => ?_) (funext fun u => ?_)
  · cases o <;> simp [Kernel.waiters, h.semaphores, h.mutexes]
  · simp only [Kernel.prio]
    rw [h.task u]

theorem Stepped.fifo (hs : Stepped cfg k ev k') : Fifo k k' := by
  cases hs with
  | starts _ hst => exact hst.fifo
  | serves _ hsch _ _ => exact hsch.fifo
  | gives hg => exact hg.scheduled.fifo
  | calls _ hcall => exact hcall.tended.fifo
  | rests hrest _ => exact hrest.fifo
  | advances _ _ hadv => exact hadv.fifo
  | acquires ha => exact (Fifo.refl k).replanned ha.replanned
  | completes _ hsw => exact hsw.fifo

theorem Stepped.effect (hs : Stepped cfg k ev k') (h : Sound cfg k) : Effect cfg k k' ev := by
  cases hs with
  | starts still hst =>
    exact .startup (h.ok.inv.unstarted hst.before).calm hst.calm hst.semaphores still
  | serves _ _ he _ => exact he
  | gives hg => exact hg.effect false
  | calls hev hcall => exact .quiet (hcall.tended.sameWaits hcall.tick) hev.still
  | rests hrest _ => exact .quiet hrest.sameWaits rfl
  | advances hmoved hrange hadv =>
    obtain ⟨k₁, woken, hexp, hsame, hexact⟩ := hadv.waits
    exact .expires hmoved hrange hexp hexact hsame
  | acquires ha => exact .quiet ha.replanned.sameWaits rfl
  | completes _ hsw => exact .quiet hsw.sameWaits rfl

/-- Most effects leave the owners of all mutexes alone. -/
theorem Effect.owner_eq {m : Nat} (h : Effect cfg k k' ev)
    (hlock : ∀ isr timeout, ev ≠ .lock isr (some m) timeout)
    (hunlock : ∀ isr, ev ≠ .unlock isr (some m)) : (k'.mutexes m).owner = (k.mutexes m).owner := by
  have hkeeps : ∀ {k₁ : Kernel}, (k.mutexes m).SameButWaiters (k₁.mutexes m) → SameWaits k₁ k' →
      (k'.mutexes m).owner = (k.mutexes m).owner := by
    intro k₁ hk₁ hsame
    rw [hsame.owners, hk₁]
  have hother : ∀ {k₁ : Kernel} {n : Nat} {o : Option TaskId}, OwnerChanged k k₁ n o →
      SameWaits k₁ k' → n ≠ m → (k'.mutexes m).owner = (k.mutexes m).owner := by
    intro k₁ n o hch hsame hne
    rw [hsame.owners, hch.mutexes]
    exact if_neg (Ne.symm hne)
  cases h with
  | quiet same _ => exact same.owners m
  | startup before after _ _ => rw [before.owners, after.owners]
  | initialises _ same => exact same.owners m
  | delays _ _ blocks same => exact hkeeps (blocks.blocks.mutexes m) same
  | taken _ same => exact same.owners m
  | takes _ _ blocks same => exact hkeeps (blocks.blocks.mutexes m) same
  | given _ _ same => exact same.owners m
  | grants _ _ _ owners same => exact hkeeps (owners.mutexes m) same
  | @owns isr n timeout _ _ _ _ change same =>
    refine hother change same ?_
    rintro rfl
    exact hlock isr timeout rfl
  | locks _ _ blocks same => exact hkeeps (blocks.blocks.mutexes m) same
  | @disowns isr n _ _ _ _ _ change same =>
    refine hother change same ?_
    rintro rfl
    exact hunlock isr rfl
  | @handsOff isr n _ _ _ change same =>
    have hne : m ≠ n := by
      rintro rfl
      exact hunlock isr rfl
    rw [same.owners, (change.mutexes m).2, if_neg hne]
  | consumes _ same => exact same.owners m
  | expires _ _ expired _ same => rw [same.owners, expired.owners]; rfl

/-- The idle task locks a mutex. -/
def Event.IdleLocks (k : Kernel) : Event → Prop
  | .lock _ _ _ => k.currentTask = some .idle
  | _ => False

instance (k : Kernel) (ev : Event) : Decidable (ev.IdleLocks k) := by
  induction ev using Event.casesOn <;> dsimp only [Event.IdleLocks] <;> infer_instance

/-- The idle task owns only mutexes that it has locked: it never waits for one. -/
theorem Effect.idleOwns (h : Effect cfg k k' ev) (hk : KernelOk cfg k) (hlock : ¬ ev.IdleLocks k)
    (howns : k'.IdleOwns) : k.IdleOwns := by
  obtain ⟨m, hm⟩ := howns
  refine ⟨m, ?_⟩
  have hsame {k₁ : Kernel} (h₁ : (k.mutexes m).SameButWaiters (k₁.mutexes m))
      (hs : SameWaits k₁ k') : (k.mutexes m).owner = some .idle := by
    rw [← hm, hs.owners, h₁]
  by_cases hl : ∃ isr timeout, ev = .lock isr (some m) timeout
  · obtain ⟨isr, timeout, rfl⟩ := hl
    cases h with
    | quiet same _ => exact hsame rfl same
    | startup _ after _ _ => simp [after.owners] at hm
    | given event => simp at event
    | grants event => simp at event
    | expires moved => simp [Event.elapsed] at moved
    | locks _ _ blocks same => exact hsame (blocks.blocks.mutexes m) same
    | owns _ current change same =>
      rw [same.owners, change.mutexes] at hm
      have hidle : some _ = some TaskId.idle := (if_pos rfl).symm.trans hm
      exact absurd (current.trans hidle) hlock
  by_cases hu : ∃ isr, ev = .unlock isr (some m)
  · obtain ⟨isr, rfl⟩ := hu
    cases h with
    | quiet same _ => exact hsame rfl same
    | startup _ after _ _ => simp [after.owners] at hm
    | given event => simp at event
    | grants event => simp at event
    | expires moved => simp [Event.elapsed] at moved
    | disowns _ _ _ change same =>
      rw [same.owners, change.mutexes] at hm
      simp at hm
    | handsOff change same =>
      rw [same.owners, (change.mutexes m).2, if_pos rfl] at hm
      obtain rfl := Option.some.inj hm
      have hwaits := (hk.inv.locks.waiting m .idle).mp (List.mem_of_head? change.head)
      exact absurd (Tcb.awaited_eq_some.mp hwaits).1 hk.inv.idle_not_blocked
  · rw [← h.owner_eq (fun isr timeout he => hl ⟨isr, timeout, he⟩) fun isr he => hu ⟨isr, he⟩]
    exact hm

/-! ## The plan and the port -/

theorem Starts.replans (h : Starts cfg k k') (hk : KernelOk cfg k) : Replans k k' := by
  refine ⟨fun ha => ?_, fun _ => h.still.2, fun _ hp => ?_⟩
  · simp [(hk.inv.phase.still h.before).2.2.1] at ha
  · simp [h.still.1] at hp

/-- Only the parts of a context switch make a plan active or end it. -/
theorem Stepped.replans (hs : Stepped cfg k ev k') (h : Sound cfg k) (hacq : ev ≠ .acquire)
    (hcomp : ∀ snapshot stacksIntact, ev ≠ .complete snapshot stacksIntact) : Replans k k' := by
  cases hs with
  | starts _ hst => exact hst.replans h.ok
  | serves _ hsch _ _ => exact hsch.replans
  | gives hg => exact hg.scheduled.replans
  | calls _ hcall => exact hcall.tended.replans h.ok.inv.plan
  | rests hrest _ => exact hrest.replans
  | advances _ _ hadv => exact hadv.replans
  | acquires _ => exact absurd rfl hacq
  | completes _ _ => exact absurd rfl (hcomp _ _)

theorem Stepped.targetReady (hs : Stepped cfg k ev k') (h : Sound cfg k) (ht : k.TargetReady) :
    k'.TargetReady := by
  cases hs with
  | starts _ hst => exact (hst.replans h.ok).target ht
  | serves _ hsch _ _ => exact hsch.replans.target ht
  | gives hg => exact hg.scheduled.replans.target ht
  | calls _ hcall => exact (hcall.tended.replans h.ok.inv.plan).target ht
  | rests hrest _ => exact hrest.replans.target ht
  | advances _ _ hadv => exact hadv.replans.target ht
  | acquires ha => exact fun hp => by simp [ha.plan] at hp
  | completes _ hsw => exact fun hp => by simp [hsw.switchPlan, switchPlanClear] at hp

/-- Every event but a give from an interrupt, which hands its report to the caller, notifies the
port itself. -/
theorem Stepped.notifies (hs : Stepped cfg k ev k')
    (hgive : ∀ isr semaphore, ev ≠ .giveFromIsr isr semaphore) : Notifies k k' := by
  cases hs with
  | starts _ hst => exact .of_same (fun hp => by simp [hst.still.1] at hp) hst.requests
  | serves _ _ _ hn => exact hn
  | gives hg => exact absurd rfl (hgive _ _)
  | calls _ hcall => exact hcall.tended.notifies
  | rests hrest _ => exact hrest.notifies
  | advances _ _ hadv => exact hadv.notifies
  | acquires ha => exact .of_same (fun hp => by simp [ha.plan] at hp) ha.requests
  | completes _ hsw =>
    exact .of_same (fun hp => by simp [hsw.switchPlan, switchPlanClear] at hp) hsw.requests

/-! ## Timers -/

theorem Timer.expired_running {timer : Timer} {now : Tick}
    (h : (timer.expired now).callbackState = .running) : timer.callbackState = .running := by
  simp only [Timer.expired, Timer.published] at h
  split at h
  · simp at h
  · exact h

/-- A withdrawal while the timer service holds a callback. -/
def Event.SuspendsCallback (cfg : Config) (k : Kernel) (ev : Event) : Prop :=
  ev.WithdrawsService cfg k ∧ k.serviceWork ≠ none

instance (cfg : Config) (k : Kernel) (ev : Event) : Decidable (ev.SuspendsCallback cfg k) :=
  inferInstanceAs (Decidable (_ ∧ _))

theorem TimersOk.serviceWork_of_running {i : Nat} (h : TimersOk cfg k)
    (hr : (k.timers i).callbackState = .running) : k.serviceWork ≠ none := by
  obtain ⟨work, hwork, -⟩ := (h.running i).mp hr
  simp [hwork]

theorem Stepped.unsuspended (hs : Stepped cfg k ev k') (h : Sound cfg k) (hu : k.Unsuspended)
    (hev : ¬ ev.SuspendsCallback cfg k) : k'.Unsuspended := by
  have hrest : k'.rest = k.rest → ((k'.tasks .timerService).state = .blocked →
      (k.tasks .timerService).state = .blocked) → k'.Unsuspended := by
    intro hrest hback hb i
    have htimers : k'.timers = k.timers := Kernel.of_rest Kernel.timers hrest
    rw [htimers]
    exact hu (hback hb) i
  cases hs with
  | starts _ hst =>
    intro hb i
    rw [hst.timers]
    obtain hb | hreset := hst.service hb
    · exact hu hb i
    · simp [h.timersOk.fresh hreset i]
  | serves _ hsch _ _ => exact hrest hsch.rest hsch.service.mp
  | gives hg => exact hrest hg.scheduled.rest hg.scheduled.service.mp
  | calls _ hcall =>
    intro hb i hr
    have hrun := hcall.callback hb i hr
    obtain hb | hw := hcall.blocked hb
    · exact hu hb i hrun
    · exact hev ⟨hw, h.timersOk.serviceWork_of_running hrun⟩
  | rests hrests hidle =>
    intro _ i hr
    have htimers : k'.timers = k.timers := Kernel.of_rest Kernel.timers hrests.rest
    rw [htimers] at hr
    exact h.timersOk.serviceWork_of_running hr hidle
  | advances _ _ hadv =>
    intro hb i hr
    refine hu (hadv.blocked hb) i ?_
    obtain hsame | ⟨-, -, hexp⟩ := hadv.timer i
    · rwa [hsame] at hr
    · rw [hexp] at hr
      exact Timer.expired_running hr
  | acquires ha => exact hrest ha.rest fun hb => by rwa [ha.replanned] at hb
  | completes _ hsw => exact hrest hsw.rest (hsw.blocked_iff _).mp

theorem Stepped.moves (hs : Stepped cfg k ev k') (h : Sound cfg k) (i : Nat) :
    TimerMove cfg k'.currentTick i (k.timers i) (k'.timers i) := by
  have hrest : k'.rest = k.rest → TimerMove cfg k'.currentTick i (k.timers i) (k'.timers i) := by
    intro hrest
    have htimers : k'.timers = k.timers := Kernel.of_rest Kernel.timers hrest
    rw [htimers]
    exact .same
  cases hs with
  | starts _ hst =>
    rw [hst.timers]
    exact .same
  | serves _ hsch _ _ => exact hrest hsch.rest
  | gives hg => exact hrest hg.scheduled.rest
  | calls _ hcall => exact hcall.tick ▸ hcall.moves i
  | rests hrests _ => exact hrest hrests.rest
  | advances _ _ hadv =>
    obtain hsame | ⟨hact, hreached, hexp⟩ := hadv.timer i
    · rw [hsame]
      exact .same
    · rw [hexp, hadv.tick]
      exact .expired ((h.timersOk.slot i).set_of_active hact) hact hreached
  | acquires ha => exact hrest ha.rest
  | completes _ hsw => exact hrest hsw.rest

/-- After the initialisation the clock moves by what the event says. -/
theorem Stepped.tick (hs : Stepped cfg k ev k') (hl : k.lifecycle ≠ .reset) :
    k'.currentTick = k.currentTick + ev.elapsed cfg k := by
  have hstill : ev.elapsed cfg k = 0 → k'.currentTick = k.currentTick →
      k'.currentTick = k.currentTick + ev.elapsed cfg k := by
    intro hzero htick
    rw [htick, hzero]
    exact (BitVec.add_zero _).symm
  have hrest : ev.elapsed cfg k = 0 → k'.rest = k.rest →
      k'.currentTick = k.currentTick + ev.elapsed cfg k := fun hzero hrest =>
    hstill hzero (Kernel.of_rest Kernel.currentTick hrest)
  cases hs with
  | starts still hst => exact hstill still (hst.tick hl)
  | serves still hsch _ _ => exact hrest still hsch.rest
  | gives hg => exact hrest rfl hg.scheduled.rest
  | calls hev hcall => exact hstill hev.still hcall.tick
  | rests hrests _ => exact hrest rfl hrests.rest
  | advances _ _ hadv => exact hadv.tick
  | acquires ha => exact hrest rfl ha.rest
  | completes _ hsw => exact hrest rfl hsw.rest

theorem Stepped.ahead (hs : Stepped cfg k ev k') (ha : k.Ahead)
    (hspread : k.Spread (k.currentTick + ev.elapsed cfg k)) : k'.Ahead := by
  cases hs with
  | starts _ hst => exact hst.ahead ha
  | serves _ hsch _ _ => exact ha.congr hsch.rest
  | gives hg => exact ha.congr hg.scheduled.rest
  | calls _ hcall => exact hcall.ahead ha
  | rests hrests _ => exact ha.congr hrests.rest
  | advances _ _ hadv => exact hadv.ahead ha hspread
  | acquires hacq => exact ha.congr hacq.rest
  | completes _ hsw => exact ha.congr hsw.rest

/-- An advance that stays within all that remains finds due only what is due at its last tick. -/
theorem Kernel.Ahead.spread {elapsed : Tick} (ha : k.Ahead) (ht : TimersOk cfg k)
    (he : elapsed ≤ delayMax)
    (hle : ∀ i ∈ k.activeQueue, elapsed.toNat ≤ distance k.currentTick (k.expiration i)) :
    k.Spread (k.currentTick + elapsed) := by
  refine List.pairwise_of_forall_mem_list fun i hi j hj hdue hdue' hmode => ?_
  have hset := (ht.slot i).set_of_active ((ht.mem i).mp hi)
  have hnext := distance_timerPeriodicNext hdue hset.period.1 hset.period.2
  have hlt := toNat_le_of_le_delayMax hset.period.2
  have hexact : k.expiration j = k.currentTick + elapsed := by
    rw [tickReached_add_iff he (ha.window j hj).2] at hdue'
    have heq : distance k.currentTick (k.expiration j) = elapsed.toNat :=
      le_antisymm hdue' (hle j hj)
    unfold distance at heq
    bv_omega
  rw [hexact]
  omega

theorem Kernel.Ahead.spread_one {elapsed : Tick} (ha : k.Ahead) (ht : TimersOk cfg k)
    (he : elapsed.toNat ≤ 1) : k.Spread (k.currentTick + elapsed) := by
  refine ha.spread ht (BitVec.le_def.mpr ?_) fun i hi => he.trans (ha.window i hi).1
  exact he.trans (by decide)

/-! ## Reachable states -/

theorem Step.stepped (hs : Step cfg k ev k') (h : Sound cfg k) : Stepped cfg k ev k' :=
  (wp_ret (runEvent_spec h hs.1) hs.2 :)

theorem Sound.step (h : Sound cfg k) (hs : Step cfg k ev k') : Sound cfg k' :=
  (hs.stepped h).sound h hs.1

theorem unstarted_resetKernel : Unstarted cfg resetKernel where
  lifecycle := by simp [resetKernel]
  tasks t := .default t
  plain _ := .default
  state _ := .inl rfl
  ready := .empty fun t ht => by simp [resetKernel, Tcb.Runnable] at ht
  reset _ _ := rfl
  named hr := by simp [resetKernel] at hr
  still := ⟨rfl, rfl, rfl⟩
  delayQueue := rfl
  semaphores _ := ⟨⟨by simp [resetKernel], by simp [resetKernel], by simp [resetKernel]⟩, rfl⟩
  mutexes _ := ⟨rfl, rfl, rfl, rfl⟩

theorem sound_resetKernel : Sound cfg resetKernel :=
  ⟨unstarted_resetKernel.kernelOk, (timersReset_restoreReset resetKernel).timersOk,
    fun _ => pool_restoreReset resetKernel⟩

theorem ReachableWhen.sound {allowed : Kernel → Event → Prop} (h : ReachableWhen cfg allowed k) :
    Sound cfg k :=
  h.invariant sound_resetKernel fun _ _ _ hk _ hs => hk.step hs

/-- A property that steps from sound states preserve holds in every state reached. -/
theorem ReachableWhen.invariant {allowed : Kernel → Event → Prop} {P : Kernel → Prop}
    (h : ReachableWhen cfg allowed k) (h0 : P resetKernel)
    (hstep : ∀ k ev k', Sound cfg k → Step cfg k ev k' → Stepped cfg k ev k' → allowed k ev → P k →
      P k') : P k := by
  refine (Transition.ReachableFrom.invariant (P := fun k => Sound cfg k ∧ P k) h
    ⟨sound_resetKernel, h0⟩ fun k ev k' hk ha hs => ?_).2
  exact ⟨hk.1.step hs, hstep k ev k' hk.1 hs (hs.stepped hk.1) ha hk.2⟩

/-- As long as the idle task locks no mutex, it owns none. -/
theorem ReachableWhen.not_idleOwns {allowed : Kernel → Event → Prop}
    (h : ReachableWhen cfg allowed k) (ha : ∀ k ev, allowed k ev → ¬ ev.IdleLocks k) :
    ¬ k.IdleOwns := by
  refine h.invariant (P := fun k => ¬ k.IdleOwns) ?_ fun k ev k' hk _ hs hev hnot howns =>
    hnot ((hs.effect hk).idleOwns hk.ok (ha k ev hev) howns)
  rintro ⟨m, hm⟩
  simp [resetKernel] at hm

end RtsKernel
