import RtsKernel.Operation.Start
import RtsKernel.Operation.Task

/-!
# One step of the kernel

Every event ends in one of a few ways (`Stepped`), whatever state between operations it starts in
(`Sound`). What holds in every reachable state follows from these cases and from nothing else.
-/

namespace RtsKernel

open Halting Prog

variable {cfg : Config} {k k₁ k' : Kernel} {c : TaskId} {ev : Event} {elapsed : Tick} {b : Bool}

/-! ## Advances -/

/-- What a time event leaves behind once its report has reached the port. -/
structure Advances (cfg : Config) (k : Kernel) (elapsed : Tick) (k' : Kernel) : Prop
    extends Ticked cfg k elapsed k' where
  ok : KernelOk cfg k'
  selected : SameSchedule k k' ∨ (¬ k'.CurrentReady → k'.Agrees cfg)
  replans : Replans k k'
  notifies : Notifies k k'

theorem Advances.agrees (h : Advances cfg k elapsed k') (ha : k.Agrees cfg)
    (hr : ¬ k'.CurrentReady) : k'.Agrees cfg := by
  obtain hs | hsel := h.selected
  · exact hs.agrees ha
  · exact hsel hr

theorem KernelOk.sameTasks (h : KernelOk cfg k) (hs : SameTasks k k')
    (htick : k'.currentTick = k.currentTick) : KernelOk cfg k' := by
  refine ⟨htick ▸ h.inv.sameTasks hs, ?_⟩
  unfold Kernel.Parked
  rw [hs]
  exact h.parked

theorem Advanced.count (h : Advanced cfg k elapsed b k') (f : RuntimeCounters → RuntimeCounters) :
    Advanced cfg k elapsed b (k'.count f) := by
  have hs := (SameTasks.count k' f).sameSchedule
  have hticked : Ticked cfg k elapsed (k'.count f) :=
    h.toTicked.congr (k'.rest_count f) (sameWaits_count k' f) ⟨rfl, rfl⟩ (fun _ => rfl) rfl
  have hout : Outcome cfg k' (k'.count f) :=
    .of_sameSchedule (h.ok.sameTasks (.count k' f) rfl).inv h.ok.parked hs
  exact ⟨hticked, hout.ok, h.selected.imp (·.trans hs) fun hsel hr => hs.agrees (hsel hr),
    ⟨h.replans.executing, h.replans.idle, h.replans.target⟩, h.requests, h.reported⟩

/-- The counters do not matter to an advance. -/
theorem Advanced.of_count {f : RuntimeCounters → RuntimeCounters}
    (h : Advanced cfg (k.count f) elapsed b k') : Advanced cfg k elapsed b k' := by
  obtain ⟨⟨h1, h2, h3, h4, ⟨k₁, woken, hexp, hsame, hexact⟩, h6, h7, h8, h9, h10, h11⟩, h12,
    h13, h14, h15, h16⟩ := h
  refine ⟨⟨h1, h2, h3, h4, ⟨k₁, woken, ?_, hsame, hexact⟩, h6, fun ha => h7 ⟨ha.window, ha.sorted⟩,
    h8, h9, h10, h11⟩, h12, h13.imp (fun hs => (SameTasks.count k f).sameSchedule.trans hs) id,
    ⟨h14.executing, h14.idle, h14.target⟩, h15, h16⟩
  exact hexp.of_aside rfl rfl rfl

theorem Advanced.advances (h : Advanced cfg k elapsed b k') :
    Advances cfg k elapsed (k'.notify b) := by
  have hs : SameSchedule k' (k'.notify b) := ⟨rfl, rfl, rfl, rfl, fun _ => rfl⟩
  have hout : Outcome cfg k' (k'.notify b) :=
    .of_sameSchedule (h.ok.inv.sameTasks rfl) h.ok.parked hs
  exact ⟨h.toTicked.replanned (.notify k' b), hout.ok,
    h.selected.imp (·.trans hs) fun hsel hr => hs.agrees (hsel hr),
    ⟨h.replans.executing, h.replans.idle, h.replans.target⟩, .of_report h.requests h.reported⟩

theorem Tolerated.mono {ready ready' owns : Prop} {e : Fatal} (h : ready → ready')
    (ht : Tolerated ready owns e k) : Tolerated ready' owns e k := by
  cases e with
  | assertion site => exact ⟨ht.1, fun hout => h (ht.2 hout)⟩
  | stackCorruption => trivial
  | timerCorruption => exact ht
  | timerCallbackQueueOverflow => exact ht

/-- What a time entry does with an elapsed value. -/
structure Admits (cfg : Config) (k : Kernel) (contextOk : Bool) (elapsed : Tick) (report : Bool)
    (k' : Kernel) : Prop where
  advanced : AdvanceIsValid k contextOk elapsed → Advanced cfg k elapsed report k'
  refused : ¬ AdvanceIsValid k contextOk elapsed → report = false ∧ k' = k

theorem kernelAdvance_spec {contextOk : Bool} (h : KernelOk cfg k) (ht : TimersOk cfg k) :
    wp (kernelAdvance cfg contextOk elapsed) (Admits cfg k contextOk elapsed)
      (Tolerated (k.CurrentReady ∨ AdvanceIsValid k contextOk elapsed ∧ k.ServiceDue elapsed)
        k.IdleOwns) k := by
  unfold kernelAdvance
  rw [wp_bind, wp_get, wp_bind, wp_rtsAssert]
  refine ⟨fun _ => ?_, fun _ => ⟨by simp [Site.Excluded], by simp [Site.Outgoing]⟩⟩
  rw [wp_ite]
  split <;> rename_i hvalid
  · refine wp_mono (wp_kernelTimeAdvanceCommon h ht hvalid.1 hvalid.2.2.2) (fun b k' hadv => ?_)
      fun _ _ hhalt => hhalt.tolerated.mono (.imp_right fun hdue => ⟨hvalid, hdue⟩)
    exact ⟨fun _ => hadv, fun hnot => absurd hvalid hnot⟩
  · exact ⟨fun hv => absurd hv hvalid, fun _ => ⟨rfl, rfl⟩⟩

/-! ## The ways a step can end -/

/-- What holds between operations. -/
structure Sound (cfg : Config) (k : Kernel) : Prop where
  ok : KernelOk cfg k
  timersOk : TimersOk cfg k
  pool : k.lifecycle ≠ .running → Pool cfg k

/-- An advance that wakes the timer service while it is still the current task. -/
def Event.ReadiesService (cfg : Config) (k : Kernel) (ev : Event) : Prop :=
  ev.elapsed cfg k ≠ 0 ∧ k.ServiceDue (ev.elapsed cfg k)

instance (cfg : Config) (k : Kernel) (ev : Event) : Decidable (ev.ReadiesService cfg k) :=
  inferInstanceAs (Decidable (_ ∧ _))

/-- The events that act on a timer. -/
def Event.ControlsTimer : Event → Prop
  | .timerInit _ _ | .timerStart _ _ | .timerRestart _ _ | .timerStop _ _ | .serviceBegin
  | .serviceEnd => True
  | _ => False

/-- How an event can end. -/
inductive Stepped (cfg : Config) (k : Kernel) : Event → Kernel → Prop where
  | starts {ev : Event} {k' : Kernel} (still : ev.elapsed cfg k = 0) (starts : Starts cfg k k') :
      Stepped cfg k ev k'
  | serves {ev : Event} {k' : Kernel} (still : ev.elapsed cfg k = 0)
      (scheduled : Scheduled cfg k k')
      (effect : Effect cfg k k' ev) (notifies : Notifies k k') : Stepped cfg k ev k'
  | gives {isr : Bool} {semaphore : Option Nat} {r : Status × Bool} {k' : Kernel}
      (gives : Gives cfg k (.giveFromIsr isr semaphore) r k') :
      Stepped cfg k (.giveFromIsr isr semaphore) k'
  | calls {ev : Event} {k' : Kernel} (event : ev.ControlsTimer) (call : TimerCall cfg k ev k') :
      Stepped cfg k ev k'
  | rests {k' : Kernel} (rests : Rests cfg k k') (idle : k.serviceWork = none) :
      Stepped cfg k .serviceRest k'
  | advances {ev : Event} {k' : Kernel} (moved : ev.elapsed cfg k ≠ 0)
      (range : ev.elapsed cfg k ≤ delayMax) (advances : Advances cfg k (ev.elapsed cfg k) k') :
      Stepped cfg k ev k'
  | acquires {k' : Kernel} {d : TaskId} (acquired : Acquired cfg k k' d) : Stepped cfg k .acquire k'
  | completes {snapshot : SwitchSnapshot} {stacksIntact : Bool} {k' : Kernel}
      (valid : CompletePlanIsValid cfg k snapshot)
      (switched : Switched cfg k k' snapshot.fromTask snapshot.toTask) :
      Stepped cfg k (.complete snapshot stacksIntact) k'

theorem Stepped.unchanged (h : KernelOk cfg k) (still : ev.elapsed cfg k = 0) :
    Stepped cfg k ev k := .serves still (.refl h) (.quiet (.refl k) still) (.refl k)

theorem Served.stepped {status : Status} (h : Served cfg k ev status k')
    (still : ev.elapsed cfg k = 0) : Stepped cfg k ev k' :=
  .serves still h.scheduled h.effect h.notifies

theorem Event.ControlsTimer.still (h : ev.ControlsTimer) : ev.elapsed cfg k = 0 := by
  cases ev <;> first | rfl | exact h.elim

/-- Only an advance moves the clock. -/
theorem Stepped.advances_of_moved (h : Stepped cfg k ev k') (hmoved : ev.elapsed cfg k ≠ 0) :
    Advances cfg k (ev.elapsed cfg k) k' := by
  cases h with
  | starts still _ => exact absurd still hmoved
  | serves still _ _ _ => exact absurd still hmoved
  | calls hev _ => exact absurd hev.still hmoved
  | advances _ _ hadv => exact hadv
  | _ => exact absurd rfl hmoved

theorem Advanced.stepped (h : Advanced cfg k (ev.elapsed cfg k) b k') (moved : ev.elapsed cfg k ≠ 0)
    (range : ev.elapsed cfg k ≤ delayMax) : Stepped cfg k ev (k'.notify b) :=
  .advances moved range h.advances

/-- The end of a startup operation. -/
theorem stepped_of_starts (h : KernelOk cfg k) (still : ev.elapsed cfg k = 0)
    (hs : Starts cfg k k' ∨ k' = k) : Stepped cfg k ev k' := by
  obtain hs | rfl := hs
  · exact .starts still hs
  · exact .unchanged h still

/-- An entry that passes its report on to the port. -/
theorem wp_advanceEntry {contextOk : Bool} (h : Sound cfg k)
    (hev : ev.elapsed cfg k = if AdvanceIsValid k contextOk elapsed then elapsed else 0) :
    wp (kernelAdvance cfg contextOk elapsed >>= fun notify => notifyPort notify)
      (fun _ => Stepped cfg k ev)
          (Tolerated (k.CurrentReady ∨ ev.ReadiesService cfg k) k.IdleOwns) k := by
  rw [wp_bind]
  refine wp_mono (kernelAdvance_spec h.ok h.timersOk) (fun b k' hadm => ?_) fun e k' => ?_
  · apply wp_notifyPort
    by_cases hvalid : AdvanceIsValid k contextOk elapsed
    · rw [if_pos hvalid] at hev
      exact (hev ▸ hadm.advanced hvalid).stepped (hev ▸ hvalid.2.2.1) (hev ▸ hvalid.2.2.2)
    · rw [if_neg hvalid] at hev
      obtain ⟨rfl, rfl⟩ := hadm.refused hvalid
      exact .unchanged h.ok hev
  · refine .mono (.imp_right fun ⟨hvalid, hdue⟩ => ?_)
    rw [if_pos hvalid] at hev
    exact ⟨hev ▸ hvalid.2.2.1, hev ▸ hdue⟩

theorem Scheduled.count (h : KernelOk cfg k) (f : RuntimeCounters → RuntimeCounters) :
    Scheduled cfg k (k.count f) where
  toOutcome :=
    .of_sameSchedule (h.inv.sameTasks (.count k f)) h.parked (SameTasks.count k f).sameSchedule
  rest := k.rest_count f
  currentTask := rfl
  unstarted _ := rfl
  service := Iff.rfl
  fifo := .of_sublist (fun _ => .refl _) rfl
  replans := .of_same rfl fun _ => id

theorem Stepped.counts (h : KernelOk cfg k) (still : ev.elapsed cfg k = 0)
    (f : RuntimeCounters → RuntimeCounters) : Stepped cfg k ev (k.count f) :=
  .serves still (.count h f) (.quiet (sameWaits_count k f) still) (.of_same id rfl)

theorem Sound.count (h : Sound cfg k) (f : RuntimeCounters → RuntimeCounters) :
    Sound cfg (k.count f) where
  ok := h.ok.sameTasks (.count k f) rfl
  timersOk := h.timersOk.congr (k.rest_count f) .inl
  pool hl :=
    let hp := h.pool hl
    ⟨hp.fresh, hp.taken, hp.count_le, hp.hint, hp.slice⟩

theorem powerPlanCompute_eq_none {isr : Bool} (h : ¬ PowerSleepIsAllowed cfg k isr) :
    powerPlanCompute cfg k isr = none := if_neg h

theorem Kernel.count_count (k : Kernel) (f g : RuntimeCounters → RuntimeCounters) :
    (k.count f).count g = k.count fun c => g (f c) := rfl

/-- A sleep of no ticks, or of ticks that are skipped at once. -/
theorem wp_sleep {isr : Bool} {f g : RuntimeCounters → RuntimeCounters} (h : Sound cfg k)
    (hev : ev.elapsed cfg k = if AdvanceIsValid k (!isr) elapsed then elapsed else 0) :
    wp (do
        let requestSwitch ← if elapsed ≠ 0 then kernelTimeSkip cfg isr elapsed else pure false
        modify fun k => k.count g
        notifyPort requestSwitch)
      (fun _ => Stepped cfg k ev) (Tolerated (k.CurrentReady ∨ ev.ReadiesService cfg k) k.IdleOwns)
      (k.count f) := by
  have hrefused : ev.elapsed cfg k = 0 → Stepped cfg k ev (((k.count f).count g).notify false) :=
    fun still => .counts h.ok still fun c => g (f c)
  simp only [wp_ite, wp_bind]
  split <;> rename_i hzero
  · refine wp_mono (kernelAdvance_spec (h.count f).ok (h.count f).timersOk) (fun b k' hadm => ?_)
      fun e k' => ?_
    · rw [wp_modify]
      apply wp_notifyPort
      by_cases hvalid : AdvanceIsValid k (!isr) elapsed
      · rw [if_pos hvalid] at hev
        have hadv : Advanced cfg k (ev.elapsed cfg k) b (k'.count g) :=
          hev ▸ (hadm.advanced hvalid).of_count.count g
        exact hadv.stepped (hev ▸ hzero) (hev ▸ hvalid.2.2.2)
      · rw [if_neg hvalid] at hev
        obtain ⟨rfl, rfl⟩ := hadm.refused hvalid
        exact hrefused hev
    · refine .mono (.imp_right ?_)
      rintro ⟨hvalid, hdue⟩
      have hvalid : AdvanceIsValid k (!isr) elapsed := hvalid
      rw [if_pos hvalid] at hev
      exact ⟨hev ▸ hzero, hev ▸ hdue⟩
  · rw [not_not] at hzero
    rw [wp_pure, wp_modify]
    refine wp_notifyPort (hrefused ?_)
    rw [hev, hzero, ite_self]

theorem powerIdle_spec {isr : Bool} {result : SleepResult} (h : Sound cfg k) :
    wp (powerIdle cfg isr result) (fun _ => Stepped cfg k (.powerIdle isr result))
      (Tolerated (k.CurrentReady ∨ Event.ReadiesService cfg k (.powerIdle isr result))
        k.IdleOwns) k := by
  have htol : ∀ k', Tolerated (k.CurrentReady ∨ Event.ReadiesService cfg k (.powerIdle isr result))
      k.IdleOwns (.assertion .power) k' :=
        fun _ => ⟨by simp [Site.Excluded], by simp [Site.Outgoing]⟩
  unfold powerIdle powerAssertDeadline
  rw [wp_bind, wp_get, wp_ite]
  split <;> rename_i hallowed
  · refine .unchanged h.ok ?_
    simp only [Event.elapsed, powerPlanCompute_eq_none hallowed]
  rw [wp_bind, wp_modify, wp_bind, wp_rtsAssert]
  refine ⟨fun _ => ?_, fun _ => htol _⟩
  rw [wp_bind, wp_rtsAssert]
  refine ⟨fun _ => ?_, fun _ => htol _⟩
  cases hplan : powerPlanCompute cfg k isr with
  | none =>
    refine .counts h.ok ?_ _
    simp only [Event.elapsed, hplan]
  | some sleepTicks =>
    simp only []
    rw [wp_bind, wp_rtsAssert]
    refine ⟨fun _ => ?_, fun _ => htol _⟩
    rw [wp_ite]
    split <;> rename_i hvalid
    · rw [wp_modify, Kernel.count_count]
      refine .counts h.ok ?_ _
      simp only [Event.elapsed, hplan]
      exact if_neg fun hall => hvalid ⟨hall.1, hall.2.1, hall.2.2.1⟩
    · rw [not_not] at hvalid
      rw [wp_bind, wp_modify, Kernel.count_count]
      refine wp_sleep h ?_
      simp only [Event.elapsed, hplan]
      refine if_congr ?_ rfl rfl
      exact ⟨fun hall => hall.2.2.2, fun hadv => ⟨hvalid.1, hvalid.2.1, hvalid.2.2, hadv⟩⟩

/-! ## The step theorem -/

theorem Shifts.refl (hl : k.lifecycle = .running) : Shifts k k :=
  ⟨rfl, hl, rfl, id, Iff.rfl, .refl k, rfl, rfl, fun _ => id⟩

theorem reselect_spec (h : KernelOk cfg k) (hl : k.lifecycle = .running) :
    wp (runEvent cfg .reselect) (fun _ => Stepped cfg k .reselect)
      (Tolerated k.CurrentReady k.IdleOwns) k := by
  have htol : Tolerated k.CurrentReady k.IdleOwns (.assertion .reselectCurrent) k :=
    ⟨by simp [Site.Excluded], by simp [Site.Outgoing]⟩
  unfold runEvent
  rw [wp_bind]
  refine wp_reselectAfterSwitch h.inv not_false hl (fun _ => ?_) (fun b k' hp => ?_)
    (fun _ _ => tolerated_selectRunnable _ _ _) (fun hr => tolerated_prepareOutgoing hr _)
    fun _ => htol
  · exact wp_notifyPort (.unchanged h rfl)
  · refine wp_notifyPort
      (.serves rfl (((Shifts.refl hl).scheduled h.inv hp).notify b) (.quiet ?_ rfl)
      ((Shifts.refl hl).notifies hp))
    exact (hp.replanned.trans (.notify k' b)).sameWaits

theorem acquire_spec (h : KernelOk cfg k) (hl : k.lifecycle = .running) :
    wp (runEvent cfg .acquire) (fun _ => Stepped cfg k .acquire)
      (Tolerated k.CurrentReady k.IdleOwns) k := by
  unfold runEvent
  rw [wp_bind]
  refine wp_switchAcquire h.inv not_false hl (fun _ => ?_) (fun _ k' d ha _ => ?_) (fun _ => ?_)
    fun hr => ?_
  · exact .unchanged h rfl
  · exact .acquires ha
  · exact ⟨by simp [Site.Excluded], by simp [Site.Outgoing]⟩
  · exact ⟨by simp [Site.Excluded], fun _ => hr⟩

theorem complete_spec {snapshot : SwitchSnapshot} {stacksIntact : Bool} (h : KernelOk cfg k) :
    wp (runEvent cfg (.complete snapshot stacksIntact))
      (fun _ => Stepped cfg k (.complete snapshot stacksIntact))
          (Tolerated k.CurrentReady k.IdleOwns) k := by
  refine wp_switchComplete h.inv not_false (fun _ => ?_) (fun k' hv hsw => ?_) (fun _ => ?_)
    (fun hr => ?_) fun _ => ?_
  · exact .unchanged h rfl
  · exact .completes hv hsw
  · exact ⟨by simp [Site.Excluded], by simp [Site.Outgoing]⟩
  · exact ⟨by simp [Site.Excluded], fun _ => hr⟩
  · trivial

/-- The caller of a thread-context call is running. -/
theorem ThreadMayCall.running (h : KernelOk cfg k) (hm : ThreadMayCall k)
    (hc : k.currentTask = some c) : (k.tasks c).state = .running := by
  obtain hl | ⟨d, hd, hst, -⟩ := hm
  · exact absurd (h.inv.running_of_current hc) hl
  · exact Option.some.inj (hd.symm.trans hc) ▸ hst

theorem runEvent_spec (h : Sound cfg k) (hen : ev.Enabled k) :
    wp (runEvent cfg ev) (fun _ => Stepped cfg k ev)
      (Tolerated (k.CurrentReady ∨ ev.ReadiesService cfg k) k.IdleOwns) k := by
  have hlift : ∀ {m : KernelM Unit},
      wp m (fun _ => Stepped cfg k ev) (Tolerated k.CurrentReady k.IdleOwns) k → wp m (fun _ =>
      Stepped cfg k ev) (Tolerated (k.CurrentReady ∨ ev.ReadiesService cfg k) k.IdleOwns) k :=
    fun hm => wp_mono hm (fun _ _ => id) fun _ _ => .mono .inl
  have hvia : ∀ {α : Type} {m : KernelM α} {Q : α → Kernel → Prop},
      wp m Q (Tolerated k.CurrentReady k.IdleOwns) k → (∀ a k', Q a k' → Stepped cfg k ev k') →
      wp (m >>= fun _ => pure ()) (fun _ => Stepped cfg k ev)
        (Tolerated (k.CurrentReady ∨ ev.ReadiesService cfg k) k.IdleOwns) k :=
    fun hm hQ => (wp_bind ..).mpr (wp_mono hm (fun a k' => hQ a k') fun _ _ => .mono .inl)
  have hthread : ev.isr = false → ev.isr = true ∨ ThreadMayCall k → ∀ c, k.currentTask = some c →
      (k.tasks c).state = .running := fun hisr hcall c hc =>
    ThreadMayCall.running h.ok (hcall.resolve_left (by simp [hisr])) hc
  cases ev with
  | init isr port =>
    exact hvia (init_spec h.ok h.timersOk) fun _ k' hi => stepped_of_starts h.ok rfl hi.starts
  | taskCreate isr config outHandle stack =>
    exact hvia (taskCreate_spec h.ok h.timersOk h.pool)
      fun _ k' hi => stepped_of_starts h.ok rfl hi.starts
  | start isr tickOk firstTaskOk =>
    exact hvia (start_spec h.ok h.timersOk h.pool)
      fun _ k' hi => stepped_of_starts h.ok rfl hi.starts
  | timerInit isr config =>
    exact hvia (timerInit_spec h.ok h.timersOk) fun _ _ hc => .calls trivial hc.call
  | semaphoreInit isr s n max => exact hvia (semaphoreInit_spec h.ok) fun _ _ hs => hs.stepped rfl
  | mutexInit isr m => exact hvia (mutexInit_spec h.ok) fun _ _ hs => hs.stepped rfl
  | yield isr =>
    exact hvia (taskYield_spec h.ok)
      fun _ _ hy => .serves rfl hy.scheduled (.quiet hy.same rfl) hy.notifies
  | delay isr d =>
    exact hvia (taskDelay_spec h.ok) fun _ _ hd => .serves rfl hd.scheduled hd.effect hd.notifies
  | take isr s timeout => exact hvia (semaphoreTake_spec h.ok) fun _ _ hs => hs.stepped rfl
  | give isr s => exact hvia (semaphoreGive_spec h.ok) fun _ _ hs => hs.stepped rfl
  | giveFromIsr isr s => exact hvia (semaphoreGiveFromIsr_spec h.ok) fun _ _ => .gives
  | lock isr m timeout =>
    exact hvia (mutexLock_spec h.ok fun c hisr => hthread hisr hen c) fun _ _ hs => hs.stepped rfl
  | unlock isr m => exact hvia (mutexUnlock_spec h.ok) fun _ _ hs => hs.stepped rfl
  | consume =>
    refine hlift ?_
    unfold runEvent
    rw [wp_bind, wp_get]
    cases hc : k.currentTask with
    | none => exact .unchanged h.ok rfl
    | some c =>
      rw [wp_bind]
      exact wp_mono (consume_spec h.ok hc) (fun _ _ hs => .serves rfl hs.1 hs.2.1 hs.2.2)
        fun _ _ => id
  | timerStart isr i =>
    exact hvia (timerStart_spec h.ok h.timersOk) fun _ _ hs => .calls trivial hs.call
  | timerRestart isr i =>
    exact hvia (timerRestart_spec h.ok h.timersOk fun hisr => hthread hisr hen)
      fun _ _ hs => .calls trivial hs.call
  | timerStop isr i =>
    exact hvia (timerStop_spec h.ok h.timersOk fun hisr => hthread hisr hen)
      fun _ _ hs => .calls trivial hs.call
  | serviceBegin =>
    exact hvia (timerServiceBegin_spec h.ok h.timersOk hen.1 hen.2) fun _ _ hb =>
      .calls trivial hb.call
  | serviceEnd =>
    refine hlift ?_
    unfold runEvent
    rw [wp_bind, wp_get]
    cases hwork : k.serviceWork with
    | none => exact .unchanged h.ok rfl
    | some work =>
      exact wp_mono (timerServiceEnd_spec h.ok h.timersOk hen.1 hwork)
        (fun _ _ he => .calls trivial he.call)
        fun _ _ => id
  | serviceRest =>
    exact hlift
      (wp_mono (timerServiceRest_spec h.ok hen.1) (fun _ _ hr => .rests hr hen.2) fun _ _ => id)
  | tick isr elapsed => exact wp_advanceEntry h rfl
  | skip isr elapsed => exact wp_advanceEntry h rfl
  | powerIdle isr result => exact powerIdle_spec h
  | acquire => exact hlift (acquire_spec h.ok hen)
  | complete snapshot stacksIntact => exact hlift (complete_spec h.ok)
  | reselect => exact hlift (reselect_spec h.ok hen.1)

end RtsKernel
