import RtsKernel.Model.Run
import RtsKernel.Operation.Preservation

/-!
# The current task and the switch plan

## Main results

* `current_task_legal`: the current task is running, or blocked on its way out.
* `plan_agrees_with_policy`: the plan leads to the pick of the policy.
* `switch_plan_protocol`: how plans come about, are executed and are reported to the port.

The first two hold in runs that avoid one step each: an advance that wakes the timer service while
it is still the current task, and a withdrawal of the timer service that leaves the plan to it
without another one.
-/

namespace RtsKernel

open Halting Prog

variable {cfg : Config} {k k' : Kernel} {c : TaskId} {ev : Event}

/-! ## Legality of the current task -/

/-- The current task is running, or blocked with a switch away from it planned or under way, and
passes the check of the outgoing task. -/
def Kernel.Legal (cfg : Config) (k : Kernel) : Prop :=
  ∃ c, k.currentTask = some c ∧ SwitchOutgoingIsValid cfg k c ∧
    ((k.tasks c).state = .running ∨ (k.tasks c).state = .blocked ∧
      (k.switchPlan.pending = true ∨ k.switchPlan.active = true) ∧
      k.switchPlan.fromTask = some c)

theorem Sound.legal (h : Sound cfg k) (hl : k.lifecycle = .running) (hr : ¬ k.CurrentReady) :
    k.Legal cfg := by
  obtain ⟨c, hc, hd⟩ := h.ok.inv.phase.current hl
  have hnr : (k.tasks c).state ≠ .ready := fun hst => hr ⟨c, hc, hst⟩
  refine ⟨c, hc, (h.ok.inv.switchOutgoingIsValid_iff not_false hc).mpr hnr, ?_⟩
  cases hst : (k.tasks c).state with
  | dormant => exact absurd hst hd
  | ready => exact absurd hst hnr
  | running => exact .inl rfl
  | blocked =>
    have hplan := h.ok.parked c hc hst
    exact .inr ⟨rfl, hplan, (h.ok.inv.plan.source hplan).trans hc⟩

theorem ReachableWhen.not_currentReady {allowed : Kernel → Event → Prop}
    (h : ReachableWhen cfg allowed k) (hall : ∀ k ev, allowed k ev → ¬ ev.ReadiesService cfg k) :
    ¬ k.CurrentReady := by
  refine h.invariant (P := fun k => ¬ k.CurrentReady) (fun hr => ?_)
    fun k ev k' hk hs hst ha hn => ?_
  · obtain ⟨c, hc, -⟩ := hr
    simp [resetKernel] at hc
  · exact fun hr => (hst.currentReady hk hs.1 hr).elim hn (hall k ev ha)

/-- In runs without an advance that wakes the timer service while it is still current, the current
task is legal whenever the scheduler runs, no event halts because of the outgoing task, and no
advance has its selection refused. -/
theorem current_task_legal
    (h : ReachableWhen cfg (fun k ev => ¬ ev.ReadiesService cfg k) k)
    (hl : k.lifecycle = .running) : k.Legal cfg ∧ ∀ ev, ev.Enabled k → ¬ ev.ReadiesService cfg k →
      wp (runEvent cfg ev)
        (fun _ k' => ev.elapsed cfg k ≠ 0 → SameSchedule k k' ∨ k'.Agrees cfg)
        (fun e _ => ∀ site, e = .assertion site → ¬ site.Outgoing) k := by
  have hsound := h.sound
  have hnr := h.not_currentReady fun _ _ => id
  refine ⟨hsound.legal hl hnr, fun ev hen hev => ?_⟩
  refine wp_mono (runEvent_spec hsound hen) (fun _ k' hst hmoved => ?_)
    fun e k' htol site he hout => ?_
  · have hnr' : ¬ k'.CurrentReady := fun hr => (hst.currentReady hsound hen hr).elim hnr hev
    exact (hst.advances_of_moved hmoved).selected.imp_right fun hsel => hsel hnr'
  · subst he
    exact (htol.2 hout).elim hnr hev

/-- A periodic timer has expired, the service has run its callback and blocks; the switch away from
it is still planned. -/
def serviceRestsEvents : List Event :=
  bootEvents 1 ++ [.timerInit false (some ⟨1, 5, .periodic⟩), .timerStart false 0,
    .start false true true, .tick true 5, .acquire, .complete ⟨.slot 0, .timerService, 1⟩ true,
    .serviceBegin, .serviceEnd, .serviceRest]

theorem current_task_legal_at_rest :
    ∃ k : Kernel, k.currentTask = some .timerService ∧ k.Legal sampleConfig := by
  have hrun : (execute sampleConfig (fun k ev => ¬ ev.ReadiesService sampleConfig k)
      serviceRestsEvents resetKernel).any (fun k =>
        decide (k.lifecycle = .running ∧ k.currentTask = some .timerService)) = true := by
    decide +kernel
  obtain ⟨k, hreach, hl, hc⟩ := exists_reachable hrun
  exact ⟨k, hc, (current_task_legal hreach hl).1⟩

/-- A tick at which the timer is due again, before the switch is taken, makes the service `READY`
while it is the current task. -/
theorem current_task_made_ready : ∃ k, Reachable sampleConfig k ∧ k.lifecycle = .running ∧
    k.currentTask = some .timerService ∧ (k.tasks .timerService).state = .ready ∧
    ¬ SwitchOutgoingIsValid sampleConfig k .timerService := by
  have hrun : (execute sampleConfig (fun _ _ => True) (serviceRestsEvents ++ [.tick true 5])
      resetKernel).any (fun k => decide (k.lifecycle = .running ∧
        k.currentTask = some .timerService ∧ (k.tasks .timerService).state = .ready ∧
        ¬ SwitchOutgoingIsValid sampleConfig k .timerService)) = true := by
    decide +kernel
  exact exists_reachable hrun

/-! ## Plan and policy -/

/-- With no switch under way, the plan leads from the current task to the pick of the policy, and
there is none when they are the same. -/
def Kernel.PlanAgrees (cfg : Config) (k : Kernel) : Prop :=
  k.switchPlan.active = false → ∃ c p, k.currentTask = some c ∧ policyPickNext cfg k = some p ∧
    (p ≠ c → k.switchPlan.pending = true ∧ k.switchPlan.fromTask = some c ∧
      k.switchPlan.toTask = some p) ∧
    (p = c → k.switchPlan.pending = false)

theorem Sound.planAgrees (h : Sound cfg k) (hl : k.lifecycle = .running) (ha : k.Agrees cfg)
    (hres : k.switchPlan.reselectionRequired = false) : k.PlanAgrees cfg := by
  intro hact
  obtain ⟨c, hc, -⟩ := h.ok.inv.phase.current hl
  obtain ⟨p, hp⟩ := h.ok.inv.exists_pick (by simp [hl])
  exact ⟨c, p, hc, hp, ha.settled c p hc hp hact hres⟩

/-- A reselection that is not refused leaves nothing to reselect. -/
theorem reselection_settles (h : KernelOk cfg k) (hl : k.lifecycle = .running)
    (hact : k.switchPlan.active = false) (hnr : ¬ k.CurrentReady)
    (hs : runEvent cfg .reselect k = .ret () k') : k'.switchPlan.reselectionRequired = false := by
  have hspec : wp (runEvent cfg .reselect)
      (fun _ k' => k'.switchPlan.reselectionRequired = false) (fun _ _ => True) k := by
    unfold runEvent
    rw [wp_bind]
    refine wp_reselectAfterSwitch h.inv not_false hl (fun hres => ?_) (fun b k₁ hp => ?_)
      (fun _ _ => trivial) (fun _ => trivial) fun _ => trivial
    · exact wp_notifyPort hres
    · apply wp_notifyPort
      cases hp with
      | rejected hready => exact absurd hready hnr
      | prepared _ _ _ _ _ _ plan => exact plan.reselection hact
  exact (wp_ret hspec hs :)

/-- The steps that can part plan and policy: an advance that makes the current task `READY`, and a
withdrawal whose plan is cancelled although another task should run. -/
def Event.PartsPlan (cfg : Config) (k : Kernel) (ev : Event) : Prop :=
  ev.ReadiesService cfg k ∨ ev.LosesPick cfg k

instance (cfg : Config) (k : Kernel) (ev : Event) : Decidable (ev.PartsPlan cfg k) :=
  inferInstanceAs (Decidable (_ ∨ _))

theorem ReachableWhen.agrees (h : ReachableWhen cfg (fun k ev => ¬ ev.PartsPlan cfg k) k) :
    k.Agrees cfg ∧ ¬ k.CurrentReady := by
  have h0 : Unstarted cfg resetKernel := unstarted_resetKernel
  refine h.invariant (P := fun k => k.Agrees cfg ∧ ¬ k.CurrentReady)
    ⟨h0.agrees, h0.not_currentReady⟩ fun k ev k' hk hs hst ha hn => ?_
  have hnr : ¬ k'.CurrentReady := fun hr =>
    (hst.currentReady hk hs.1 hr).elim hn.2 fun hev => ha (.inl hev)
  exact ⟨hst.agrees hk hs.1 hn.1 hnr fun hev => ha (.inr hev), hnr⟩

/-- In runs without such steps the plan agrees with the policy, in every state without a reselection
outstanding and in every state after a reselection. -/
theorem plan_agrees_with_policy (h : ReachableWhen cfg (fun k ev => ¬ ev.PartsPlan cfg k) k)
    (hl : k.lifecycle = .running) :
    (k.switchPlan.reselectionRequired = false → k.PlanAgrees cfg) ∧
      ∀ k', Step cfg k .reselect k' → k'.PlanAgrees cfg := by
  have hsound := h.sound
  obtain ⟨hag, hnr⟩ := h.agrees
  refine ⟨hsound.planAgrees hl hag, fun k' hs => ?_⟩
  have hst := hs.stepped hsound
  have hsound' := hsound.step hs
  have hnr' : ¬ k'.CurrentReady := fun hr =>
    (hst.currentReady hsound hs.1 hr).elim hnr fun hev => hev.1 rfl
  have hag' : k'.Agrees cfg := hst.agrees hsound hs.1 hag hnr' fun hev => hev.1.elim
  exact hsound'.planAgrees (hst.running hsound.ok hl) hag'
    (reselection_settles hsound.ok hl hs.1.2 hnr hs.2)

/-- Two tasks; the one of higher priority delays, and the tick that ends its delay also expires a
timer. The plan then leads to the timer service. -/
def serviceFirstEvents : List Event :=
  bootEvents 1 ++ [createEvent 2,
    .timerInit false (some ⟨1, 5, .oneShot⟩), .timerStart false 0, .start false true true,
    .delay false 5, .acquire, .complete ⟨.slot 1, .slot 0, 1⟩ true, .reselect, .tick true 5]

theorem plan_agrees_with_service_first :
    ∃ k : Kernel, k.switchPlan.toTask = some .timerService ∧ k.PlanAgrees sampleConfig := by
  have hrun : (execute sampleConfig (fun k ev => ¬ ev.PartsPlan sampleConfig k) serviceFirstEvents
      resetKernel).any (fun k => decide (k.lifecycle = .running ∧
        k.switchPlan.reselectionRequired = false ∧ k.switchPlan.toTask = some .timerService)) =
      true := by
    decide +kernel
  obtain ⟨k, hreach, hl, hres, hto⟩ := exists_reachable hrun
  exact ⟨k, hto, (plan_agrees_with_policy hreach hl).1 hres⟩

/-- The running task stops the timer before the switch is taken: the plan is cancelled, although the
task that has just woken has the higher priority. -/
theorem plan_cancelled_for_nobody : ∃ k, Reachable sampleConfig k ∧ k.lifecycle = .running ∧
    k.switchPlan.active = false ∧ k.switchPlan.reselectionRequired = false ∧
    k.currentTask = some (.slot 0) ∧ policyPickNext sampleConfig k = some (.slot 1) ∧
    k.switchPlan.pending = false := by
  have hrun : (execute sampleConfig (fun _ _ => True) (serviceFirstEvents ++ [.timerStop false 0])
      resetKernel).any (fun k => decide (k.lifecycle = .running ∧ k.switchPlan.active = false ∧
        k.switchPlan.reselectionRequired = false ∧ k.currentTask = some (.slot 0) ∧
        policyPickNext sampleConfig k = some (.slot 1) ∧ k.switchPlan.pending = false)) = true := by
    decide +kernel
  exact exists_reachable hrun

/-! ## The protocol of the switch plan -/

theorem CompletePlanIsValid.matches {snapshot : SwitchSnapshot}
    (h : CompletePlanIsValid cfg k snapshot) : snapshot.Matches k.switchPlan :=
  ⟨h.2.2.2.2.1, h.2.2.2.2.2.1, h.2.2.2.1.symm⟩

theorem SwitchSnapshot.Matches.unique {s s' : SwitchSnapshot} {plan : SwitchPlan}
    (h : s.Matches plan) (h' : s'.Matches plan) : s' = s := by
  obtain ⟨src, dst, generation⟩ := s
  obtain ⟨src', dst', generation'⟩ := s'
  obtain ⟨h1, h2, h3⟩ := h
  obtain ⟨h1', h2', h3'⟩ := h'
  simp_all

/-- Nothing but its completion ends an active plan. -/
theorem Stepped.active (hs : Stepped cfg k ev k') (h : Sound cfg k)
    (ha : k.switchPlan.active = true) (hev : ∀ s b, s.Matches k.switchPlan → ev ≠ .complete s b) :
    k'.switchPlan = k.switchPlan ∨
      k'.switchPlan = { k.switchPlan with reselectionRequired := true } := by
  cases hs with
  | acquires hacq => simp [hacq.inactive] at ha
  | completes hv _ => exact absurd rfl (hev _ _ hv.matches)
  | starts _ hst => exact (hst.replans h.ok).executing ha
  | serves _ hsch _ _ => exact hsch.replans.executing ha
  | gives hg => exact hg.scheduled.replans.executing ha
  | calls _ hcall => exact (hcall.tended.replans h.ok.inv.plan).executing ha
  | rests hrest _ => exact hrest.replans.executing ha
  | advances _ _ hadv => exact hadv.replans.executing ha

/-- A completion with a snapshot that is not the active one changes nothing. -/
theorem switchComplete_foreign {s s' : SwitchSnapshot} {stacksIntact : Bool}
    (hs : s.Matches k.switchPlan) (hne : s' ≠ s) :
    wp (schedulerSwitchComplete cfg s' stacksIntact) (fun _ k' => k' = k)
      (fun _ k' => k' = k) k := by
  have hnot : ¬ CompletePlanIsValid cfg k s' := fun hv => hne (hs.unique hv.matches)
  unfold schedulerSwitchComplete
  rw [wp_ite]
  split
  · exact rfl
  rw [wp_bind, wp_get, wp_bind, wp_rtsAssert]
  refine ⟨fun _ => ?_, fun _ => rfl⟩
  rw [wp_bind, wp_rtsAssert]
  refine ⟨fun _ => ?_, fun _ => rfl⟩
  rw [wp_ite, if_pos (.inl hnot)]
  exact rfl

/-- The plan is being executed for the holder of the snapshot. -/
def Kernel.Executes (k : Kernel) (s : SwitchSnapshot) : Prop :=
  k.switchPlan.active = true ∧ k.switchPlan.pending = false ∧ s.Matches k.switchPlan

theorem switchAcquire_spec (h : KernelOk cfg k) :
    wp (schedulerSwitchAcquire cfg) (fun r k' => ∀ s, r = some s →
      Stepped cfg k .acquire k' ∧ k.lifecycle = .running ∧ k'.Executes s) (fun _ _ => True) k := by
  by_cases hl : k.lifecycle = .running
  · refine wp_switchAcquire h.inv not_false hl (by simp) (fun s k' d ha hm => ?_) (fun _ => trivial)
      fun _ => trivial
    rintro s' ⟨rfl⟩
    refine ⟨.acquires ha, hl, ?_⟩
    unfold Kernel.Executes
    rw [ha.plan]
    exact ⟨rfl, rfl, hm⟩
  · unfold schedulerSwitchAcquire
    rw [wp_bind, wp_get, wp_bind, wp_rtsAssert]
    refine ⟨fun _ => ?_, fun _ => trivial⟩
    rw [wp_bind, wp_rtsAssert]
    refine ⟨fun _ => ?_, fun _ => trivial⟩
    rw [wp_ite, if_pos (.inl hl)]
    simp

theorem Kernel.Executes.step {s : SwitchSnapshot} (hx : k.Executes s) (h : Sound cfg k)
    (hs : Stepped cfg k ev k') (hev : ∀ b, ev ≠ .complete s b) : k'.Executes s := by
  obtain ⟨hact, hpend, hm⟩ := hx
  have hplan := hs.active h hact fun s' b hm' => hm.unique hm' ▸ hev b
  unfold Kernel.Executes
  obtain hplan | hplan := hplan <;> rw [hplan] <;> exact ⟨hact, hpend, hm⟩

/-- An entry of the time base reports exactly a plan that is new. -/
theorem kernelAdvance_reports {contextOk : Bool} {elapsed : Tick} {notify : Bool} (h : Sound cfg k)
    (hret : kernelAdvance cfg contextOk elapsed k = .ret notify k') :
    notify = true ↔ k.Turns k' := by
  have hadm := (wp_ret (kernelAdvance_spec h.ok h.timersOk) hret :)
  by_cases hvalid : AdvanceIsValid k contextOk elapsed
  · exact (hadm.advanced hvalid).reported
  · obtain ⟨rfl, rfl⟩ := hadm.refused hvalid
    simp [Kernel.Turns]

theorem reselect_reports {notify : Bool} (h : Sound cfg k) (hl : k.lifecycle = .running)
    (hret : schedulerReselectAfterSwitch cfg k = .ret notify k') : notify = true ↔ k.Turns k' := by
  have hspec : wp (schedulerReselectAfterSwitch cfg) (fun notify k' => notify = true ↔ k.Turns k')
      (fun _ _ => True) k :=
    wp_reselectAfterSwitch h.ok.inv not_false hl (fun _ => by simp [Kernel.Turns])
      (fun _ _ hp => hp.reported) (fun _ _ => trivial) (fun _ => trivial) fun _ => trivial
  exact (wp_ret hspec hret :)

/-- The requests a step makes: through its result for a give from an interrupt, through the port
otherwise. -/
def Event.requests (cfg : Config) (k k' : Kernel) : Event → Nat
  | .giveFromIsr isr semaphore =>
    match semaphoreGiveFromIsr cfg isr semaphore k with
    | .ret r _ => r.2.toNat
    | .halt _ _ => 0
  | _ => k'.rescheduleRequests - k.rescheduleRequests

/-- The requests that are outstanding: those made since there was last no plan pending. -/
inductive Outstanding (cfg : Config) : Kernel → Nat → Prop where
  | reset : Outstanding cfg resetKernel 0
  | step {k k' : Kernel} {ev : Event} {n : Nat} (before : Outstanding cfg k n)
      (step : Step cfg k ev k') :
      Outstanding cfg k' (if k'.switchPlan.pending = true then n + ev.requests cfg k k' else 0)

theorem Outstanding.reachable {n : Nat} (h : Outstanding cfg k n) : Reachable cfg k := by
  induction h with
  | reset => exact .refl _
  | step _ hs ih => exact .tail ih trivial hs

theorem Step.requests (hs : Step cfg k ev k') (h : Sound cfg k) :
    ev.requests cfg k k' = if k.Turns k' then 1 else 0 := by
  have hother : (∀ isr semaphore, ev ≠ .giveFromIsr isr semaphore) →
      k'.rescheduleRequests - k.rescheduleRequests = if k.Turns k' then 1 else 0 := by
    intro hev
    rw [(hs.stepped h).notifies hev, Nat.add_sub_cancel_left]
  cases ev with
  | giveFromIsr isr semaphore =>
    obtain ⟨r, hret⟩ := exists_ret_of_discard hs.2
    have hgives := (wp_ret (semaphoreGiveFromIsr_spec h.ok) hret :)
    simp only [Event.requests, hret, ← hgives.reported]
    cases r.2 <;> rfl
  | _ => exact hother (by simp)

theorem Outstanding.eq {n : Nat} (h : Outstanding cfg k n) :
    n = if k.switchPlan.pending = true then 1 else 0 := by
  induction h with
  | reset => rfl
  | @step k k' ev n hk hs ih =>
    rw [hs.requests hk.reachable.sound, ih]
    unfold Kernel.Turns
    grind

/-- The protocol of the switch plan, at one state of a run. -/
structure PlanProtocol (cfg : Config) (k : Kernel) : Prop where
  exclusive : ¬ (k.switchPlan.pending = true ∧ k.switchPlan.active = true)
  /-- A pending plan leads from the current task to another one that is `READY`. -/
  pending : k.switchPlan.pending = true → ∃ c d, k.currentTask = some c ∧
    k.switchPlan.fromTask = some c ∧ k.switchPlan.toTask = some d ∧ d ≠ c ∧
    (k.tasks d).state = .ready
  /-- An active plan only ever hears of a reselection until it is completed. -/
  active : k.switchPlan.active = true → ∀ ev k', Step cfg k ev k' →
    (∀ s b, s.Matches k.switchPlan → ev ≠ .complete s b) →
    k'.switchPlan = k.switchPlan ∨ k'.switchPlan = { k.switchPlan with reselectionRequired := true }
  /-- From its acquisition to its completion the plan is the snapshot that was handed out, and no
  other snapshot completes it. -/
  snapshot : ∀ s k₁ k₂, schedulerSwitchAcquire cfg k = .ret (some s) k₁ →
    Transition.ReachableFrom (Step cfg) (fun _ ev => ∀ b, ev ≠ .complete s b) k₁ k₂ →
    k₂.Executes s ∧ ∀ s' b, s' ≠ s →
      wp (schedulerSwitchComplete cfg s' b) (fun _ k' => k' = k₂) (fun _ k' => k' = k₂) k₂
  /-- Every step requests a switch exactly when it makes a plan pending. -/
  requests : ∀ ev k', Step cfg k ev k' → ev.requests cfg k k' = if k.Turns k' then 1 else 0
  tick : ∀ isr elapsed notify k', kernelTickAdvance cfg isr elapsed k = .ret notify k' →
    (notify = true ↔ k.Turns k')
  skip : ∀ isr elapsed notify k', kernelTimeSkip cfg isr elapsed k = .ret notify k' →
    (notify = true ↔ k.Turns k')
  reselect : k.lifecycle = .running → ∀ notify k',
    schedulerReselectAfterSwitch cfg k = .ret notify k' → (notify = true ↔ k.Turns k')
  /-- One request is outstanding for a pending plan, and none otherwise. -/
  outstanding : ∀ n, Outstanding cfg k n → n = if k.switchPlan.pending = true then 1 else 0

theorem Reachable.targetReady (h : Reachable cfg k) : k.TargetReady := by
  refine h.invariant (P := Kernel.TargetReady) (fun hp => ?_) fun k ev k' hk _ hst _ ht =>
    hst.targetReady hk ht
  simp [resetKernel] at hp

theorem switch_plan_protocol (h : Reachable cfg k) : PlanProtocol cfg k where
  exclusive := fun ⟨hp, ha⟩ => by simp [h.sound.ok.inv.plan.exclusive hp] at ha
  pending hp := by
    have hplan := h.sound.ok.inv.plan
    obtain ⟨d, hto, hready⟩ := h.targetReady hp
    obtain ⟨d', hto', hne⟩ := hplan.target (.inl hp)
    obtain rfl : d = d' := Option.some.inj (hto.symm.trans hto')
    have hl : k.lifecycle = .running := by
      by_contra hl
      simp [(h.sound.ok.inv.phase.still hl).2.1] at hp
    obtain ⟨c, hc, -⟩ := h.sound.ok.inv.phase.current hl
    exact ⟨c, d, hc, (hplan.source (.inl hp)).trans hc, hto, fun hdc => hne (hdc ▸ hc), hready⟩
  active ha ev k' hs hev := (hs.stepped h.sound).active h.sound ha hev
  snapshot s k₁ k₂ hret hrun := by
    obtain ⟨hst, hl, hx⟩ := (wp_ret (switchAcquire_spec h.sound.ok) hret :) s rfl
    have hall : Sound cfg k₂ ∧ k₂.Executes s :=
      Transition.ReachableFrom.invariant (P := fun k => Sound cfg k ∧ k.Executes s) hrun
        ⟨hst.sound h.sound hl, hx⟩ fun k ev k' hk hev hs =>
          ⟨hk.1.step hs, hk.2.step hk.1 (hs.stepped hk.1) hev⟩
    exact ⟨hall.2, fun s' b hne => switchComplete_foreign hall.2.2.2 hne⟩
  requests ev k' hs := hs.requests h.sound
  tick _ _ _ _ := kernelAdvance_reports h.sound
  skip _ _ _ _ := kernelAdvance_reports h.sound
  reselect hl _ _ := reselect_reports h.sound hl
  outstanding _ := Outstanding.eq

theorem switch_plan_protocol_service_first :
    ∃ k : Kernel, k.switchPlan.pending = true ∧ PlanProtocol sampleConfig k := by
  have hrun : (execute sampleConfig (fun _ _ => True) serviceFirstEvents resetKernel).any
      (fun k => decide (k.switchPlan.pending = true)) = true := by
    decide +kernel
  obtain ⟨k, hreach, hp⟩ := exists_reachable hrun
  exact ⟨k, hp, switch_plan_protocol hreach⟩

end RtsKernel
