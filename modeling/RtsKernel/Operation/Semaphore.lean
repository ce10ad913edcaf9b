import RtsKernel.Operation.Effect

/-!
# Semaphore operations

A give wakes the first waiter with the unit it brings, and only without a waiter does it count; a
take counts down or blocks. Both keep the kernel in order and have the effect they should.
-/

namespace RtsKernel

open Halting Prog

variable {cfg : Config} {base : Tick} {stale : TaskId → Prop} {k k' : Kernel} {t c : TaskId}
  {i : Nat} {result : WaitResult} {E : Fatal → Kernel → Prop}

theorem wp_semaphoreMakeReady {Q : Unit → Kernel → Prop} (h : Inv cfg base stale k)
    (hb : (k.tasks t).state = .blocked) (hr : (k.tasks t).wait.reason = .semaphore)
    (hQ : ∀ k', Wakes cfg k k' t result → KeepsOwners k k' → Inv cfg base stale k' → Q () k') :
    wp (semaphoreMakeReady cfg t result) Q E k := by
  have happ := (h.tasks t).isApplication hb (by simp [hr])
  have hl := h.running_of_blocked hb happ.ne_timerService
  obtain ⟨o, howner, hobj, hreason⟩ := (h.tasks t).exists_object hb (.inl hr)
  obtain ⟨i, rfl⟩ : ∃ i, o = .semaphore i := by
    cases o with
    | semaphore i => exact ⟨i, rfl⟩
    | mutex m => simp [hr, WaitObject.reason] at hreason
  -- the wake and the last check, from either way of leaving the lists
  have hend : ∀ k₁, Detached k k₁ t → KeepsOwners k k₁ →
      wp (releaseTask cfg .semaphoreMakeReady t result) (fun _ k₂ =>
        ∀ f, (TaskIsRunnable cfg (k₂.count f) t → Q () (k₂.count f)) ∧
          (¬ TaskIsRunnable cfg (k₂.count f) t →
            E (.assertion .semaphoreMakeReady) (k₂.count f))) E k₁ := by
    intro k₁ hdet hk₁
    refine hdet.wp_releaseTask h hb fun k₂ hw hk₂ f => ?_
    have hown : KeepsOwners k (k₂.count f) := (hk₁.trans hk₂).count f
    have hinv : Inv cfg base stale (k₂.count f) := by
      refine h.wakes_keepsOwners hl hb (hw.count f) hown fun u hu => hu.resolve_right ?_
      rw [awaits_eq_none (.inr (by simp [hr]))]
      simp
    have hrun : TaskIsRunnable cfg (k₂.count f) t :=
      hinv.taskIsRunnable_iff.mpr ⟨hw.runnable, fun hi => absurd hi happ.ne_idle⟩
    exact ⟨fun _ => hQ _ (hw.count f) hown hinv, fun hc => absurd hrun hc⟩
  unfold semaphoreMakeReady
  rw [wp_bind, wp_get, wp_bind, wp_fatalUnless_of hb, wp_bind, wp_fatalUnless_of hr]
  simp only [hobj]
  rw [wp_bind, wp_fatalUnless_of howner, wp_bind]
  refine wp_waitObjectRemove h.wait howner (.inl rfl) ?_
  by_cases hto : (k.tasks t).wait.timeoutActive = true
  · have hmem : t ∈ k.delayQueue := h.mem_delayQueue.mpr ⟨hb, .inr hto⟩
    simp only [hto, if_true, wp_bind, wp_fatalUnless_of hmem]
    refine wp_delayRemove hmem ?_
    refine wp_mono (hend _ (h.detached_relink howner) (keepsOwners_relink ..)) ?_ fun _ _ => id
    intro _ k₂ hk₂
    simp only [wp_modify, wp_get, wp_fatalUnless]
    exact hk₂ _
  · have hmem : t ∉ k.delayQueue := fun hin => by
      obtain hd | hd := (h.mem_delayQueue.mp hin).2
      · simp [hr] at hd
      · exact hto hd
    simp only [hto, Bool.false_eq_true, if_false, wp_bind]
    refine wp_mono (hend _ (h.detached_relink_of_not_mem howner hmem)
      (keepsOwners_relink k (.semaphore i) ((k.waiters (.semaphore i)).erase t) t none
        k.delayQueue)) ?_ fun _ _ => id
    intro _ k₂ hk₂
    simp only [wp_modify, wp_get, wp_fatalUnless]
    exact hk₂ _

/-! ## Take -/

theorem wp_semaphoreBlock {Q : Status → Kernel → Prop} {timeout : Tick} (h : KernelOk cfg k)
    (hcan : CurrentCanBlock cfg k c) (happ : c.IsApplication cfg) (h0 : timeout ≠ 0)
    (hrange : timeout ≤ delayMax ∨ timeout = waitForever)
    (hi : (k.semaphores i).initialized = true) (hcount : (k.semaphores i).count = 0)
    (hQ : ∀ k₁ k₂ b,
      Suspends cfg k k₁ c (objectWait .semaphore (.semaphore i) k.currentTick timeout) →
      Inv cfg k.currentTick noneStale k₁ → Planned cfg k₁ k₂ b → Q .ok (k₂.notify b)) :
    wp (semaphoreBlock cfg i timeout c) Q (Tolerated k.CurrentReady k.IdleOwns) k := by
  have hrun : (k.tasks c).Runnable := .inr hcan.2.1
  have hl := h.inv.running_of_current hcan.1
  set wait := objectWait .semaphore (.semaphore i) k.currentTick timeout
  have hwin : wait.Timed → InWindow k.currentTick wait.wakeTick :=
    objectWait_inWindow (by simp) h0 hrange
  unfold semaphoreBlock
  rw [wp_bind, wp_get, wp_bind]
  refine wp_suspendCurrent h.inv hrun ?_
  rw [wp_bind, wp_modify, wp_bind]
  refine wp_enqueueWaiter h.inv hrun happ rfl (objectWait_timed (by simp)) hwin fun k₁ hbl => ?_
  have hsus := hcan.suspends happ hbl
  have hinv : Inv cfg k.currentTick noneStale k₁ := by
    refine h.inv.blocks hl hrun happ.ne_idle hbl rfl (.semaphore i happ rfl rfl rfl) hwin ?_
      (hbl.locks h.inv hrun (by simp [objectWait]) (by simp [objectWait]))
    intro j hj
    obtain rfl : i = j := by simpa [objectWait] using hj
    exact ⟨hi, hcount⟩
  have hblocked : TaskIsBlockedWait cfg k₁ c := by
    obtain ⟨hr, -⟩ | ⟨-, hw⟩ := hinv.taskIsBlocked hbl.state_eq
    · simp [hbl.wait_eq, objectWait] at hr
    · exact hw
  rw [wp_bind, wp_get, wp_bind, wp_fatalUnless_of hblocked, wp_bind]
  refine wp_planAfterBlock hinv (by simp) (hbl.currentTask.trans hcan.1) hbl.state_eq
    (fun b k₂ hp => ?_) (tolerated_selectRunnable _ _ _)
  rw [wp_bind]
  refine wp_notifyPort ?_
  have hnone : ((k₂.notify b).tasks c).wait.result = .none := by
    rw [hp.replanned.trans (.notify k₂ b)]
    simp only
    rw [hbl.wait_eq]
    rfl
  simp only [wp_bind, wp_get, hnone, ne_eq, not_true_eq_false, if_false, wp_pure]
  exact hQ k₁ k₂ b hsus hinv hp

/-- A semaphore may be recounted as long as its waiters stay. -/
theorem Inv.updateSemaphore {f : Semaphore → Semaphore} (h : Inv cfg base stale k)
    (hs : SemaphoreOk (f (k.semaphores i)))
    (hw : (f (k.semaphores i)).waiters = (k.semaphores i).waiters) :
    Inv cfg base stale (k.updateSemaphore i f) := by
  have hlists : (k.updateSemaphore i f).waiters = k.waiters := by
    funext o
    cases o with
    | semaphore j => by_cases hij : j = i <;> simp [Kernel.waiters, hij, hw]
    | mutex m => rfl
  obtain ⟨h1, h2, h3, h4, h5, h6, h7, h8, h9⟩ := h
  have hphase : PhaseOk (k.updateSemaphore i f) :=
    h8.congr rfl rfl (fun _ => ⟨rfl, fun _ => rfl, fun _ => ⟨rfl, rfl⟩⟩) (fun _ => Iff.rfl) id
  refine ⟨h1, h2, h3, hlists ▸ h4, h5, fun j => ?_, h7, hphase, h9⟩
  by_cases hij : j = i
  · simpa [hij] using hs
  · simpa [hij] using h6 j

/-- Recounting a semaphore schedules nothing. -/
theorem scheduled_updateSemaphore {f : Semaphore → Semaphore}
    {g : RuntimeCounters → RuntimeCounters} (h : KernelOk cfg k)
    (hs : SemaphoreOk (f (k.semaphores i)))
    (hw : (f (k.semaphores i)).waiters = (k.semaphores i).waiters) :
    Scheduled cfg k ((k.updateSemaphore i f).count g) := by
  have hinv : Inv cfg k.currentTick noneStale ((k.updateSemaphore i f).count g) :=
    (h.inv.updateSemaphore hs hw).sameTasks rfl
  refine ⟨.of_sameSchedule hinv h.parked ⟨rfl, rfl, rfl, rfl, fun _ => rfl⟩, rfl, rfl, fun _ => rfl,
    Iff.rfl, ?_, .of_same rfl fun _ => id⟩
  refine .of_sublist (fun o => ?_) rfl
  cases o with
  | semaphore j => by_cases hij : j = i <;> simp [Kernel.waiters, hij, hw]
  | mutex m => exact .refl _

theorem sameWaits_count (k : Kernel) (g : RuntimeCounters → RuntimeCounters) :
    SameWaits k (k.count g) :=
  ⟨rfl, fun _ _ => ⟨rfl, Iff.rfl, id⟩, rfl, fun _ => rfl, fun _ => rfl⟩

/-- A take is refused, finds a unit or suspends its caller. -/
theorem wp_semaphoreTake {Q : Status → Kernel → Prop} {isr : Bool} {timeout : Tick}
    (h : KernelOk cfg k) (hfail : ∀ status, status ≠ .ok → Q status k)
    (htaken : (k.semaphores i).initialized = true → 0 < (k.semaphores i).count → ∀ g,
      Q .ok ((k.updateSemaphore i fun s => { s with count := s.count - 1 }).count g))
    (hblocks : ∀ c k₁ k₂ b, timeout ≠ 0 → (timeout ≤ delayMax ∨ timeout = waitForever) →
      Suspends cfg k k₁ c (objectWait .semaphore (.semaphore i) k.currentTick timeout) →
      Inv cfg k.currentTick noneStale k₁ → Planned cfg k₁ k₂ b → Q .ok (k₂.notify b)) :
    wp (semaphoreTake cfg isr (some i) timeout) Q (Tolerated k.CurrentReady k.IdleOwns) k := by
  simp only [semaphoreTake, wp_ite, wp_bind, wp_get]
  split <;> rename_i hrange
  · exact hfail _ (by simp)
  split
  · exact hfail _ (by simp)
  split
  · exact hfail _ (by simp)
  split <;> rename_i hvalid
  · exact hfail _ (by simp)
  rw [not_not] at hvalid
  split <;> rename_i hcount
  · simp only [wp_modify, wp_pure]
    exact htaken hvalid.1 hcount _
  split <;> rename_i h0
  · exact hfail _ (by simp)
  cases hc : k.currentTask with
  | none => exact hfail _ (by simp)
  | some c =>
    simp only [wp_ite]
    split <;> rename_i hservice
    · exact hfail _ (by simp)
    split <;> rename_i hcan
    · exact hfail _ (by simp)
    rw [not_not] at hcan
    have happ := h.inv.isApplication (h.inv.not_dormant_of_current hc) hcan.2.2.1 hservice
    have hrange' : timeout ≤ delayMax ∨ timeout = waitForever := by
      by_cases hf : timeout = waitForever
      · exact .inr hf
      · exact .inl (by simpa [hf] using hrange)
    exact wp_semaphoreBlock h hcan happ h0 hrange' hvalid.1 (by omega) fun k₁ k₂ b hsus hinv hp =>
      hblocks c k₁ k₂ b h0 hrange' hsus hinv hp

theorem semaphoreTake_spec {isr : Bool} {semaphore : Option Nat} {timeout : Tick}
    (h : KernelOk cfg k) :
    wp (semaphoreTake cfg isr semaphore timeout)
      (Served cfg k (.take isr semaphore timeout)) (Tolerated k.CurrentReady k.IdleOwns) k := by
  have hquiet : ∀ status, Served cfg k (.take isr semaphore timeout) status k :=
    fun _ => .quiet h rfl
  cases semaphore with
  | none => exact hquiet _
  | some i =>
    refine wp_semaphoreTake h (fun status _ => hquiet status) (fun hinit hcount g => ?_)
      fun c k₁ k₂ b h0 hrange hsus hinv hp => ?_
    · have hok := h.inv.semaphores i
      refine ⟨scheduled_updateSemaphore h ⟨fun _ => ?_, hok.uninitialized, fun _ => ?_⟩ rfl,
        .taken hcount (sameWaits_count ..), .of_same id rfl, by simp⟩
      · obtain ⟨hmax, hle⟩ := hok.initialized hinit
        exact ⟨hmax, by simp only; omega⟩
      · exact hok.available hcount
    · obtain ⟨hsched, hsame, hnotify⟩ := hsus.scheduled h (.refl .up k₁) hinv hp
      exact ⟨hsched, .takes h0 hrange hsus hsame, hnotify, by simp⟩

/-! ## Give -/

/-- Whoever gives, and however the port is notified afterwards. -/
structure Gives (cfg : Config) (k : Kernel) (ev : Event) (r : Status × Bool) (k' : Kernel) :
    Prop where
  scheduled : Scheduled cfg k k'
  effect : ∀ b, Effect cfg k (k'.notify b) ev
  reported : r.2 = true ↔ k.Turns k'
  requests : k'.rescheduleRequests = k.rescheduleRequests
  failed : r.1 ≠ .ok → k' = k ∧ r.2 = false

/-- The report of a give that has failed is dropped, but there is none. -/
theorem Gives.report_eq {ev : Event} {r : Status × Bool} (h : Gives cfg k ev r k') :
    (decide (r.1 = .ok) && r.2) = r.2 := by
  by_cases hok : r.1 = .ok
  · simp [hok]
  · simp [hok, (h.failed hok).2]

/-- A give is refused, finds the semaphore full, adds a unit or passes it to the first waiter. -/
theorem wp_semaphoreGiveCommon {Q : Status × Bool → Kernel → Prop} (h : KernelOk cfg k)
    (hrefused : ∀ status, status ≠ .ok → status ≠ .full →
      ¬ (k.lifecycle = .running ∧ (k.semaphores i).initialized = true) → Q (status, false) k)
    (hfull : (k.semaphores i).waiters = [] →
      (k.semaphores i).count = (k.semaphores i).maximumCount → Q (.full, false) k)
    (hgiven : (k.semaphores i).initialized = true → (k.semaphores i).waiters = [] →
      (k.semaphores i).count < (k.semaphores i).maximumCount →
      Q (.ok, false) (k.updateSemaphore i fun s => { s with count := s.count + 1 }))
    (hgrants : ∀ t k₁ k₂ b, (k.semaphores i).waiters.head? = some t → Wakes cfg k k₁ t .acquired →
      KeepsOwners k k₁ → Inv cfg k.currentTick noneStale k₁ → Planned cfg k₁ k₂ b → Q (.ok, b) k₂) :
    wp (semaphoreGiveCommon cfg i) Q (Tolerated k.CurrentReady k.IdleOwns) k := by
  simp only [semaphoreGiveCommon, wp_bind, wp_get, wp_ite]
  split <;> rename_i hl
  · exact hrefused _ (by simp) (by simp) fun hr => hl hr.1
  split <;> rename_i hvalid
  · exact hrefused _ (by simp) (by simp) fun hr => hvalid (h.inv.semaphoreIsValid hr.2)
  rw [not_not] at hvalid
  unfold semaphoreWakeOne
  rw [wp_bind, wp_get]
  cases hw : (k.semaphores i).waiters with
  | nil =>
    simp only [wp_pure, if_true]
    split <;> rename_i hmax
    · exact hfull hw hmax
    · have hle := ((h.inv.semaphores i).initialized hvalid.1).2
      exact hgiven hvalid.1 hw (by omega)
  | cons t l =>
    have hin : t ∈ k.waiters (.semaphore i) := by simp [Kernel.waiters, hw]
    obtain ⟨hb, hr, -⟩ := (h.inv.tasks t).waitOwner_eq_some.mp ((h.inv.wait.mem _ _).mp hin)
    have ht := ((h.inv.tasks t).isApplication hb (by simp [hr, WaitObject.reason])).ne_timerService
    obtain ⟨c, hc, -⟩ := h.inv.phase.current (h.inv.running_of_blocked hb ht)
    rw [wp_bind]
    refine wp_semaphoreMakeReady h.inv hb hr fun k₁ hwake hown hinv => ?_
    simp only [wp_pure, Bool.true_eq_false, if_false]
    have hready := hwake.currentReady ht
    exact wp_planAfterWake hinv (by simp) (hwake.currentTask.trans hc)
      (fun b k₂ hp => hgrants t k₁ k₂ b (by simp [hw]) hwake hown hinv hp)
      (fun _ _ => tolerated_selectRunnable _ _ _)
      fun hrdy _ => tolerated_prepareOutgoing (hready hrdy) _

theorem semaphoreGiveCommon_spec {ev : Event} (h : KernelOk cfg k)
    (hev : ∃ isr, ev = .give isr (some i) ∨ ev = .giveFromIsr isr (some i)) :
    wp (semaphoreGiveCommon cfg i) (Gives cfg k ev) (Tolerated k.CurrentReady k.IdleOwns) k := by
  have hstill : ev.elapsed cfg k = 0 := by
    obtain ⟨isr, rfl | rfl⟩ := hev <;> rfl
  have hquiet : ∀ status, Gives cfg k ev (status, false) k := fun status =>
    ⟨.refl h, fun b => .quiet (Replanned.notify k b).sameWaits hstill, by simp [Kernel.Turns], rfl,
      fun _ => ⟨rfl, rfl⟩⟩
  refine wp_semaphoreGiveCommon h (fun status _ _ _ => hquiet status) (fun _ _ => hquiet _)
    (fun hinit hw hlt => ?_) fun t k₁ k₂ b hhead hwake hown hinv hp => ?_
  · have hok := h.inv.semaphores i
    have hmax := (hok.initialized hinit).1
    have hsched := scheduled_updateSemaphore (i := i) (g := id)
      (f := fun s => { s with count := s.count + 1 }) h
      ⟨fun _ => ⟨hmax, by simp only; omega⟩, hok.uninitialized, fun _ => hw⟩ rfl
    exact ⟨hsched, fun b => .given hev hw (Replanned.notify _ b).sameWaits,
      by simp [Kernel.Turns], rfl, by simp⟩
  · have hin : t ∈ k.waiters (.semaphore i) := List.mem_of_mem_head? hhead
    obtain ⟨hb, hr, -⟩ := (h.inv.tasks t).waitOwner_eq_some.mp ((h.inv.wait.mem _ _).mp hin)
    have ht := ((h.inv.tasks t).isApplication hb (by simp [hr, WaitObject.reason])).ne_timerService
    have hshift := hwake.shifts h.inv hb ht
    refine ⟨hshift.scheduled hinv hp, fun b => .grants hev hhead hwake hown
      (hp.replanned.trans (.notify k₂ b)).sameWaits, ?_, hp.requests.trans hshift.requests, by simp⟩
    rw [hp.reported]
    unfold Kernel.Turns
    rw [hshift.plan]

theorem semaphoreGive_spec {isr : Bool} {semaphore : Option Nat} (h : KernelOk cfg k) :
    wp (semaphoreGive cfg isr semaphore) (Served cfg k (.give isr semaphore))
      (Tolerated k.CurrentReady k.IdleOwns) k := by
  unfold semaphoreGive
  cases semaphore with
  | none => exact .quiet h rfl
  | some i =>
    simp only [wp_ite, wp_bind]
    split
    · exact .quiet h rfl
    · refine wp_mono (semaphoreGiveCommon_spec h ⟨isr, .inl rfl⟩) (fun r k' hk' => ?_) fun _ _ => id
      rw [hk'.report_eq]
      refine wp_notifyPort ⟨hk'.scheduled.notify r.2, hk'.effect r.2,
        .of_report hk'.requests hk'.reported, fun hr => ?_⟩
      obtain ⟨rfl, hr⟩ := hk'.failed hr
      rw [hr]
      rfl

/-- The interrupt handler is told about a new plan by the result of the call. -/
theorem semaphoreGiveFromIsr_spec {isr : Bool} {semaphore : Option Nat} (h : KernelOk cfg k) :
    wp (semaphoreGiveFromIsr cfg isr semaphore) (Gives cfg k (.giveFromIsr isr semaphore))
      (Tolerated k.CurrentReady k.IdleOwns) k := by
  have hquiet (status : Status) : Gives cfg k (.giveFromIsr isr semaphore) (status, false) k :=
    ⟨.refl h, fun b => .quiet (Replanned.notify k b).sameWaits rfl, by simp [Kernel.Turns], rfl,
      fun _ => ⟨rfl, rfl⟩⟩
  unfold semaphoreGiveFromIsr
  cases semaphore with
  | none => exact hquiet _
  | some i =>
    simp only [wp_ite]
    split
    · exact hquiet _
    · rw [wp_bind]
      refine wp_mono (semaphoreGiveCommon_spec h ⟨isr, .inr rfl⟩) (fun r k' hk' => ?_) fun _ _ => id
      simp only [hk'.report_eq, wp_pure]
      exact hk'

/-! ## Initialisation -/

/-- An initialisation is refused, or makes a fresh semaphore available. -/
theorem wp_semaphoreInit {Q : Status → Kernel → Prop} {isr : Bool} {n max : Nat}
    (h : KernelOk cfg k) (hfail : ∀ status, status ≠ .ok → Q status k)
    (hok : (k.semaphores i).initialized = false →
      Scheduled cfg k (k.updateSemaphore i fun _ => ⟨n, max, [], true⟩) →
      Q .ok (k.updateSemaphore i fun _ => ⟨n, max, [], true⟩)) :
    wp (semaphoreInit cfg isr (some i) n max) Q (Tolerated k.CurrentReady k.IdleOwns) k := by
  simp only [semaphoreInit, wp_ite, wp_bind, wp_get]
  split <;> rename_i hrange
  · exact hfail _ (by simp)
  split
  · exact hfail _ (by simp)
  split <;> rename_i hvalid
  · exact hfail _ (by simp)
  have hfresh : (k.semaphores i).initialized = false := by
    by_contra hi
    exact hvalid (h.inv.semaphoreIsValid (by simpa using hi))
  have hnil := (h.inv.semaphores i).uninitialized hfresh
  have hsched := scheduled_updateSemaphore (i := i) (g := id)
    (f := fun _ => { count := n, maximumCount := max, initialized := true }) h
    ⟨fun _ => by simp only; omega, by simp, by simp⟩ (by simp [hnil])
  have hvalid' := hsched.ok.inv.semaphoreIsValid (i := i) (by simp)
  simp only [wp_modify, wp_fatalUnless, wp_pure]
  exact ⟨fun _ => hok hfresh hsched, fun hc => absurd hvalid' hc⟩

theorem semaphoreInit_spec {isr : Bool} {semaphore : Option Nat} {n max : Nat}
    (h : KernelOk cfg k) :
    wp (semaphoreInit cfg isr semaphore n max) (Served cfg k (.semaphoreInit isr semaphore n max))
      (Tolerated k.CurrentReady k.IdleOwns) k := by
  cases semaphore with
  | none => exact .quiet h rfl
  | some i =>
    refine wp_semaphoreInit h (fun _ _ => .quiet h rfl) fun hfresh hsched => ?_
    exact ⟨hsched, .initialises hfresh (.refl _), .of_same id rfl, by simp⟩

end RtsKernel
