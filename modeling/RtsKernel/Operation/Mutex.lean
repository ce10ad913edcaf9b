import RtsKernel.Operation.Effect

/-!
# Mutex operations

Lock, unlock with direct handoff, and the timeout of a waiter. Each starts the inheritance walk at
the tasks whose demand it has changed and ends with no priority stale.
-/

namespace RtsKernel

open Halting Prog Chain

variable {cfg : Config} {base : Tick} {stale : TaskId → Prop} {k k' : Kernel}
  {t u c former waiter : TaskId} {m : Nat} {owner : Option TaskId} {result : WaitResult}
  {E : Fatal → Kernel → Prop}

/-! ## Changes of owner -/

theorem OwnerChanged.waiters (h : OwnerChanged k k' m owner) : k'.waiters = k.waiters := by
  funext o
  cases o with
  | semaphore i =>
    simp only [Kernel.waiters]
    rw [h.rest]
  | mutex n =>
    simp only [Kernel.waiters]
    rw [h.mutexes n]

theorem OwnerChanged.sameBooks (h : OwnerChanged k k' m owner) (u : TaskId) :
    (k.tasks u).SameButBooks (k'.tasks u) := by
  unfold Tcb.SameButBooks
  rw [h.tasks u]

theorem OwnerChanged.sameBases (h : OwnerChanged k k' m owner) : SameBases k.tasks k'.tasks := by
  intro u
  rw [h.tasks u]
  exact ⟨rfl, rfl, id⟩

theorem OwnerChanged.prio_eq (h : OwnerChanged k k' m owner) : k'.prio = k.prio :=
  funext fun u => (h.sameBases u).2.1

theorem OwnerChanged.owner_eq (h : OwnerChanged k k' m owner) (n : Nat) :
    (k'.mutexes n).owner = if n = m then owner else (k.mutexes n).owner := by
  rw [h.mutexes n]

theorem OwnerChanged.rest_eq (h : OwnerChanged k k' m owner) : k'.rest = k.rest := by
  rw [h.rest]
  rfl

theorem OwnerChanged.sameSchedule (h : OwnerChanged k k' m owner) : SameSchedule k k' := by
  refine ⟨?_, ?_, ?_, ?_, fun u => ?_⟩
  · rw [h.rest]
  · rw [h.rest]
  · rw [h.rest]
  · rw [h.rest]
  · rw [h.tasks u]

/-- A mutex that nobody waits for may change hands. -/
theorem Inv.ownerChanged (h : Inv cfg base stale k) (hl : k.lifecycle = .running)
    (hch : OwnerChanged k k' m owner) (hown : ∃ owned, Owned cfg k'.mutexes k'.tasks owned)
    (hcount : ∀ u, (k.tasks u).state = .blocked →
      (k'.tasks u).ownedMutexCount ≤ (k.tasks u).ownedMutexCount)
    (hm : (k.mutexes m).waiters = []) (hi : (k.mutexes m).initialized = true)
    (hvalid : ∀ t, owner = some t → (k.tasks t).state ≠ .dormant) : Inv cfg base stale k' := by
  have hs := hch.sameSchedule
  have hlocks : Locks cfg stale k'.mutexes k'.tasks k.currentTask := by
    refine h.locks.reown hown hch.sameBases hm hvalid hi (fun u => ?_) hch.owner_eq
      (fun n => by rw [hch.mutexes n]) fun n => by rw [hch.mutexes n]
    rw [hch.tasks u]
    rfl
  have howners : k'.waitOwners = k.waitOwners := funext fun u => by
    simp only [Kernel.waitOwners]
    rw [hch.tasks u]
  have hsem : k'.semaphores = k.semaphores := by rw [hch.rest]
  have hdelay : k'.delayQueue = k.delayQueue := by rw [hch.rest]
  have hwait : ∀ u, (k'.tasks u).wait = (k.tasks u).wait := fun u => by rw [hch.tasks u]
  refine ⟨fun u => (h.tasks u).sameButBooks (hch.sameBooks u) (hcount u), ?_, ?_, ?_,
    hs.currentTask ▸ hlocks, hsem ▸ h.semaphores, fun u hu => ?_, ?_, ?_⟩
  · rw [hs.readySet, hs.edfReady, hch.prio_eq]
    refine h.ready.congr (fun u => ?_) fun _ => rfl
    simp only [Tcb.Runnable, hs.state]
  · rw [hdelay]
    refine h.delay.congr (fun u => ?_) fun u _ => ?_
    · simp only [Tcb.Timed, hs.state, hwait]
    · simp only [Kernel.wake, hwait]
  · rw [hch.waiters, hch.prio_eq, howners]
    exact h.wait
  · rw [hs.currentTask]
    exact h.running u (hs.state u ▸ hu)
  · refine h.phase.congr hch.rest_eq hs.currentTask (fun hc => absurd hl hc)
      (fun u => by rw [hs.state]) fun hidle => ?_
    simpa only [Tcb.Runnable, hs.state] using hidle
  · rw [hs.currentTask, hs.switchPlan]
    exact h.plan

/-! ## Slack -/

/-- Nothing is demanded beyond what every task provides. -/
theorem Inv.slack_down (h : Inv cfg base noneStale k) : Slack k.mutexes k.tasks .down :=
  fun t _ hp => (h.locks.inherits t (by simp)).2 hp

/-- The end of a wait withdraws demands only. -/
theorem Wakes.slack (hw : Wakes cfg k k' t result) (ho : KeepsOwners k k')
    (h : Inv cfg base noneStale k) : Slack k'.mutexes k'.tasks .down := by
  intro u p hp
  have hle : ∀ q ∈ demand k.mutexes k.tasks u, q ≤ (k.tasks u).priority := h.slack_down u
  rw [(hw.sameBases u).2.1]
  apply hle
  obtain rfl | ⟨n, v, hn, hv, rfl⟩ := hp
  · exact .inl (hw.sameBases u).1
  · rw [ho.owner] at hn
    exact .inr ⟨n, v, hn, ((hw.mem_waiters h.wait (.mutex n) v).mp hv).1, (hw.sameBases v).2.1⟩

/-- The beginning of a wait adds demands only. -/
theorem Blocks.slack {wait : Wait} (hbl : Blocks cfg k k' c wait) (h : Inv cfg base noneStale k) :
    Slack k'.mutexes k'.tasks .up := by
  intro u
  refine ⟨(k.tasks u).priority, ?_, (hbl.sameBases u).2.1.le⟩
  obtain hp | ⟨n, v, hn, hv, hp⟩ := (h.locks.inherits u (by simp)).1
  · exact .inl (hp.trans (hbl.sameBases u).1.symm)
  · refine .inr ⟨n, v, (hbl.keepsOwners.owner n).trans hn, ?_, hp.trans (hbl.sameBases v).2.1.symm⟩
    exact (hbl.mem_waiters (.mutex n) v).mpr (.inl hv)

/-- After a handoff the new owner outranks the waiters that are left. -/
theorem HandsOff.slack (hh : HandsOff cfg k k' m former waiter) (h : Inv cfg base noneStale k) :
    Slack k'.mutexes k'.tasks .down := by
  intro u p hp
  have hle : ∀ q ∈ demand k.mutexes k.tasks u, q ≤ (k.tasks u).priority := h.slack_down u
  rw [(hh.wakes.sameBases u).2.1]
  obtain rfl | ⟨n, v, hn, hv, rfl⟩ := hp
  · rw [(hh.wakes.sameBases u).1]
    exact hle _ (.inl rfl)
  · have hv' := ((hh.wakes.mem_waiters h.wait (.mutex n) v).mp hv).1
    rw [(hh.wakes.sameBases v).2.1]
    rw [(hh.mutexes n).2] at hn
    split at hn <;> rename_i hnm
    · -- the list is sorted and the new owner was its head
      subst hnm
      obtain rfl : waiter = u := Option.some.inj hn
      have hsorted : (k.mutexes n).waiters.Pairwise fun a b => k.prio b ≤ k.prio a :=
        h.sorted (.mutex n)
      have hin : v ∈ (k.mutexes n).waiters := hv'
      obtain ⟨l, hl⟩ := List.head?_eq_some_iff.mp hh.head
      rw [hl] at hsorted hin
      obtain rfl | hin := List.mem_cons.mp hin
      · exact le_rfl
      · exact (List.pairwise_cons.mp hsorted).1 v hin
    · exact hle _ (.inr ⟨n, v, hn, hv', rfl⟩)

/-! ## Lock -/

theorem mutexBlock_spec {timeout : Tick} {isr : Bool} {holder : TaskId} (h : KernelOk cfg k)
    (hcan : CurrentCanBlock cfg k c) (happ : c.IsApplication cfg) (h0 : timeout ≠ 0)
    (hrange : timeout ≤ delayMax ∨ timeout = waitForever)
    (hm : (k.mutexes m).owner = some holder)
    (hcap : (k.tasks c).ownedMutexCount < cfg.maxMutexesPerTask)
    (hcycle : ¬ Reaches (awaits k.mutexes k.tasks) holder c) :
    wp (mutexBlock cfg m timeout c) (Served cfg k (.lock isr (some m) timeout))
      (Tolerated k.CurrentReady k.IdleOwns) k := by
  have hrun : (k.tasks c).Runnable := .inr hcan.2.1
  have hl := h.inv.running_of_current hcan.1
  have hcur : k.currentTask ≠ some .idle := by
    rw [hcan.1]
    exact fun hc => happ.ne_idle (Option.some.inj hc)
  set wait := objectWait .mutex (.mutex m) k.currentTick timeout
  have hwin : wait.Timed → InWindow k.currentTick wait.wakeTick :=
    objectWait_inWindow (by simp) h0 hrange
  unfold mutexBlock
  rw [wp_bind, wp_get, wp_bind]
  refine wp_suspendCurrent h.inv hrun ?_
  rw [wp_bind, wp_modify, wp_bind]
  refine wp_enqueueWaiter h.inv hrun happ rfl (objectWait_timed (by simp)) hwin fun k₁ hbl => ?_
  have hsus := hcan.suspends happ hbl
  have hinv : Inv cfg k.currentTick (fun u => noneStale u ∨ some holder = some u) k₁ := by
    refine Inv.mono (h.inv.blocks hl hrun happ.ne_idle hbl rfl (.mutex m happ rfl rfl rfl hcap) hwin
      (by simp [objectWait]) (hbl.locks_mutex h.inv hrun rfl rfl hm hcycle hcur)) ?_
    rintro u (hu | rfl)
    · exact .inl hu
    · exact .inr rfl
  rw [hm, wp_bind]
  refine wp_recomputeChainOrFatal hinv (hbl.slack h.inv) (fun t ht hd => ?_)
    (fun k₂ hr hinv₂ _ => ?_) fun hidle => ?_
  · obtain rfl := Option.some.inj ht
    exact h.inv.locks.owner_valid m holder hm ((hbl.sameBases holder).2.2 hd)
  · have hstate : (k₂.tasks c).state = .blocked := by
      rw [hr.tasks]
      exact hbl.state_eq
    have hwait : (k₂.tasks c).wait = objectWait .mutex (.mutex m) k.currentTick timeout := by
      rw [hr.tasks]
      exact hbl.wait_eq
    have hblocked : TaskIsBlockedWait cfg k₂ c := by
      obtain ⟨hreason, -⟩ | ⟨-, hw⟩ := hinv₂.taskIsBlocked hstate
      · simp [hwait, objectWait] at hreason
      · exact hw
    have hcur₂ : k₂.currentTask = some c := hr.currentTask.trans (hbl.currentTask.trans hcan.1)
    rw [wp_bind, wp_get, wp_bind, wp_fatalUnless_of hblocked, wp_bind]
    refine wp_planAfterBlock hinv₂ (by simp) hcur₂ hstate (fun b k₃ hp => ?_)
      (tolerated_selectRunnable _ _ _)
    rw [wp_bind]
    refine wp_notifyPort ?_
    obtain ⟨hsched, hsame, hnotify⟩ := hsus.scheduled h hr hinv₂ hp
    have hnone : ((k₃.notify b).tasks c).wait.result = .none := by
      rw [hp.replanned.trans (.notify k₃ b)]
      simp only
      rw [hwait]
      rfl
    simp only [wp_bind, wp_get, hnone, ne_eq, not_true_eq_false, if_false, wp_pure]
    exact ⟨hsched, .locks h0 hrange hsus hsame, hnotify, by simp⟩
  · have howns : k.IdleOwns := ⟨m, hm.trans hidle⟩
    exact ⟨by simpa [Site.Excluded] using howns, by simp [Site.Outgoing]⟩

theorem OwnerChanged.shifts (h : OwnerChanged k k' m owner) (hl : k.lifecycle = .running) :
    Shifts k k' where
  rest := h.rest_eq
  running := hl
  currentTask := h.sameSchedule.currentTask
  ready := h.sameSchedule.currentReady
  service := by rw [h.sameSchedule.state]
  fifo := .of_sublist (fun o => by rw [h.waiters]) h.prio_eq
  plan := h.sameSchedule.switchPlan
  requests := by rw [h.rest]
  keeps t ht := by
    rw [h.sameSchedule.state]
    exact ht

/-- A free mutex may be linked to a task that is not blocked. -/
theorem Inv.acquired (h : Inv cfg base noneStale k) {owned : TaskId → List Nat}
    (hown : Owned cfg k.mutexes k.tasks owned) (hc : k.currentTask = some c)
    (hst : (k.tasks c).state ≠ .blocked) (hm : (k.mutexes m).owner = none)
    (hi : (k.mutexes m).initialized = true) (hch : OwnerChanged k k' m (some c))
    (hown' : Owned cfg k'.mutexes k'.tasks (Function.update owned c (owned c ++ [m]))) :
    Inv cfg base noneStale k' := by
  refine h.ownerChanged (h.running_of_current hc) hch ⟨_, hown'⟩ (fun u hu => ?_)
    (h.locks.unowned m hm) hi fun t ht => ?_
  · have huc : u ≠ c := by
      rintro rfl
      exact hst hu
    rw [← hown'.length, ← hown.length, Function.update_of_ne huc]
  · exact Option.some.inj ht ▸ h.not_dormant_of_current hc

/-- A lock of a free mutex. -/
theorem mutexAcquire_spec {isr : Bool} {timeout : Tick} (h : KernelOk cfg k)
    (hc : k.currentTask = some c) (hrun : (k.tasks c).state ≠ .blocked)
    (hm : (k.mutexes m).owner = none) (hi : (k.mutexes m).initialized = true)
    (hcap : (k.tasks c).ownedMutexCount < cfg.maxMutexesPerTask) :
    wp (mutexOwnerLink cfg m c) (fun _ => Served cfg k (.lock isr (some m) timeout) .ok) E k := by
  have hl := h.inv.running_of_current hc
  obtain ⟨owned, hown⟩ := h.inv.locks.owned
  refine wp_mutexOwnerLink hown hm hcap fun k' hch hown' => ?_
  have hinv := h.inv.acquired hown hc hrun hm hi hch hown'
  have htick : k'.currentTick = k.currentTick := Kernel.of_rest Kernel.currentTick hch.rest_eq
  have hs := hch.shifts hl
  exact ⟨⟨.of_sameSchedule (htick ▸ hinv) h.parked hch.sameSchedule, hs.rest, hs.currentTask,
    fun hne => absurd hl hne, hs.service, hs.fifo, .of_same hs.plan hs.keeps⟩,
    .owns hm hc hch (.refl k'), .of_same (fun hpend => hs.plan ▸ hpend) hs.requests, by simp⟩

theorem mutexLock_spec {isr : Bool} {mutex : Option Nat} {timeout : Tick} (h : KernelOk cfg k)
    (hrun : ∀ c, isr = false → k.currentTask = some c → (k.tasks c).state = .running) :
    wp (mutexLock cfg isr mutex timeout)
      (Served cfg k (.lock isr mutex timeout)) (Tolerated k.CurrentReady k.IdleOwns) k := by
  have hquiet : ∀ status, Served cfg k (.lock isr mutex timeout) status k := fun _ => .quiet h rfl
  unfold mutexLock
  cases mutex with
  | none => exact hquiet _
  | some m =>
    simp only [wp_ite, wp_bind, wp_get]
    split <;> rename_i hrange
    · exact hquiet _
    split <;> rename_i hisr
    · exact hquiet _
    split <;> rename_i hl
    · exact hquiet _
    rw [not_not] at hl
    split <;> rename_i hvalid
    · exact hquiet _
    rw [not_not] at hvalid
    obtain ⟨c, hc, hd⟩ := h.inv.phase.current hl
    have hst := hrun c (by simpa using hisr) hc
    simp only [hc]
    unfold mutexLockAs
    rw [wp_bind, wp_get]
    cases hm : (k.mutexes m).owner with
    | none =>
      simp only [wp_bind, wp_fatalUnless_of (h.inv.locks.unowned m hm), wp_ite]
      split <;> rename_i hcap
      · exact hquiet _
      · exact mutexAcquire_spec h hc (by simp [hst]) hm hvalid.1 (by omega)
    | some holder =>
      simp only [wp_ite]
      split
      · exact hquiet _
      split <;> rename_i h0
      · exact hquiet _
      split <;> rename_i hservice
      · exact hquiet _
      split <;> rename_i hcap
      · exact hquiet _
      rw [wp_bind]
      refine wp_mutexWouldCycle h.inv fun b hb => ?_
      rw [wp_ite]
      split <;> rename_i hcycle
      · simp only [wp_bind, wp_rtsAssert, wp_pure]
        exact ⟨fun _ => hquiet _, fun _ => ⟨by simp [Site.Excluded], by simp [Site.Outgoing]⟩⟩
      · rw [wp_ite]
        split <;> rename_i hcan
        · exact hquiet _
        rw [not_not] at hcan
        have happ := h.inv.isApplication hd hcan.2.2.1 hservice
        refine mutexBlock_spec h hcan happ h0 ?_ hm (by omega) ?_
        · by_cases hf : timeout = waitForever
          · exact .inr hf
          · exact .inl (by simpa [hf] using hrange)
        · exact fun hreach => hcycle (hb.mpr ⟨holder, hm, hreach⟩)

/-! ## Handoff -/

/-- An owner change leaves a detached task detached. -/
theorem Detached.ownerChanged {k₁ k₂ : Kernel} (hdet : Detached k k₁ t)
    (hch : OwnerChanged k₁ k₂ m owner)
    (hcount : ∀ u, u ≠ t → (k₂.tasks u).ownedMutexCount ≤ (k₁.tasks u).ownedMutexCount) :
    Detached k k₂ t := by
  have hs := hch.sameSchedule
  refine ⟨hch.rest_eq.trans hdet.rest, hs.currentTask.trans hdet.currentTask,
    hs.switchPlan.trans hdet.switchPlan, ?_, hs.readySet.trans hdet.readySet,
    hs.edfReady.trans hdet.edfReady, hdet.task.trans (hch.sameBooks t), fun u hu => ?_, ?_,
    fun o => ?_, fun i => ?_⟩
  · rw [hch.rest]
    exact hdet.requests
  · obtain ⟨hbooks, hle⟩ := hdet.others u hu
    exact ⟨hbooks.trans (hch.sameBooks u), (hcount u hu).trans hle⟩
  · rw [hch.rest]
    exact hdet.delayQueue
  · rw [hch.waiters]
    exact hdet.waiters o
  · rw [hch.rest]
    exact hdet.semaphores i

/-- The mutex passes from its owner to a waiter that has left the lists. -/
theorem Detached.wp_transfer {Q : Unit → Kernel → Prop} {k₁ : Kernel} {site : Site}
    (hdet : Detached k k₁ waiter) (hk₁ : KeepsOwners k k₁) (h : Inv cfg base stale k)
    (hb : (k.tasks waiter).state = .blocked)
    (hcap : (k.tasks waiter).ownedMutexCount < cfg.maxMutexesPerTask)
    (hm : (k.mutexes m).owner = some former) (hne : waiter ≠ former)
    (hQ : ∀ k', Wakes cfg k k' waiter result →
      (∃ owned, Owned cfg k'.mutexes k'.tasks owned) →
      (∀ n, (k'.mutexes n).initialized = (k.mutexes n).initialized ∧
        (k'.mutexes n).owner = if n = m then some waiter else (k.mutexes n).owner) → Q () k') :
    wp (mutexOwnerUnlink m) (fun _ => wp (mutexOwnerLink cfg m waiter)
      (fun _ => wp (releaseTask cfg site waiter result) Q E) E) E k₁ := by
  obtain ⟨owned, hown⟩ := hk₁.owned h.locks.owned
  refine wp_mutexOwnerUnlink hown ((hk₁.owner m).trans hm) fun k₂ hch hown₂ => ?_
  have hcount₂ : ∀ u, (k₂.tasks u).ownedMutexCount ≤ (k₁.tasks u).ownedMutexCount := by
    intro u
    rw [← hown₂.length, ← hown.length]
    by_cases huf : u = former
    · subst huf
      rw [Function.update_self]
      exact List.length_erase_le
    · rw [Function.update_of_ne huf]
  have hcap₂ : (k₂.tasks waiter).ownedMutexCount < cfg.maxMutexesPerTask := by
    have := hcount₂ waiter
    have := (hk₁.tasks waiter).2.2
    omega
  refine wp_mutexOwnerLink hown₂ (by simp [hch.owner_eq]) hcap₂ fun k₃ hch₃ hown₃ => ?_
  have hcount₃ : ∀ u, u ≠ waiter → (k₃.tasks u).ownedMutexCount ≤ (k₂.tasks u).ownedMutexCount := by
    intro u hu
    rw [← hown₃.length, ← hown₂.length, Function.update_of_ne hu]
  have hdet₃ : Detached k k₃ waiter :=
    (hdet.ownerChanged hch fun u _ => hcount₂ u).ownerChanged hch₃ hcount₃
  refine hdet₃.wp_releaseTask h hb fun k₄ hw hk₄ => hQ k₄ hw (hk₄.owned ⟨_, hown₃⟩) fun n => ?_
  constructor
  · rw [hk₄.mutexes n, hch₃.mutexes n, hch.mutexes n, hk₁.mutexes n]
  · rw [hk₄.owner, hch₃.owner_eq, hch.owner_eq, hk₁.owner]
    grind

theorem wp_mutexHandoff {Q : Unit → Kernel → Prop} (h : Inv cfg base noneStale k)
    (hc : k.currentTask = some former) (hm : (k.mutexes m).owner = some former)
    (hne : (k.mutexes m).waiters ≠ [])
    (hQ : ∀ k' waiter, HandsOff cfg k k' m former waiter →
      Inv cfg base (fun u => u = waiter ∨ some former = some u) k' →
      (k.tasks waiter).state = .blocked → waiter.IsApplication cfg → Q () k') :
    wp (mutexHandoff cfg m) Q E k := by
  obtain ⟨waiter, l, hw⟩ := List.exists_cons_of_ne_nil hne
  have hin : waiter ∈ k.waiters (.mutex m) := by simp [Kernel.waiters, hw]
  have howner : k.waitOwners waiter = some (.mutex m) := (h.wait.mem _ _).mp hin
  obtain ⟨hb, hr, hobj⟩ := (h.tasks waiter).waitOwner_eq_some.mp howner
  have happ := (h.tasks waiter).isApplication hb (by simp [hr, WaitObject.reason])
  have hl := h.running_of_current hc
  have hcap := (h.tasks waiter).capacity hb hr
  have hawaited : (k.tasks waiter).awaited = some m := Tcb.awaited_eq_some.mpr ⟨hb, hr, hobj⟩
  have hne' : waiter ≠ former := by
    rintro rfl
    exact h.locks.acyclic waiter (.single (awaits_eq_some.mpr ⟨m, hawaited, hm⟩))
  -- the transfer and the bookkeeping, from either way of leaving the lists
  have hend : ∀ k₁ f, Detached k k₁ waiter → KeepsOwners k k₁ →
      wp (mutexOwnerUnlink m) (fun _ => wp (mutexOwnerLink cfg m waiter)
        (fun _ => wp (releaseTask cfg .mutexHandoff waiter .acquired)
          (fun _ k₂ => Q () (k₂.count f)) E) E) E k₁ := by
    intro k₁ f hdet hk₁
    refine hdet.wp_transfer hk₁ h hb hcap hm hne' fun k₂ hwake hown hmut => ?_
    have hhand : HandsOff cfg k (k₂.count f) m former waiter :=
      ⟨hwake.count f, hc, hm, by simp [hw], hmut⟩
    refine hQ _ waiter hhand ?_ hb happ
    refine Inv.mono (h.wakes hl hb (hwake.count f) (h.locks.handoff hown hwake.sameBases hm hawaited
      happ.ne_idle hwake.awaited (fun n => (hmut n).2) (fun n => (hmut n).1)
      fun n u => hwake.mem_waiters h.wait (.mutex n) u)) ?_
    rintro u (hu | rfl | rfl)
    · exact absurd hu (by simp)
    · exact .inr rfl
    · exact .inl rfl
  unfold mutexHandoff
  rw [wp_bind, wp_get]
  simp only [hw, wp_bind]
  refine wp_waitObjectRemove h.wait howner (.inl rfl) ?_
  by_cases hto : (k.tasks waiter).wait.timeoutActive = true
  · have hmem : waiter ∈ k.delayQueue := h.mem_delayQueue.mpr ⟨hb, .inr hto⟩
    simp only [hto, if_true, wp_bind, wp_modify]
    refine wp_delayRemove hmem ?_
    exact hend _ _ (h.detached_relink howner) (keepsOwners_relink ..)
  · have hmem : waiter ∉ k.delayQueue := fun hin => by
      obtain hd | hd := (h.mem_delayQueue.mp hin).2
      · simp [hr, WaitObject.reason] at hd
      · exact hto hd
    simp only [hto, Bool.false_eq_true, if_false, wp_bind, wp_modify]
    exact hend _ _ (h.detached_relink_of_not_mem howner hmem) (keepsOwners_relink k (.mutex m)
      ((k.waiters (.mutex m)).erase waiter) waiter none k.delayQueue)

/-! ## Unlock -/

theorem tolerated_recomputeChain_idle {ready owns : Prop} (h : owns) (k : Kernel) :
    Tolerated ready owns (.assertion (.recomputeChain .idle)) k :=
  ⟨by simpa [Site.Excluded] using h, by simp [Site.Outgoing]⟩

/-- An unlock without waiters. -/
theorem mutexRelease_spec {isr : Bool} (h : KernelOk cfg k) (hc : k.currentTask = some c)
    (hm : (k.mutexes m).owner = some c) (hi : (k.mutexes m).initialized = true)
    (hnil : (k.mutexes m).waiters = []) :
    wp (mutexUnlockAs cfg m c) (Served cfg k (.unlock isr (some m)))
      (Tolerated k.CurrentReady k.IdleOwns) k := by
  have hl := h.inv.running_of_current hc
  obtain ⟨owned, hown⟩ := h.inv.locks.owned
  simp only [mutexUnlockAs, wp_bind, wp_get, wp_ite, if_pos hnil]
  refine wp_mutexOwnerUnlink hown hm fun k₁ hch hown₁ => ?_
  have hcount : ∀ u, (k₁.tasks u).ownedMutexCount ≤ (k.tasks u).ownedMutexCount := by
    intro u
    rw [← hown₁.length, ← hown.length]
    by_cases huc : u = c
    · subst huc
      rw [Function.update_self]
      exact List.length_erase_le
    · rw [Function.update_of_ne huc]
  have hinv : Inv cfg k.currentTick noneStale k₁ :=
    h.inv.ownerChanged hl hch ⟨_, hown₁⟩ (fun u _ => hcount u) hnil hi (by simp)
  have hs := hch.sameSchedule
  have hcur₁ : k₁.currentTask = some c := hs.currentTask.trans hc
  refine wp_recomputeChainOrFatal (hinv.mono fun u hu => .inl hu) hinv.slack_down ?_
    (fun k₂ hr hinv₂ _ => ?_) fun hidle => tolerated_recomputeChain_idle ⟨m, hm.trans hidle⟩ _
  · rintro t ht
    exact Option.some.inj ht ▸ hinv.not_dormant_of_current hcur₁
  have hnone : (k₂.mutexes m).owner = none := by
    rw [hr.mutexes m, hch.mutexes m]
    simp
  have hready : k₂.CurrentReady → k.CurrentReady := fun hrdy =>
    hs.currentReady (hr.currentReady.mp hrdy)
  rw [hnone]
  simp only [recomputeChainOrFatal, wp_pure]
  refine wp_planAfterWake hinv₂ (by simp) (hr.currentTask.trans hcur₁) (fun b k₃ hp => ?_)
    (fun _ _ => tolerated_selectRunnable _ _ _)
    fun hrdy _ => tolerated_prepareOutgoing (hready hrdy) _
  have hshift := (hch.shifts hl).repriced hr hch.prio_eq
  exact wp_notifyPort ⟨(hshift.scheduled hinv₂ hp).notify b,
    .disowns hm hc hnil hch (hr.sameWaits.trans (hp.replanned.trans (.notify k₃ b)).sameWaits),
    hshift.notifies hp, by simp⟩

/-- An unlock with waiters. -/
theorem mutexPass_spec {isr : Bool} (h : KernelOk cfg k) (hc : k.currentTask = some c)
    (hm : (k.mutexes m).owner = some c) (hne : (k.mutexes m).waiters ≠ []) :
    wp (mutexUnlockAs cfg m c) (Served cfg k (.unlock isr (some m)))
      (Tolerated k.CurrentReady k.IdleOwns) k := by
  simp only [mutexUnlockAs, wp_bind, wp_get, wp_ite, if_neg hne]
  refine wp_mutexHandoff h.inv hc hm hne fun k₁ waiter hhand hinv hb happ => ?_
  have ht := happ.ne_timerService
  have hcur₁ : k₁.currentTask = some c := hhand.wakes.currentTask.trans hc
  have hready := hhand.wakes.currentReady ht
  refine wp_recomputeChainOrFatal hinv (hhand.slack h.inv) ?_ (fun k₂ hr hinv₂ hslack => ?_)
    fun hidle => tolerated_recomputeChain_idle ⟨m, hm.trans hidle⟩ _
  · rintro t ht
    exact Option.some.inj ht ▸ hinv.not_dormant_of_current hcur₁
  have howner : (k₂.mutexes m).owner = some waiter := by
    rw [hr.mutexes m]
    simp only
    rw [(hhand.mutexes m).2, if_pos rfl]
  rw [howner]
  have hinv₂' : Inv cfg k.currentTick (fun u => noneStale u ∨ some waiter = some u) k₂ :=
    hinv₂.mono fun u hu => .inr (congrArg some hu.symm)
  refine wp_recomputeChainOrFatal hinv₂' hslack ?_ (fun k₃ hr₃ hinv₃ _ => ?_)
    fun hidle => absurd (Option.some.inj hidle) happ.ne_idle
  · rintro t ht
    exact Option.some.inj ht ▸ hinv₂.locks.owner_valid m waiter howner
  refine wp_planAfterWake hinv₃ (by simp) (hr₃.currentTask.trans (hr.currentTask.trans hcur₁))
    (fun b k₄ hp => ?_) (fun _ _ => tolerated_selectRunnable _ _ _) fun hrdy _ =>
      tolerated_prepareOutgoing (hready (hr.currentReady.mp (hr₃.currentReady.mp hrdy))) _
  have hshift := (hhand.wakes.shifts h.inv hb ht).repriced (hr.trans hr₃) hhand.wakes.prio_eq
  exact wp_notifyPort ⟨(hshift.scheduled hinv₃ hp).notify b,
    .handsOff hhand ((hr.trans hr₃).sameWaits.trans (hp.replanned.trans (.notify k₄ b)).sameWaits),
    hshift.notifies hp, by simp⟩

theorem mutexUnlock_spec {isr : Bool} {mutex : Option Nat} (h : KernelOk cfg k) :
    wp (mutexUnlock cfg isr mutex)
      (Served cfg k (.unlock isr mutex)) (Tolerated k.CurrentReady k.IdleOwns) k := by
  have hquiet : ∀ status, Served cfg k (.unlock isr mutex) status k := fun _ => .quiet h rfl
  unfold mutexUnlock
  cases mutex with
  | none => exact hquiet _
  | some m =>
    simp only [wp_ite, wp_bind, wp_get]
    split
    · exact hquiet _
    split <;> rename_i hl
    · exact hquiet _
    rw [not_not] at hl
    split <;> rename_i hvalid
    · exact hquiet _
    rw [not_not] at hvalid
    obtain ⟨c, hc, -⟩ := h.inv.phase.current hl
    simp only [hc, wp_ite]
    split <;> rename_i hm
    · exact hquiet _
    rw [not_not] at hm
    by_cases hnil : (k.mutexes m).waiters = []
    · exact mutexRelease_spec h hc hm hvalid.1 hnil
    · exact mutexPass_spec h hc hm hnil

/-! ## Timeout -/

theorem wp_mutexTimeoutTask {Q : Bool → Kernel → Prop} (h : Inv cfg base noneStale k)
    (hb : (k.tasks t).state = .blocked) (hr : (k.tasks t).wait.reason = .mutex)
    (hto : (k.tasks t).wait.timeoutActive = true)
    (hQ : ∀ k₁ k', Wakes cfg k k₁ t .timeout → KeepsOwners k k₁ → Repriced .down k₁ k' →
      Inv cfg base noneStale k' → Q true k')
    (hE : k.IdleOwns → ∀ k', E (.assertion (.recomputeChain .idle)) k') :
    wp (mutexTimeoutTask cfg t) Q E k := by
  have happ := (h.tasks t).isApplication hb (by simp [hr])
  have hl := h.running_of_blocked hb happ.ne_timerService
  have hmem : t ∈ k.delayQueue := h.mem_delayQueue.mpr ⟨hb, .inr hto⟩
  have hblocked : TaskIsBlockedWait cfg k t := by
    obtain ⟨hr', -⟩ | ⟨-, hw⟩ := h.taskIsBlocked hb
    · simp [hr] at hr'
    · exact hw
  obtain ⟨o, howner, hobj, hreason⟩ := (h.tasks t).exists_object hb (.inr hr)
  obtain ⟨m, rfl⟩ : ∃ m, o = .mutex m := by
    cases o with
    | semaphore i => simp [hr, WaitObject.reason] at hreason
    | mutex m => exact ⟨m, rfl⟩
  obtain ⟨u, -, hawaits⟩ := h.mutexOwnerAwaited_eq hb hr
  have hm : (k.mutexes m).owner = some u := by
    obtain ⟨n, hn, ho⟩ := awaits_eq_some.mp hawaits
    obtain rfl : m = n := by simpa [hobj] using (Tcb.awaited_eq_some.mp hn).2.2
    exact ho
  unfold mutexTimeoutTask
  rw [wp_bind, wp_get, wp_ite, if_neg (by simp [hr, hto, hblocked])]
  simp only [hobj, wp_bind]
  refine wp_waitObjectRemove h.wait howner (.inl rfl) ?_
  refine wp_delayRemove hmem ?_
  have hk₁ := keepsOwners_relink k (.mutex m) ((k.waiters (.mutex m)).erase t) t none
    (k.delayQueue.erase t)
  refine (h.detached_relink howner).wp_releaseTask h hb fun k₂ hw hk₂ => ?_
  rw [wp_modify, hm]
  have hown := (hk₁.trans hk₂).count fun c =>
    { c with mutexTimeouts := diagnosticCounterIncrement c.mutexTimeouts }
  have hwake := hw.count fun c =>
    { c with mutexTimeouts := diagnosticCounterIncrement c.mutexTimeouts }
  have hinv : Inv cfg base (fun v => noneStale v ∨ some u = some v) _ :=
    h.wakes_keepsOwners hl hb hwake hown fun v hv => hv.imp id fun ha => hawaits.symm.trans ha
  refine wp_recomputeChainOrFatal hinv (hwake.slack hown h) ?_ (fun k₃ hr₃ hinv₃ _ => ?_)
    fun hidle => hE ⟨m, hm.trans hidle⟩ _
  · rintro v hv
    obtain rfl := Option.some.inj hv
    exact fun hd => h.locks.owner_valid m u hm ((hwake.sameBases u).2.2 hd)
  · exact hQ _ k₃ hwake hown hr₃ hinv₃

/-! ## Initialisation -/

theorem mutexInit_spec {isr : Bool} {mutex : Option Nat} (h : KernelOk cfg k) :
    wp (mutexInit cfg isr mutex)
      (Served cfg k (.mutexInit isr mutex)) (Tolerated k.CurrentReady k.IdleOwns) k := by
  have hquiet : ∀ status, Served cfg k (.mutexInit isr mutex) status k := fun _ => .quiet h rfl
  unfold mutexInit
  cases mutex with
  | none => exact hquiet _
  | some m =>
    simp only [wp_ite, wp_bind, wp_get]
    split
    · exact hquiet _
    split <;> rename_i hvalid
    · exact hquiet _
    have hfresh : (k.mutexes m).initialized = false := by
      by_contra hi
      exact hvalid (h.inv.mutexIsValid (by simpa using hi))
    have hnone := h.inv.locks.uninitialized m hfresh
    have hnil := h.inv.locks.unowned m hnone
    obtain ⟨owned, hown⟩ := h.inv.locks.owned
    obtain ⟨hprev, hnext⟩ := hown.free m hnone
    set k' := k.updateMutex m fun _ => { initialized := true } with hk'
    have hsame : ∀ n, (k'.mutexes n).owner = (k.mutexes n).owner ∧
        (k'.mutexes n).ownedPrevious = (k.mutexes n).ownedPrevious ∧
        (k'.mutexes n).ownedNext = (k.mutexes n).ownedNext ∧
        ((k'.mutexes n).initialized = false → (k.mutexes n).initialized = false) ∧
        (k'.mutexes n).waiters = (k.mutexes n).waiters := by
      intro n
      by_cases hnm : n = m <;> simp [hk', hnm, hnone, hprev, hnext, hnil]
    have hwaiters : k'.waiters = k.waiters := by
      funext o
      cases o with
      | semaphore i => rfl
      | mutex n => exact (hsame n).2.2.2.2
    have hlocks : Locks cfg noneStale k'.mutexes k'.tasks k'.currentTask := by
      refine h.inv.locks.congr (fun _ => .refl _) (fun n => ?_) (fun _ => id) id
      obtain ⟨h1, h2, h3, h4, h5⟩ := hsame n
      exact ⟨h1, h2, h3, h4, fun t => by rw [h5]⟩
    have hphase : PhaseOk k' := h.inv.phase.congr rfl rfl
      (fun _ => ⟨rfl, fun n => (hsame n).1, fun _ => ⟨rfl, rfl⟩⟩) (fun _ => Iff.rfl) id
    have hinv : Inv cfg k'.currentTick noneStale k' :=
      ⟨h.inv.tasks, h.inv.ready, h.inv.delay, hwaiters ▸ h.inv.wait, hlocks, h.inv.semaphores,
        h.inv.running, hphase, h.inv.plan⟩
    have hok := hinv.mutexIsValid (m := m) (by simp [hk'])
    simp only [wp_modify, wp_fatalUnless, wp_pure]
    refine ⟨fun _ => ⟨⟨.of_sameSchedule hinv h.parked ⟨rfl, rfl, rfl, rfl, fun _ => rfl⟩, rfl, rfl,
      fun _ => rfl, Iff.rfl, .of_sublist (fun o => by rw [hwaiters]) rfl, .of_same rfl fun _ => id⟩,
      ?_, .of_same id rfl, by simp⟩, fun hc => absurd hok hc⟩
    exact .quiet ⟨rfl, fun _ _ => ⟨rfl, Iff.rfl, id⟩, rfl, fun n => (hsame n).1, fun _ => rfl⟩ rfl

end RtsKernel
