import RtsKernel.Model.Run
import RtsKernel.Property.Timeline

/-!
# Mutexes: inheritance, deadlock and ownership

## Main results

* `priorities_inherited`: every task runs at the greatest priority demanded of it, which is the
  greatest base priority among the tasks that wait for it along any chain of mutexes.
* `no_mutex_deadlock`: waiting is acyclic, the deadlock test is exact, and the walk that installs
  priorities never fails.
* `mutex_ownership_kept`: the lists of owned mutexes are well formed, and a mutex changes hands only
  by a lock, an unlock without waiters, or an unlock that passes it to the first waiter.
* `uncontended_lock_identity`: locking a free mutex and unlocking it again restores the state or
  halts, and which of the two is told by the state before; the idle task, at its own priority,
  cannot unlock (`idle_unlock_halts`).
-/

namespace RtsKernel

open Halting Prog Chain DoublyLinked

variable {cfg : Config} {base : Tick} {k k' : Kernel} {T : Timeline} {ev : Event} {t u : TaskId}
  {m : Nat} {mutexes : Nat → Mutex} {tasks : TaskId → Tcb}

/-! ## Inheritance -/

section fixpoint

variable (hwait : ∀ m t, t ∈ (mutexes m).waiters ↔ (tasks t).awaited = some m)
  (hinherits : ∀ t, Inherits mutexes tasks t)

include hwait hinherits

/-- A task runs at least as high as everyone who waits for it. -/
theorem priority_le_of_reaches (hr : Reaches (awaits mutexes tasks) u t) :
    (tasks u).priority ≤ (tasks t).priority := by
  induction hr using Relation.ReflTransGen.head_induction_on with
  | refl => exact le_rfl
  | head huv _ ih =>
    obtain ⟨m, hm, ho⟩ := awaits_eq_some.mp huv
    exact ((hinherits _).2 (.inr ⟨m, _, ho, (hwait m _).mpr hm, rfl⟩)).trans ih

/-- The priority of a task is the base priority of someone who waits for it, or its own. -/
theorem exists_base_of_rank {bound : Nat} {rank : TaskId → Nat}
    (hrank : ∀ a b, awaits mutexes tasks a = some b → rank b < rank a ∧ rank a < bound)
    (t : TaskId) :
    ∃ u, Reaches (awaits mutexes tasks) u t ∧ (tasks t).priority = (tasks u).basePriority := by
  -- the rank grows against the direction of waiting, and is bounded
  induction hn : bound - rank t using Nat.strong_induction_on generalizing t with
  | _ n ih =>
    obtain hbase | ⟨m, u, ho, hu, hp⟩ := (hinherits t).1
    · exact ⟨t, .refl, hbase⟩
    · have hut : awaits mutexes tasks u = some t := awaits_eq_some.mpr ⟨m, (hwait m u).mp hu, ho⟩
      obtain ⟨hlt, hub⟩ := hrank u t hut
      obtain ⟨v, hvu, hv⟩ := ih (bound - rank u) (by omega) u rfl
      exact ⟨v, .tail hvu hut, hp.trans hv⟩

theorem isGreatest_base_of_rank {bound : Nat} {rank : TaskId → Nat}
    (hrank : ∀ a b, awaits mutexes tasks a = some b → rank b < rank a ∧ rank a < bound)
    (t : TaskId) :
    IsGreatest {p | ∃ u, Reaches (awaits mutexes tasks) u t ∧ p = (tasks u).basePriority}
      (tasks t).priority := by
  refine ⟨exists_base_of_rank hwait hinherits hrank t, ?_⟩
  rintro _ ⟨u, hut, rfl⟩
  exact ((hinherits u).2 (.inl rfl)).trans (priority_le_of_reaches hwait hinherits hut)

end fixpoint

/-- The tasks with other effective priorities. -/
def reprioritized (tasks : TaskId → Tcb) (p : TaskId → Nat) : TaskId → Tcb :=
  fun t => { tasks t with priority := p t }

theorem Inv.exists_bounded_rank {stale : TaskId → Prop} (h : Inv cfg base stale k) :
    ∃ rank : TaskId → Nat, ∀ a b, awaits k.mutexes k.tasks a = some b →
      rank b < rank a ∧ rank a < cfg.schedulableTaskCapacity := by
  obtain ⟨rank, hlt, hstep⟩ := h.exists_rank
  refine ⟨rank, fun a b hab => ⟨hstep a b hab, hlt a ?_⟩⟩
  obtain ⟨m, hm, -⟩ := awaits_eq_some.mp hab
  simp [(Tcb.awaited_eq_some.mp hm).1]

/-- Every task runs at the greatest priority demanded of it. This is the only assignment of
priorities with that property, and its value is the greatest base priority among the tasks that wait
for the task through any chain of mutexes; a task of whose mutexes nobody waits for runs at its base
priority. -/
theorem priorities_inherited (h : Reachable cfg k) (t : TaskId) :
    Inherits k.mutexes k.tasks t ∧
    (∀ p : TaskId → Nat, (∀ u, Inherits k.mutexes (reprioritized k.tasks p) u) →
      p t = (k.tasks t).priority) ∧
    IsGreatest {p | ∃ u, Reaches (awaits k.mutexes k.tasks) u t ∧ p = (k.tasks u).basePriority}
      (k.tasks t).priority ∧
    ((∀ m, (k.mutexes m).owner = some t → (k.mutexes m).waiters = []) →
      (k.tasks t).priority = (k.tasks t).basePriority) := by
  have hinv := h.sound.ok.inv
  have hinherits : ∀ u, Inherits k.mutexes k.tasks u := fun u => hinv.locks.inherits u not_false
  obtain ⟨rank, hrank⟩ := hinv.exists_bounded_rank
  have hbase := isGreatest_base_of_rank hinv.locks.waiting hinherits hrank t
  refine ⟨hinherits t, fun p hp => ?_, hbase, fun hnobody => ?_⟩
  · have hwait : ∀ m u, u ∈ (k.mutexes m).waiters ↔
        (reprioritized k.tasks p u).awaited = some m := hinv.locks.waiting
    exact (isGreatest_base_of_rank hwait hp hrank t).unique hbase
  · obtain hown | ⟨m, u, ho, hu, -⟩ := (hinherits t).1
    · exact hown
    · simp [hnobody m ho] at hu

/-- Two application tasks, the second of higher priority and blocked on the mutex of the first. -/
def contendedMutexEvents : List Event :=
  bootEvents 1 ++ [createEvent 2, .mutexInit false (some 0), .start false true true,
      .delay false 1] ++
    switchEvents (.slot 1) (.slot 0) 1 ++ [.lock false (some 0) 0, .tick true 1] ++
    switchEvents (.slot 0) (.slot 1) 2 ++ [.lock false (some 0) waitForever]

theorem priorities_inherited_contended : ∃ k : Kernel, (k.tasks (.slot 0)).basePriority = 1 ∧
    (k.tasks (.slot 0)).priority = 2 ∧ Inherits k.mutexes k.tasks (.slot 0) := by
  have hrun : (execute sampleConfig (fun _ _ => True) contendedMutexEvents resetKernel).any
      (fun k => decide ((k.tasks (.slot 0)).basePriority = 1 ∧
        (k.tasks (.slot 0)).priority = 2)) = true := by
    decide +kernel
  obtain ⟨k, hreach, hbase, hprio⟩ := exists_reachable hrun
  exact ⟨k, hbase, hprio, (priorities_inherited hreach (.slot 0)).1⟩

/-! ## Deadlock -/

/-- The failures of the walks along the owners. -/
def Site.Walk (idleOwns : Prop) : Site → Prop
  | .recomputeVisited | .recomputeDepth | .priorityOwned | .priorityWaiters | .mutexWouldCycle =>
    True
  | .recomputeChain start => start ≠ .idle ∨ ¬ idleOwns
  | _ => False

theorem Site.Walk.excluded {idleOwns : Prop} {site : Site} (h : site.Walk idleOwns) :
    site.Excluded idleOwns := by
  cases site with
  | recomputeChain start => exact fun hidle => h.resolve_left fun hne => hne hidle
  | _ => trivial

/-- No cycle of tasks waits for one another's mutexes; `rts_mutex_would_cycle` tells exactly whether
the task is among those that the owner of the mutex waits for; and no event halts because a walk
along the owners met a task twice, was too long or could not install a priority. Of the idle task,
whose priority zero cannot be installed, this holds while it owns no mutex. -/
theorem no_mutex_deadlock (h : Reachable cfg k) :
    Acyclic (awaits k.mutexes k.tasks) ∧
    (∀ c m, wp (mutexWouldCycle cfg c m) (fun cycle k' => k' = k ∧ (cycle = true ↔
        ∃ owner, (k.mutexes m).owner = some owner ∧ Reaches (awaits k.mutexes k.tasks) owner c))
      (fun _ _ => False) k) ∧
    ∀ ev, ev.Enabled k → wp (runEvent cfg ev) (fun _ _ => True)
      (fun e _ => ∀ site, e = .assertion site → ¬ site.Walk k.IdleOwns) k := by
  have hsound := h.sound
  refine ⟨hsound.ok.inv.locks.acyclic, fun c m => ?_, fun ev hen => ?_⟩
  · exact wp_mutexWouldCycle hsound.ok.inv fun cycle hcycle => ⟨rfl, hcycle⟩
  · refine wp_mono (runEvent_spec hsound hen) (fun _ _ _ => trivial) ?_
    rintro _ _ htol site rfl hwalk
    exact htol.1 hwalk.excluded

theorem no_mutex_deadlock_contended : ∃ k : Kernel,
    awaits k.mutexes k.tasks (.slot 1) = some (.slot 0) ∧ Acyclic (awaits k.mutexes k.tasks) := by
  have hrun : (execute sampleConfig (fun _ _ => True) contendedMutexEvents resetKernel).any
      (fun k => decide (awaits k.mutexes k.tasks (.slot 1) = some (.slot 0))) = true := by
    decide +kernel
  obtain ⟨k, hreach, hedge⟩ := exists_reachable hrun
  exact ⟨k, hedge, (no_mutex_deadlock hreach).1⟩

/-! ## Ownership -/

/-- The mutexes each task owns, as its doubly linked list has them. -/
structure Kernel.OwnedLists (cfg : Config) (k : Kernel) (owned : TaskId → List Nat) : Prop where
  isList : ∀ t, IsList (fun m => (k.mutexes m).ownedPrevious) (fun m => (k.mutexes m).ownedNext)
    (k.tasks t).ownedMutexHead (k.tasks t).ownedMutexTail (owned t)
  length : ∀ t, (owned t).length = (k.tasks t).ownedMutexCount
  bound : ∀ t, (k.tasks t).ownedMutexCount ≤ cfg.maxMutexesPerTask
  once : ∀ m t, (k.mutexes m).owner = some t → (owned t).count m = 1 ∧ ∀ u, u ≠ t → m ∉ owned u
  unowned : ∀ m, (k.mutexes m).owner = none → (k.mutexes m).waiters = [] ∧ ∀ t, m ∉ owned t

theorem Locks.ownedLists (h : Locks cfg noneStale k.mutexes k.tasks k.currentTask) :
    ∃ owned, k.OwnedLists cfg owned := by
  obtain ⟨owned, hown⟩ := h.owned
  refine ⟨owned, hown.isList, hown.length, hown.bound, fun m t ho => ⟨?_, ?_⟩,
    fun m hnone => ⟨?_, ?_⟩⟩
  · exact List.count_eq_one_of_mem (hown.isList t).nodup ((hown.mem t m).mpr ho)
  · intro u hut hin
    rw [hown.mem, ho] at hin
    exact hut (Option.some.inj hin).symm
  · exact h.unowned m hnone
  · intro t hin
    simp [(hown.mem t m).mp hin] at hnone

/-- How a step may change the owner of a mutex. -/
inductive OwnerMove (T : Timeline) (ev : Event) (m : Nat) :
    Option TaskId → Option TaskId → Prop where
  | same (owner : Option TaskId) : OwnerMove T ev m owner owner
  | locked {c : TaskId} {timeout : Tick} (event : ev = .lock false (some m) timeout)
      (current : T.kernel.currentTask = some c) (running : (T.kernel.tasks c).state = .running) :
      OwnerMove T ev m none (some c)
  | unlocked {c : TaskId} {isr : Bool} (event : ev = .unlock isr (some m))
      (current : T.kernel.currentTask = some c) (nobody : (T.kernel.mutexes m).waiters = []) :
      OwnerMove T ev m (some c) none
  | passed {c w : TaskId} {isr : Bool} (event : ev = .unlock isr (some m))
      (current : T.kernel.currentTask = some c) (waits : w ∈ (T.kernel.mutexes m).waiters)
      (highest : ∀ u ∈ (T.kernel.mutexes m).waiters, T.kernel.prio u ≤ T.kernel.prio w)
      (earliest : ∀ u ∈ (T.kernel.mutexes m).waiters, T.kernel.prio u = T.kernel.prio w →
        T.queuedAt w ≤ T.queuedAt u) :
      OwnerMove T ev m (some c) (some w)

/-- Among waiters of equal priority, those in front took their place no later. -/
structure Timeline.QueuedInOrder (T : Timeline) : Prop where
  past : ∀ t, T.queuedAt t ≤ T.steps
  order : ∀ o a b, [a, b].Sublist (T.kernel.waiters o) → T.kernel.prio a = T.kernel.prio b →
    T.queuedAt a ≤ T.queuedAt b

theorem Recorded.queuedInOrder (h : Recorded cfg T) : T.QueuedInOrder := by
  refine h.invariant (P := Timeline.QueuedInOrder) ⟨fun _ => le_rfl, fun _ _ _ _ _ => le_rfl⟩ ?_
  intro T ev k' hT hs hst ih
  have hwait := hT.sound.ok.inv.wait
  have hwait' := (hT.step hs).sound.ok.inv.wait
  have hpast : ∀ t, (T.record cfg ev k').queuedAt t ≤ T.steps + 1 := by
    intro t
    simp only [Timeline.record]
    split
    · exact le_rfl
    · exact (ih.past t).trans (Nat.le_succ _)
  refine ⟨hpast, fun o a b hab hprio => ?_⟩
  have ha : (k'.tasks a).waitOwner = some o := (hwait'.mem o a).mp (hab.subset (by simp))
  have hb : (k'.tasks b).waitOwner = some o := (hwait'.mem o b).mp (hab.subset (by simp))
  by_cases hq : Requeues T.kernel k' b
  · have hnow : (T.record cfg ev k').queuedAt b = T.steps + 1 := if_pos hq
    exact hnow ▸ hpast a
  · obtain ⟨howner, hpb⟩ : (k'.tasks b).waitOwner = (T.kernel.tasks b).waitOwner ∧
        (k'.tasks b).priority = (T.kernel.tasks b).priority := by
      simpa [Requeues] using hq
    have hbin : b ∈ T.kernel.waiters o := (hwait.mem o b).mpr (howner.symm.trans hb)
    obtain hnew | ⟨hpa, hold⟩ := hst.fifo o a b hab hprio
    · exact absurd hnew (by simp [hpb, hbin])
    · have hain : (T.kernel.tasks a).waitOwner = some o :=
        (hwait.mem o a).mp (hold.subset (by simp))
      have hqa : ¬ Requeues T.kernel k' a := by simp [Requeues, ha, hain, hpa]
      have hsame : ∀ t, ¬ Requeues T.kernel k' t →
          (T.record cfg ev k').queuedAt t = T.queuedAt t := fun t ht => if_neg ht
      rw [hsame a hqa, hsame b hq]
      exact ih.order o a b hold (hpa.symm.trans (hprio.trans hpb))

/-- The first waiter has the highest priority and took its place first among its equals. -/
theorem Recorded.first_waiter {o : WaitObject} {w : TaskId} (h : Recorded cfg T)
    (hw : (T.kernel.waiters o).head? = some w) (hu : u ∈ T.kernel.waiters o) :
    T.kernel.prio u ≤ T.kernel.prio w ∧
      (T.kernel.prio u = T.kernel.prio w → T.queuedAt w ≤ T.queuedAt u) := by
  have hsorted := h.sound.ok.inv.wait.sorted o
  have horder := h.queuedInOrder.order o
  obtain ⟨l, hl⟩ : ∃ l, T.kernel.waiters o = w :: l := List.head?_eq_some_iff.mp hw
  rw [hl] at hu hsorted horder
  obtain rfl | hin := List.mem_cons.mp hu
  · exact ⟨le_rfl, fun _ => le_rfl⟩
  · refine ⟨(List.pairwise_cons.mp hsorted).1 u hin (by simp) (by simp), fun hp => ?_⟩
    exact horder w u ((List.singleton_sublist.mpr hin).cons_cons w) hp.symm

/-- A lock is refused in interrupt context. -/
theorem step_lock_isr {mutex : Option Nat} {timeout : Tick}
    (hs : Step cfg k (.lock true mutex timeout) k') : k' = k := by
  obtain ⟨status, hret⟩ := exists_ret_of_discard hs.2
  have hspec : wp (mutexLock cfg true mutex timeout) (fun _ k' => k' = k) (fun _ _ => True) k := by
    unfold mutexLock
    cases mutex with
    | none => exact rfl
    | some m => simp only [wp_ite, wp_pure, if_true, ite_self]
  exact (wp_ret hspec hret :)

theorem Recorded.ownerMove (h : Recorded cfg T) (hs : Step cfg T.kernel ev k') (m : Nat) :
    OwnerMove T ev m (T.kernel.mutexes m).owner (k'.mutexes m).owner := by
  have heff := (hs.stepped h.sound).effect h.sound
  have hother (h1 : ∀ isr timeout, ev ≠ .lock isr (some m) timeout)
      (h2 : ∀ isr, ev ≠ .unlock isr (some m)) :
      OwnerMove T ev m (T.kernel.mutexes m).owner (k'.mutexes m).owner :=
    heff.owner_eq h1 h2 ▸ .same _
  by_cases hlock : ∃ isr timeout, ev = .lock isr (some m) timeout
  · obtain ⟨isr, timeout, rfl⟩ := hlock
    cases isr with
    | true => exact step_lock_isr hs ▸ .same _
    | false =>
      cases heff with
      | quiet same _ => exact same.owners m ▸ .same _
      | startup before after _ _ => exact (before.owners m).trans (after.owners m).symm ▸ .same _
      | given event => simp at event
      | grants event => simp at event
      | expires moved => simp [Event.elapsed] at moved
      | locks _ _ blocks same =>
        rw [same.owners, blocks.blocks.mutexes m]
        exact .same _
      | owns free current change same =>
        rw [free, same.owners, change.mutexes]
        simp only [if_true]
        have hthread : ThreadMayCall T.kernel := hs.1.resolve_left (by simp [Event.isr])
        exact .locked rfl current (hthread.running h.sound.ok current)
  by_cases hunlock : ∃ isr, ev = .unlock isr (some m)
  · obtain ⟨isr, rfl⟩ := hunlock
    cases heff with
    | quiet same _ => exact same.owners m ▸ .same _
    | startup before after _ _ => exact (before.owners m).trans (after.owners m).symm ▸ .same _
    | given event => simp at event
    | grants event => simp at event
    | expires moved => simp [Event.elapsed] at moved
    | disowns owner current nobody change same =>
      rw [owner, same.owners, change.mutexes]
      simp only [if_true]
      exact .unlocked rfl current nobody
    | @handsOff _ _ former waiter _ change same =>
      rw [change.owner, same.owners, (change.mutexes m).2, if_pos rfl]
      have hfirst : ∀ u ∈ (T.kernel.mutexes m).waiters, _ := fun u hu =>
        h.first_waiter (o := .mutex m) change.head hu
      exact .passed rfl change.current (List.mem_of_head? change.head) (fun u hu => (hfirst u hu).1)
        fun u hu => (hfirst u hu).2
  · exact hother (fun isr timeout hev => hlock ⟨isr, timeout, hev⟩)
      fun isr hev => hunlock ⟨isr, hev⟩

/-- Every owned mutex is linked once, in the list of its owner; a mutex without owner is linked
nowhere and has no waiters; the lists are well formed and within their capacity. The owner changes
only by a lock of the running task, by an unlock without waiters, or by an unlock that passes the
mutex to the waiter of the highest priority that has waited longest among its equals. No event halts
in the checks of linking and unlinking. -/
theorem mutex_ownership_kept (h : Recorded cfg T) :
    (∃ owned, T.kernel.OwnedLists cfg owned) ∧
    (∀ ev k', Step cfg T.kernel ev k' →
      ∀ m, OwnerMove T ev m (T.kernel.mutexes m).owner (k'.mutexes m).owner) ∧
    ∀ ev, ev.Enabled T.kernel → wp (runEvent cfg ev) (fun _ _ => True)
      (fun e _ => e ≠ .assertion .mutexOwnerLink ∧ e ≠ .assertion .mutexOwnerUnlink) T.kernel := by
  refine ⟨h.sound.ok.inv.locks.ownedLists, fun ev k' hs m => h.ownerMove hs m, fun ev hen => ?_⟩
  refine wp_mono (runEvent_spec h.sound hen) (fun _ _ _ => trivial) fun e k' htol => ⟨?_, ?_⟩
  · rintro rfl
    exact htol.1 trivial
  · rintro rfl
    exact htol.1 trivial

/-- Four application tasks. The first owns the mutex; the fourth, of the same priority, waits for it
first, and then the other two, of a higher priority. -/
def crowdedMutexEvents : List Event :=
  bootEvents 1 ++ [createEvent 2, createEvent 2, createEvent 1, .mutexInit false (some 0),
      .start false true true, .delay false 1] ++
    switchEvents (.slot 1) (.slot 2) 1 ++ .delay false 1 ::
    switchEvents (.slot 2) (.slot 0) 2 ++ [.lock false (some 0) 0, .yield false] ++
    switchEvents (.slot 0) (.slot 3) 3 ++ .lock false (some 0) waitForever ::
    switchEvents (.slot 3) (.slot 0) 4 ++ .tick true 1 ::
    switchEvents (.slot 0) (.slot 1) 5 ++ .lock false (some 0) waitForever ::
    switchEvents (.slot 1) (.slot 2) 6 ++ .lock false (some 0) waitForever ::
    switchEvents (.slot 2) (.slot 0) 7

/-- The owner of the mutex, for which three tasks wait, unlocks it. -/
theorem mutex_ownership_kept_passed : ∃ T : Timeline,
    (∃ owned, T.kernel.OwnedLists crowdConfig owned) ∧
    (T.kernel.mutexes 0).waiters = [.slot 1, .slot 2, .slot 3] ∧
    OwnerMove T (.unlock false (some 0)) 0 (some (.slot 0)) (some (.slot 1)) := by
  have hrun : (execute crowdConfig (fun _ _ => True) crowdedMutexEvents resetKernel).any (fun k =>
      decide ((k.mutexes 0).owner = some (.slot 0) ∧
        (k.mutexes 0).waiters = [.slot 1, .slot 2, .slot 3] ∧
        (execute crowdConfig (fun _ _ => True) [.unlock false (some 0)] k).any (fun k' =>
          decide ((k'.mutexes 0).owner = some (.slot 1))) = true)) = true := by
    decide +kernel
  obtain ⟨k, hreach, howner, hwaiters, hunlock⟩ := exists_reachable hrun
  obtain ⟨k', hstep, howner'⟩ := exists_step hunlock
  obtain ⟨T, hT, rfl⟩ := Reachable.recorded hreach
  obtain ⟨hlists, hmoves, -⟩ := mutex_ownership_kept hT
  refine ⟨T, hlists, hwaiters, ?_⟩
  rw [← howner, ← howner']
  exact hmoves _ k' hstep 0

/-! ## Lock and unlock without contention -/

/-- The links of the owned lists are determined by the lists. -/
theorem Owned.links_eq {owned : TaskId → List Nat} {mutexes' : Nat → Mutex} {tasks' : TaskId → Tcb}
    (h : Owned cfg mutexes tasks owned) (h' : Owned cfg mutexes' tasks' owned)
    (howner : (mutexes' m).owner = (mutexes m).owner) :
    (mutexes' m).ownedPrevious = (mutexes m).ownedPrevious ∧
    (mutexes' m).ownedNext = (mutexes m).ownedNext := by
  cases ho : (mutexes m).owner with
  | none =>
    obtain ⟨hprev, hnext⟩ := h.free m ho
    obtain ⟨hprev', hnext'⟩ := h'.free m (howner.trans ho)
    exact ⟨hprev'.trans hprev.symm, hnext'.trans hnext.symm⟩
  | some t =>
    obtain ⟨l₁, l₂, hl⟩ := List.append_of_mem ((h.mem t m).mpr ho)
    have hlist := h.isList t
    have hlist' := h'.isList t
    rw [hl] at hlist hlist'
    obtain ⟨hprev, hnext⟩ := hlist.neighbours
    obtain ⟨hprev', hnext'⟩ := hlist'.neighbours
    exact ⟨hprev'.trans hprev.symm, hnext'.trans hnext.symm⟩

/-- Linking a free mutex at the end of an owned list and unlinking it again changes nothing. -/
theorem OwnerChanged.restored {owned : TaskId → List Nat} {k₁ k₂ : Kernel} {c : TaskId}
    (h₁ : OwnerChanged k k₁ m (some c)) (h₂ : OwnerChanged k₁ k₂ m none)
    (hfree : (k.mutexes m).owner = none) (hown : Owned cfg k.mutexes k.tasks owned)
    (hown₂ : Owned cfg k₂.mutexes k₂.tasks owned) : k₂ = k := by
  have howner : ∀ n, (k₂.mutexes n).owner = (k.mutexes n).owner := by
    intro n
    rw [h₂.mutexes n, h₁.mutexes n]
    by_cases hn : n = m
    · simp [hn, hfree]
    · simp [hn]
  have hmutexes : k₂.mutexes = k.mutexes := by
    funext n
    obtain ⟨hprev, hnext⟩ := hown.links_eq hown₂ (howner n)
    have howner' := howner n
    rw [h₂.mutexes n, h₁.mutexes n] at howner'
    rw [h₂.mutexes n, h₁.mutexes n, hprev, hnext]
    simp only at howner'
    simp only [howner']
  have htasks : k₂.tasks = k.tasks := by
    funext t
    have hhead : (k₂.tasks t).ownedMutexHead = (k.tasks t).ownedMutexHead :=
      (hown₂.isList t).head_eq.trans (hown.isList t).head_eq.symm
    have htail : (k₂.tasks t).ownedMutexTail = (k.tasks t).ownedMutexTail :=
      (hown₂.isList t).tail_eq.trans (hown.isList t).tail_eq.symm
    have hcount : (k₂.tasks t).ownedMutexCount = (k.tasks t).ownedMutexCount :=
      (hown₂.length t).symm.trans (hown.length t)
    rw [h₂.tasks t, h₁.tasks t, hhead, htail, hcount]
  rw [h₂.rest, h₁.rest, hmutexes, htasks]

/-- Recomputing the priority of a task that does not wait installs the priority it has, which is
refused when it is zero. -/
theorem wp_recomputeChainOrFatal_settled {c : TaskId} {Q : Unit → Kernel → Prop}
    {E : Fatal → Kernel → Prop} (h : Inv cfg base noneStale k)
    (hd : (k.tasks c).state ≠ .dormant) (hb : (k.tasks c).state ≠ .blocked)
    (hQ : (k.tasks c).priority ≠ 0 → Q () k)
    (hE : (k.tasks c).priority = 0 → E (.assertion (.recomputeChain c)) k) :
    wp (recomputeChainOrFatal cfg (some c)) Q E k := by
  have hinherits : Inherits k.mutexes k.tasks c := h.locks.inherits c not_false
  obtain ⟨n, hn⟩ : ∃ n, cfg.schedulableTaskCapacity = n + 1 := ⟨_, rfl⟩
  simp only [recomputeChainOrFatal, priorityRecomputeChain, hn, recomputeFrom, List.not_mem_nil,
    if_false, wp_bind]
  refine wp_priorityRequiredByOwned h fun p hp => ?_
  obtain rfl : p = (k.tasks c).priority := hp.unique hinherits
  have hlt := h.demand_lt hd hp.1
  have hle : (k.tasks c).basePriority ≤ (k.tasks c).priority := hp.2 (.inl rfl)
  simp only [prioritySetEffective, wp_bind, wp_get, wp_ite]
  by_cases hzero : (k.tasks c).priority = 0
  · rw [if_pos (.inr (.inl hzero)), wp_pure, if_pos rfl, wp_pure, wp_fatalUnless]
    exact ⟨fun hfalse => by simp at hfalse, fun _ => hE hzero⟩
  · rw [if_neg (by omega), if_pos trivial, wp_pure, if_neg (by simp), if_pos (.inl hb), wp_pure,
      wp_fatalUnless_of rfl]
    exact hQ hzero

/-- A free mutex that was locked is the last one its owner owns. -/
theorem mutexLock_ok_spec {c : TaskId} {timeout : Tick} (h : Inv cfg base noneStale k)
    {owned : TaskId → List Nat} (hown : Owned cfg k.mutexes k.tasks owned)
    (hc : k.currentTask = some c) (hst : (k.tasks c).state ≠ .blocked)
    (hfree : (k.mutexes m).owner = none) :
    wp (mutexLock cfg false (some m) timeout)
      (fun status k₁ => status = .ok → OwnerChanged k k₁ m (some c) ∧
        Owned cfg k₁.mutexes k₁.tasks (Function.update owned c (owned c ++ [m])) ∧
        Inv cfg base noneStale k₁)
      (fun _ _ => True) k := by
  have hl := h.running_of_current hc
  simp only [mutexLock, wp_ite, wp_bind, wp_get, hl, hc]
  split
  · simp
  simp only [Bool.false_eq_true, if_false, ne_eq, not_true_eq_false]
  split <;> rename_i hvalid
  · simp
  rw [not_not] at hvalid
  simp only [mutexLockAs, hfree, wp_bind, wp_get, wp_ite]
  rw [wp_fatalUnless_of (h.locks.unowned m hfree)]
  split <;> rename_i hcap
  · simp
  refine wp_mutexOwnerLink hown hfree (by omega) fun k₁ hch hown₁ => ?_
  exact fun _ => ⟨hch, hown₁, h.acquired hown hc hst hfree hvalid.1 hch hown₁⟩

/-- Nothing stops the current task when it unlocks a mutex that nobody waits for: its priority is
one that can be installed, the policy picks no boosted idle task, and if the current task is
`READY`, that is not checked. -/
def Kernel.UnlockPasses (cfg : Config) (k : Kernel) (c : TaskId) : Prop :=
  (k.tasks c).priority ≠ 0 ∧
  (policyPickNext cfg k = some .idle → (k.tasks .idle).priority = 0) ∧
  ((k.tasks c).state = .ready → cfg.enableAssertions = false)

instance (cfg : Config) (k : Kernel) (c : TaskId) : Decidable (k.UnlockPasses cfg c) :=
  inferInstanceAs (Decidable (_ ∧ _ ∧ _))

/-- The selection at the end of an unlock returns exactly when nothing stops it. -/
theorem wp_planAfterWake_unlockPasses {c : TaskId} (h : Inv cfg base noneStale k)
    (hc : k.currentTask = some c) (hprio : (k.tasks c).priority ≠ 0) :
    wp (planAfterWake cfg) (fun _ k' => k.UnlockPasses cfg c ∧ Replanned k k')
      (fun _ _ => ¬ k.UnlockPasses cfg c) k := by
  have hreadyOf : k.CurrentReady → (k.tasks c).state = .ready := by
    rintro ⟨d, hd, hst⟩
    rwa [Option.some.inj (hc.symm.trans hd)]
  have hidle : ∀ {p}, policyPickNext cfg k = some p → TaskIsRunnable cfg k p →
      policyPickNext cfg k = some .idle → (k.tasks .idle).priority = 0 := by
    intro p hp hrun hidle
    obtain rfl : p = .idle := Option.some.inj (hp.symm.trans hidle)
    exact (h.taskIsRunnable_iff.mp hrun).2 rfl
  refine wp_planAfterWake h (by simp) hc (fun b k' hp => ⟨⟨hprio, ?_⟩, hp.replanned⟩)
    (fun hpick hboost hpass => hboost (hpass.2.1 hpick)) fun hready hon hpass => ?_
  · cases hp with
    | rejected _ hoff hpick hrun => exact ⟨hidle hpick hrun, fun _ => hoff⟩
    | prepared d p hd hne hpick hrun =>
      obtain rfl : c = d := Option.some.inj (hc.symm.trans hd)
      exact ⟨hidle hpick hrun, fun hst => absurd hst hne⟩
  · simp [hpass.2.2 (hreadyOf hready)] at hon

/-- The current task locks a free mutex and unlocks it again. The unlock succeeds, and restores
everything but the switch plan and the counters, exactly when nothing stops it; otherwise it
halts. -/
theorem uncontended_lock_identity {c : TaskId} {timeout : Tick} {k₁ : Kernel}
    (h : Reachable cfg k) (hc : k.currentTask = some c) (hst : (k.tasks c).state ≠ .blocked)
    (hfree : (k.mutexes m).owner = none)
    (hlock : mutexLock cfg false (some m) timeout k = .ret .ok k₁) :
    (k.UnlockPasses cfg c ↔
      ∃ k₂, mutexUnlock cfg false (some m) k₁ = .ret .ok k₂ ∧ Replanned k k₂) ∧
    (¬ k.UnlockPasses cfg c ↔ ∃ e k₂, mutexUnlock cfg false (some m) k₁ = .halt e k₂) := by
  have hinv := h.sound.ok.inv
  obtain ⟨owned, hown⟩ := hinv.locks.owned
  obtain ⟨hch, hown₁, hinv₁⟩ := (wp_ret (mutexLock_ok_spec hinv hown hc hst hfree) hlock :) rfl
  have howner₁ : (k₁.mutexes m).owner = some c := by rw [hch.mutexes m]; simp
  have hcur₁ : k₁.currentTask = some c := hch.sameSchedule.currentTask.trans hc
  have hl₁ := hinv₁.running_of_current hcur₁
  have hinit₁ : (k₁.mutexes m).initialized = true := by
    by_contra hinit
    have hnone := hinv₁.locks.uninitialized m (by simpa using hinit)
    simp [howner₁] at hnone
  have hnil₁ : (k₁.mutexes m).waiters = [] := by
    rw [hch.mutexes m]
    exact hinv.locks.unowned m hfree
  have hout : m ∉ owned c := fun hin => by simp [(hown.mem c m).mp hin] at hfree
  have herase : Function.update (Function.update owned c (owned c ++ [m])) c
      ((Function.update owned c (owned c ++ [m]) c).erase m) = owned := by
    simp [List.erase_append_right _ hout]
  have hunlock : wp (mutexUnlock cfg false (some m))
      (fun status k₂ => k.UnlockPasses cfg c ∧ status = .ok ∧ Replanned k k₂)
      (fun _ _ => ¬ k.UnlockPasses cfg c) k₁ := by
    simp only [mutexUnlock, wp_ite, wp_bind, wp_get, Bool.false_eq_true, if_false, hl₁, ne_eq,
      not_true_eq_false, hinv₁.mutexIsValid hinit₁, hcur₁, howner₁, mutexUnlockAs, if_pos hnil₁]
    refine wp_mutexOwnerUnlink hown₁ howner₁ fun k₂ hch₂ hown₂ => ?_
    rw [herase] at hown₂
    obtain rfl : k₂ = k := hch.restored hch₂ hfree hown hown₂
    refine wp_recomputeChainOrFatal_settled hinv (hinv.not_dormant_of_current hc) hst
      (fun hprio => ?_) fun hzero hpass => hpass.1 hzero
    rw [hfree]
    simp only [recomputeChainOrFatal, wp_pure]
    refine wp_mono (wp_planAfterWake_unlockPasses hinv hc hprio) (fun b k₃ hk₃ => ?_) fun _ _ => id
    exact wp_notifyPort ⟨hk₃.1, trivial, hk₃.2.trans (.notify k₃ b)⟩
  cases hret : mutexUnlock cfg false (some m) k₁ with
  | ret status k₂ =>
    obtain ⟨hpass, rfl, hsame⟩ : _ ∧ status = .ok ∧ _ := (wp_ret hunlock hret :)
    simp [hpass, hsame]
  | halt e k₂ =>
    have hstops : ¬ k.UnlockPasses cfg c := (wp_halted hunlock hret :)
    simp [hstops]

/-- A task that owns a mutex for which another task waits, and so runs at the priority of that task,
locks a second mutex and gives it back. -/
theorem uncontended_lock_identity_boosted : ∃ k k₁ k₂ : Kernel,
    (k.mutexes 0).owner = some (.slot 0) ∧ (k.mutexes 0).waiters = [.slot 1] ∧
    (k.tasks (.slot 0)).priority = 2 ∧
    mutexLock sampleConfig false (some 1) 0 k = .ret .ok k₁ ∧
    mutexUnlock sampleConfig false (some 1) k₁ = .ret .ok k₂ ∧ Replanned k k₂ := by
  have hrun : (execute sampleConfig (fun _ _ => True) (contendedMutexEvents ++
      switchEvents (.slot 1) (.slot 0) 3 ++ [.mutexInit false (some 1)]) resetKernel).any (fun k =>
        decide (((k.mutexes 0).owner = some (.slot 0) ∧ (k.mutexes 0).waiters = [.slot 1] ∧
          (k.tasks (.slot 0)).priority = 2) ∧ k.currentTask = some (.slot 0) ∧
          (k.tasks (.slot 0)).state ≠ .blocked ∧ k.UnlockPasses sampleConfig (.slot 0) ∧
          (k.mutexes 1).owner = none ∧
          (mutexLock sampleConfig false (some 1) 0 k).value? = some .ok)) = true := by
    decide +kernel
  obtain ⟨k, hreach, ⟨howner, hwaiters, hprio⟩, hc, hst, hpass, hfree, hok⟩ := exists_reachable hrun
  have hlock := Outcome.eq_ret hok
  obtain ⟨k₂, hunlock, hsame⟩ := (uncontended_lock_identity hreach hc hst hfree hlock).1.mp hpass
  exact ⟨k, _, k₂, howner, hwaiters, hprio, hlock, hunlock, hsame⟩

/-- The idle task locks a free mutex; unlocking it recomputes the priority zero of the idle task,
which `rts_priority_set_effective` refuses, and the kernel halts. -/
theorem idle_unlock_halts : ∃ k k₁ k₂ : Kernel, Reachable sampleConfig k ∧
    k.currentTask = some .idle ∧ (k.tasks .idle).state = .running ∧ (k.mutexes 0).owner = none ∧
    mutexLock sampleConfig false (some 0) 0 k = .ret .ok k₁ ∧
    mutexUnlock sampleConfig false (some 0) k₁ = .halt (.assertion (.recomputeChain .idle)) k₂ := by
  have hrun : (execute sampleConfig (fun _ _ => True) (bootEvents 1 ++ [.mutexInit false (some 0),
      .start false true true, .delay false 5, .acquire, .complete ⟨.slot 0, .idle, 1⟩ true])
      resetKernel).any (fun k =>
        decide (k.currentTask = some .idle ∧ (k.tasks .idle).state = .running ∧
          (k.mutexes 0).owner = none ∧
          (mutexLock sampleConfig false (some 0) 0 k).value? = some .ok ∧
          (mutexUnlock sampleConfig false (some 0)
            (mutexLock sampleConfig false (some 0) 0 k).state).reason? =
              some (.assertion (.recomputeChain .idle)))) = true := by
    decide +kernel
  obtain ⟨k, hreach, hc, hstate, hfree, hok, hhalt⟩ := exists_reachable hrun
  exact ⟨k, _, _, hreach, hc, hstate, hfree, Outcome.eq_ret hok, Outcome.eq_halt hhalt⟩

end RtsKernel
