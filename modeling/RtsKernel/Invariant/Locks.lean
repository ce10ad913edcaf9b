import Mathlib.Order.Bounds.Basic
import RtsKernel.Invariant.Ownership
import RtsKernel.Library.Chain

/-!
# Ownership, waiting and inherited priority

`Locks` ties the owners of the mutexes to the tasks that wait for them: the wait-for relation is
acyclic and every task, except those listed as stale, runs at the greatest priority demanded of
it. It reads the tasks only through `Tcb.SameLocks`, so that operations elsewhere in the kernel
keep it; the operations on mutexes are specified here as changes of owners and waiters.
-/

namespace RtsKernel

open Chain

/-- The mutex a task is blocked on. -/
def Tcb.awaited (task : Tcb) : Option Nat :=
  if task.state = .blocked ∧ task.wait.reason = .mutex then
    match task.wait.object with
    | some (.mutex m) => some m
    | _ => none
  else none

/-- The owner of the mutex a task is blocked on. -/
def awaits (mutexes : Nat → Mutex) (tasks : TaskId → Tcb) (t : TaskId) : Option TaskId :=
  (tasks t).awaited.bind fun m => (mutexes m).owner

/-- The priorities a task has to provide: its base priority, and the priorities of the tasks that
wait for a mutex it owns. -/
def demand (mutexes : Nat → Mutex) (tasks : TaskId → Tcb) (t : TaskId) : Set Nat :=
  {p | p = (tasks t).basePriority ∨ ∃ m u, (mutexes m).owner = some t ∧ u ∈ (mutexes m).waiters ∧
    p = (tasks u).priority}

/-- The task runs at the greatest priority demanded of it. -/
def Inherits (mutexes : Nat → Mutex) (tasks : TaskId → Tcb) (t : TaskId) : Prop :=
  IsGreatest (demand mutexes tasks t) (tasks t).priority

/-- Ownership and inheritance, with the exception of the tasks whose priority is `stale`. -/
structure Locks (cfg : Config) (stale : TaskId → Prop) (mutexes : Nat → Mutex)
    (tasks : TaskId → Tcb) (current : Option TaskId) : Prop where
  owned : ∃ owned, Owned cfg mutexes tasks owned
  unowned : ∀ m, (mutexes m).owner = none → (mutexes m).waiters = []
  owner_valid : ∀ m t, (mutexes m).owner = some t → (tasks t).state ≠ .dormant
  uninitialized : ∀ m, (mutexes m).initialized = false → (mutexes m).owner = none
  waiting : ∀ m t, t ∈ (mutexes m).waiters ↔ (tasks t).awaited = some m
  acyclic : Acyclic (awaits mutexes tasks)
  inherits : ∀ t, ¬ stale t → Inherits mutexes tasks t
  idle : current = some .idle → ∀ m, (mutexes m).owner = some .idle → (mutexes m).waiters = []

/-- The control blocks agree in what `Locks` reads. -/
structure Tcb.SameLocks (a b : Tcb) : Prop where
  basePriority : b.basePriority = a.basePriority
  priority : b.priority = a.priority
  head : b.ownedMutexHead = a.ownedMutexHead
  tail : b.ownedMutexTail = a.ownedMutexTail
  count : b.ownedMutexCount = a.ownedMutexCount
  dormant : b.state = .dormant → a.state = .dormant
  awaited : b.awaited = a.awaited

theorem Tcb.SameLocks.refl (a : Tcb) : a.SameLocks a := ⟨rfl, rfl, rfl, rfl, rfl, id, rfl⟩

theorem Tcb.awaited_of_state {task : Tcb} (h : task.state ≠ .blocked) : task.awaited = none := by
  simp [Tcb.awaited, h]

theorem Tcb.awaited_of_reason {task : Tcb} (h : task.wait.reason ≠ .mutex) :
    task.awaited = none := by
  simp [Tcb.awaited, h]

theorem Tcb.awaited_eq_some {task : Tcb} {m : Nat} : task.awaited = some m ↔
    task.state = .blocked ∧ task.wait.reason = .mutex ∧ task.wait.object = some (.mutex m) := by
  unfold Tcb.awaited
  split <;> rename_i h
  · cases hobj : task.wait.object with
    | none => simp
    | some o => cases o <;> simp [h]
  · simp only [reduceCtorEq, false_iff]
    exact fun hc => h ⟨hc.1, hc.2.1⟩

/-- A task that is not blocked any more, or is blocked on something else, awaits no mutex. -/
theorem Tcb.SameLocks.of_release {a b : Tcb} (h : a.SameButRelease b) : a.SameLocks b := by
  constructor <;> rw [h] <;> first | rfl | exact id

variable {cfg : Config} {stale stale' : TaskId → Prop} {mutexes mutexes' : Nat → Mutex}
  {tasks tasks' : TaskId → Tcb} {current current' : Option TaskId} {t u c : TaskId} {m n : Nat}

theorem awaits_eq_some : awaits mutexes tasks t = some u ↔
    ∃ m, (tasks t).awaited = some m ∧ (mutexes m).owner = some u := by
  simp [awaits, Option.bind_eq_some_iff]

/-- The fields of the tasks that no change of owners or waiters touches. -/
def SameBases (tasks tasks' : TaskId → Tcb) : Prop :=
  ∀ t, (tasks' t).basePriority = (tasks t).basePriority ∧
    (tasks' t).priority = (tasks t).priority ∧
    ((tasks' t).state = .dormant → (tasks t).state = .dormant)

namespace Locks

/-- Two states of the locks that agree in owners, waiters and the relevant task fields. -/
theorem congr (h : Locks cfg stale mutexes tasks current)
    (ht : ∀ t, (tasks t).SameLocks (tasks' t))
    (hm : ∀ m, (mutexes' m).owner = (mutexes m).owner ∧
      (mutexes' m).ownedPrevious = (mutexes m).ownedPrevious ∧
      (mutexes' m).ownedNext = (mutexes m).ownedNext ∧
      ((mutexes' m).initialized = false → (mutexes m).initialized = false) ∧
      ∀ t, t ∈ (mutexes' m).waiters ↔ t ∈ (mutexes m).waiters)
    (hs : ∀ t, stale t → stale' t) (hc : current' = some .idle → current = some .idle) :
    Locks cfg stale' mutexes' tasks' current' := by
  have hnil : ∀ m, (mutexes m).waiters = [] → (mutexes' m).waiters = [] := by
    intro m hnil
    rw [List.eq_nil_iff_forall_not_mem] at hnil ⊢
    exact fun t hin => hnil t (((hm m).2.2.2.2 t).mp hin)
  have hawaits : awaits mutexes' tasks' = awaits mutexes tasks := by
    funext t
    unfold awaits
    rw [(ht t).awaited]
    cases (tasks t).awaited with
    | none => rfl
    | some m => exact (hm m).1
  have hdemand : ∀ t, demand mutexes' tasks' t = demand mutexes tasks t := by
    intro t
    unfold demand
    ext p
    simp only [Set.mem_ofPred_eq, (ht _).basePriority, (ht _).priority, (hm _).1, (hm _).2.2.2.2]
  obtain ⟨owned, hown⟩ := h.owned
  refine ⟨⟨owned, hown.congr (fun m => ⟨(hm m).1, (hm m).2.1, (hm m).2.2.1⟩)
    fun t => ⟨(ht t).head, (ht t).tail, (ht t).count⟩⟩, ?_, ?_, ?_, ?_, hawaits ▸ h.acyclic, ?_, ?_⟩
  · intro m hnone
    exact hnil m (h.unowned m ((hm m).1 ▸ hnone))
  · intro m t ho hd
    exact h.owner_valid m t ((hm m).1 ▸ ho) ((ht t).dormant hd)
  · intro m hi
    rw [(hm m).1]
    exact h.uninitialized m ((hm m).2.2.2.1 hi)
  · intro m t
    rw [(hm m).2.2.2.2, (ht t).awaited]
    exact h.waiting m t
  · intro t hst
    unfold Inherits
    rw [hdemand, (ht t).priority]
    exact h.inherits t fun hc => hst (hs t hc)
  · intro hcur m ho
    exact hnil m (h.idle (hc hcur) m ((hm m).1 ▸ ho))

theorem congr_tasks (h : Locks cfg stale mutexes tasks current)
    (ht : ∀ t, (tasks t).SameLocks (tasks' t)) (hc : current' = some .idle → current = some .idle) :
    Locks cfg stale mutexes tasks' current' :=
  h.congr ht (fun _ => ⟨rfl, rfl, rfl, id, fun _ => Iff.rfl⟩) (fun _ => id) hc

theorem inherits_congr (hb : SameBases tasks tasks') (h : Inherits mutexes tasks t)
    (hw : ∀ m u, (mutexes' m).owner = some t ∧ u ∈ (mutexes' m).waiters ↔
      (mutexes m).owner = some t ∧ u ∈ (mutexes m).waiters) : Inherits mutexes' tasks' t := by
  have hdemand : demand mutexes' tasks' t = demand mutexes tasks t := by
    unfold demand
    ext p
    simp only [Set.mem_ofPred_eq, (hb _).1, (hb _).2.1, ← and_assoc, hw]
  unfold Inherits
  rw [hdemand, (hb t).2.1]
  exact h

/-- A task stops waiting: the owner it was waiting for may be boosted too high. -/
theorem wake (h : Locks cfg stale mutexes tasks current)
    (hown : ∃ owned, Owned cfg mutexes' tasks' owned) (hb : SameBases tasks tasks')
    (ha : ∀ u, (tasks' u).awaited = if u = t then none else (tasks u).awaited)
    (ho : ∀ m, (mutexes' m).owner = (mutexes m).owner)
    (hi : ∀ m, (mutexes' m).initialized = (mutexes m).initialized)
    (hw : ∀ m u, u ∈ (mutexes' m).waiters ↔ u ∈ (mutexes m).waiters ∧ u ≠ t)
    (hs : ∀ u, stale u ∨ awaits mutexes tasks t = some u → stale' u) :
    Locks cfg stale' mutexes' tasks' current := by
  have hnil : ∀ m, (mutexes m).waiters = [] → (mutexes' m).waiters = [] := by
    intro m hnil
    rw [List.eq_nil_iff_forall_not_mem] at hnil ⊢
    exact fun u hin => hnil u ((hw m u).mp hin).1
  refine ⟨hown, ?_, ?_, ?_, ?_, ?_, ?_, ?_⟩
  · intro m hnone
    exact hnil m (h.unowned m (ho m ▸ hnone))
  · intro m u hown hd
    exact h.owner_valid m u (ho m ▸ hown) ((hb u).2.2 hd)
  · intro m hinit
    rw [ho]
    exact h.uninitialized m (hi m ▸ hinit)
  · intro m u
    rw [hw, ha, h.waiting]
    by_cases hut : u = t <;> simp [hut]
  · refine h.acyclic.redirect fun a b hab => .inl ?_
    obtain ⟨m, ham, hmb⟩ := awaits_eq_some.mp hab
    rw [ha] at ham
    split at ham
    · simp at ham
    · exact awaits_eq_some.mpr ⟨m, ham, ho m ▸ hmb⟩
  · intro u hu
    refine inherits_congr hb (h.inherits u fun hc => hu (hs u (.inl hc))) fun m v => ?_
    rw [ho, hw]
    constructor
    · exact fun hc => ⟨hc.1, hc.2.1⟩
    · rintro ⟨hmu, hv⟩
      refine ⟨hmu, hv, ?_⟩
      rintro rfl
      exact hu (hs u (.inr (awaits_eq_some.mpr ⟨m, (h.waiting m v).mp hv, hmu⟩)))
  · intro hcur m hmi
    exact hnil m (h.idle hcur m (ho m ▸ hmi))

/-- A waiter becomes the owner of the mutex it was waiting for. -/
theorem handoff {former waiter : TaskId} (h : Locks cfg stale mutexes tasks current)
    (hown : ∃ owned, Owned cfg mutexes' tasks' owned) (hb : SameBases tasks tasks')
    (hm : (mutexes m).owner = some former) (hwm : (tasks waiter).awaited = some m)
    (hwi : waiter ≠ .idle)
    (ha : ∀ u, (tasks' u).awaited = if u = waiter then none else (tasks u).awaited)
    (ho : ∀ n, (mutexes' n).owner = if n = m then some waiter else (mutexes n).owner)
    (hi : ∀ m, (mutexes' m).initialized = (mutexes m).initialized)
    (hw : ∀ m u, u ∈ (mutexes' m).waiters ↔ u ∈ (mutexes m).waiters ∧ u ≠ waiter) :
    Locks cfg (fun u => stale u ∨ u = former ∨ u = waiter) mutexes' tasks' current := by
  have hnil : ∀ m, (mutexes m).waiters = [] → (mutexes' m).waiters = [] := by
    intro m hnil
    rw [List.eq_nil_iff_forall_not_mem] at hnil ⊢
    exact fun u hin => hnil u ((hw m u).mp hin).1
  have hwd : (tasks waiter).state ≠ .dormant := by
    rw [(Tcb.awaited_eq_some.mp hwm).1]
    simp
  refine ⟨hown, ?_, ?_, ?_, ?_, ?_, ?_, ?_⟩
  · intro n hnone
    rw [ho] at hnone
    split at hnone
    · simp at hnone
    · exact hnil n (h.unowned n hnone)
  · intro n u hown hd
    rw [ho] at hown
    split at hown
    · obtain rfl : waiter = u := Option.some.inj hown
      exact hwd ((hb waiter).2.2 hd)
    · exact h.owner_valid n u hown ((hb u).2.2 hd)
  · intro n hinit
    rw [hi] at hinit
    have hnone := h.uninitialized n hinit
    have hne : n ≠ m := by
      rintro rfl
      simp [hm] at hnone
    rw [ho, if_neg hne, hnone]
  · intro n u
    rw [hw, ha, h.waiting]
    by_cases huw : u = waiter <;> simp [huw]
  · have hnone : awaits mutexes' tasks' waiter = none := by simp [awaits, ha]
    refine h.acyclic.redirect fun a b hab => ?_
    obtain ⟨n, han, hnb⟩ := awaits_eq_some.mp hab
    rw [ha] at han
    split at han
    · simp at han
    · rw [ho] at hnb
      split at hnb
      · exact .inr (Option.some.inj hnb ▸ hnone)
      · exact .inl (awaits_eq_some.mpr ⟨n, han, hnb⟩)
  · intro u hu
    simp only [not_or] at hu
    obtain ⟨hst, huf, huw⟩ := hu
    refine inherits_congr hb (h.inherits u hst) fun n v => ?_
    rw [ho, hw]
    by_cases hnm : n = m
    · subst hnm
      simp [hm, Ne.symm huf, Ne.symm huw]
    · rw [if_neg hnm]
      constructor
      · exact fun hc => ⟨hc.1, hc.2.1⟩
      · rintro ⟨hnu, hv⟩
        refine ⟨hnu, hv, ?_⟩
        rintro rfl
        rw [h.waiting, hwm] at hv
        exact hnm (Option.some.inj hv).symm
  · intro hcur n hni
    rw [ho] at hni
    split at hni
    · exact absurd (Option.some.inj hni) hwi
    · exact hnil n (h.idle hcur n hni)

/-- A mutex without waiters changes its owner. -/
theorem reown {owner : Option TaskId} (h : Locks cfg stale mutexes tasks current)
    (hown : ∃ owned, Owned cfg mutexes' tasks' owned) (hb : SameBases tasks tasks')
    (hm : (mutexes m).waiters = []) (hvalid : ∀ t, owner = some t → (tasks t).state ≠ .dormant)
    (hinit : (mutexes m).initialized = true)
    (ha : ∀ u, (tasks' u).awaited = (tasks u).awaited)
    (ho : ∀ n, (mutexes' n).owner = if n = m then owner else (mutexes n).owner)
    (hi : ∀ m, (mutexes' m).initialized = (mutexes m).initialized)
    (hw : ∀ m, (mutexes' m).waiters = (mutexes m).waiters) :
    Locks cfg stale mutexes' tasks' current := by
  refine ⟨hown, ?_, ?_, ?_, ?_, ?_, ?_, ?_⟩
  · intro n hnone
    rw [hw]
    by_cases hnm : n = m
    · rw [hnm, hm]
    · rw [ho, if_neg hnm] at hnone
      exact h.unowned n hnone
  · intro n u hown hd
    rw [ho] at hown
    split at hown
    · exact hvalid u hown ((hb u).2.2 hd)
    · exact h.owner_valid n u hown ((hb u).2.2 hd)
  · intro n hn
    have hne : n ≠ m := by
      rintro rfl
      simp [hi, hinit] at hn
    rw [ho, if_neg hne]
    exact h.uninitialized n (hi n ▸ hn)
  · intro n u
    rw [hw, ha]
    exact h.waiting n u
  · refine h.acyclic.redirect fun a b hab => .inl ?_
    obtain ⟨n, han, hnb⟩ := awaits_eq_some.mp hab
    rw [ha] at han
    have hne : n ≠ m := by
      rintro rfl
      have hin := (h.waiting n a).mpr han
      simp [hm] at hin
    rw [ho, if_neg hne] at hnb
    exact awaits_eq_some.mpr ⟨n, han, hnb⟩
  · intro u hu
    refine inherits_congr hb (h.inherits u hu) fun n v => ?_
    rw [ho, hw]
    by_cases hnm : n = m
    · subst hnm
      simp [hm]
    · rw [if_neg hnm]
  · intro hcur n hni
    rw [hw]
    by_cases hnm : n = m
    · rw [hnm, hm]
    · rw [ho, if_neg hnm] at hni
      exact h.idle hcur n hni

/-- A task begins to wait for a mutex, which closes no cycle: its owner may need a boost. -/
theorem block {owner : TaskId} (h : Locks cfg stale mutexes tasks current)
    (hown : ∃ owned, Owned cfg mutexes' tasks' owned) (hb : SameBases tasks tasks')
    (hm : (mutexes m).owner = some owner) (hnone : (tasks c).awaited = none)
    (hcycle : ¬ Reaches (awaits mutexes tasks) owner c) (hcur : current ≠ some .idle)
    (ha : ∀ u, (tasks' u).awaited = if u = c then some m else (tasks u).awaited)
    (ho : ∀ n, (mutexes' n).owner = (mutexes n).owner)
    (hi : ∀ m, (mutexes' m).initialized = (mutexes m).initialized)
    (hw : ∀ n u, u ∈ (mutexes' n).waiters ↔ u ∈ (mutexes n).waiters ∨ n = m ∧ u = c) :
    Locks cfg (fun u => stale u ∨ u = owner) mutexes' tasks' current := by
  refine ⟨hown, ?_, ?_, ?_, ?_, ?_, ?_, ?_⟩
  · intro n hn
    rw [ho] at hn
    rw [List.eq_nil_iff_forall_not_mem]
    intro u hin
    rw [hw, h.unowned n hn] at hin
    obtain hin | ⟨rfl, -⟩ := hin
    · simp at hin
    · simp [hm] at hn
  · intro n u hown hd
    exact h.owner_valid n u (ho n ▸ hown) ((hb u).2.2 hd)
  · intro n hn
    rw [ho]
    exact h.uninitialized n (hi n ▸ hn)
  · intro n u
    rw [hw, ha, h.waiting]
    by_cases huc : u = c
    · subst huc
      simp [hnone, eq_comm]
    · simp [huc]
  · refine h.acyclic.addEdge hcycle fun a b hab => ?_
    obtain ⟨n, han, hnb⟩ := awaits_eq_some.mp hab
    rw [ha] at han
    rw [ho] at hnb
    split at han <;> rename_i hac
    · obtain rfl : m = n := Option.some.inj han
      rw [hm] at hnb
      exact .inr ⟨hac, (Option.some.inj hnb).symm⟩
    · exact .inl (awaits_eq_some.mpr ⟨n, han, hnb⟩)
  · intro u hu
    simp only [not_or] at hu
    refine inherits_congr hb (h.inherits u hu.1) fun n v => ?_
    rw [ho, hw]
    constructor
    · rintro ⟨hnu, hv | ⟨rfl, rfl⟩⟩
      · exact ⟨hnu, hv⟩
      · rw [hm] at hnu
        exact absurd (Option.some.inj hnu).symm hu.2
    · exact fun hc => ⟨hc.1, .inl hc.2⟩
  · exact fun hc => absurd hc hcur

/-- Installing the demanded priority of one task, which may make the next owner stale. -/
theorem setPriority {p : Nat} (h : Locks cfg stale mutexes tasks current)
    (hp : IsGreatest (demand mutexes tasks t) p)
    (htask : ∀ u, tasks' u = { tasks u with priority := if u = t then p else (tasks u).priority })
    (hm : ∀ m, (mutexes' m).owner = (mutexes m).owner ∧
      (mutexes' m).ownedPrevious = (mutexes m).ownedPrevious ∧
      (mutexes' m).ownedNext = (mutexes m).ownedNext ∧
      (mutexes' m).initialized = (mutexes m).initialized ∧
      ∀ t, t ∈ (mutexes' m).waiters ↔ t ∈ (mutexes m).waiters)
    (hs : ∀ u, stale u ∧ u ≠ t ∨ awaits mutexes tasks t = some u → stale' u) :
    Locks cfg stale' mutexes' tasks' current := by
  have hnil : ∀ m, (mutexes m).waiters = [] → (mutexes' m).waiters = [] := by
    intro m hnil
    rw [List.eq_nil_iff_forall_not_mem] at hnil ⊢
    exact fun t hin => hnil t (((hm m).2.2.2.2 t).mp hin)
  have hawaited : ∀ u, (tasks' u).awaited = (tasks u).awaited := by
    intro u
    rw [htask]
    rfl
  have hstate : ∀ u, (tasks' u).state = (tasks u).state := by
    intro u
    rw [htask]
  have hself : ¬ awaits mutexes tasks t = some t := fun hc => h.acyclic t (.single hc)
  obtain ⟨owned, hown⟩ := h.owned
  refine ⟨⟨owned, hown.congr (fun m => ⟨(hm m).1, (hm m).2.1, (hm m).2.2.1⟩) fun u => ?_⟩,
    ?_, ?_, ?_, ?_, ?_, ?_, ?_⟩
  · rw [htask]
    exact ⟨rfl, rfl, rfl⟩
  · intro m hnone
    exact hnil m (h.unowned m ((hm m).1 ▸ hnone))
  · intro m u ho hd
    exact h.owner_valid m u ((hm m).1 ▸ ho) (hstate u ▸ hd)
  · intro m hi
    rw [(hm m).1]
    exact h.uninitialized m ((hm m).2.2.2.1 ▸ hi)
  · intro m u
    rw [(hm m).2.2.2.2, hawaited]
    exact h.waiting m u
  · have hawaits : awaits mutexes' tasks' = awaits mutexes tasks := by
      funext u
      unfold awaits
      rw [hawaited]
      cases (tasks u).awaited with
      | none => rfl
      | some m => exact (hm m).1
    exact hawaits ▸ h.acyclic
  · intro u hu
    have hnotw : ∀ m, (mutexes m).owner = some u → t ∉ (mutexes m).waiters := by
      intro m hmu hin
      exact hu (hs u (.inr (awaits_eq_some.mpr ⟨m, (h.waiting m t).mp hin, hmu⟩)))
    have hdemand : demand mutexes' tasks' u = demand mutexes tasks u := by
      unfold demand
      ext q
      simp only [Set.mem_ofPred_eq, (hm _).1, (hm _).2.2.2.2, htask]
      have hex : (∃ m v, (mutexes m).owner = some u ∧ v ∈ (mutexes m).waiters ∧
          q = if v = t then p else (tasks v).priority) ↔
          ∃ m v, (mutexes m).owner = some u ∧ v ∈ (mutexes m).waiters ∧ q = (tasks v).priority := by
        refine exists_congr fun m => exists_congr fun v => and_congr_right fun hmu =>
          and_congr_right fun hv => ?_
        rw [if_neg]
        rintro rfl
        exact hnotw m hmu hv
      rw [hex]
    unfold Inherits
    rw [hdemand, htask]
    by_cases hut : u = t
    · simpa [hut] using hp
    · simpa [hut, Inherits] using h.inherits u fun hc => hu (hs u (.inl ⟨hc, hut⟩))
  · intro hcur m hmi
    exact hnil m (h.idle hcur m ((hm m).1 ▸ hmi))

end Locks

end RtsKernel
