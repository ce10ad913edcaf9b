import RtsKernel.Invariant.State

/-!
# Priority inheritance

The walk of `rts_priority_recompute_chain` along the owners installs the demanded priority at each
task it visits. It starts at the tasks that are stale and ends with none stale, it never meets a
task twice nor runs out of steps, and it keeps the queues in order.
-/

namespace RtsKernel

open Halting Prog Chain DoublyLinked

variable {cfg : Config} {base : Tick} {stale stale' : TaskId → Prop} {k k' k'' : Kernel}
  {t u c : TaskId} {m i p : Nat} {E : Fatal → Kernel → Prop}

/-! ## The required priority -/

theorem wp_requiredByOwnedFrom {Q : Nat → Kernel → Prop} {l : List Nat} {before : Option Nat}
    {n required : Nat}
    (hseg : Segment (fun m => (k.mutexes m).ownedPrevious) (fun m => (k.mutexes m).ownedNext)
      before l none)
    (howner : ∀ m ∈ l, (k.mutexes m).owner = some t) (hn : l.length ≤ n)
    (hQ : Q (l.foldl (fun r m => requiredByMutex k m r) required) k) :
    wp (requiredByOwnedFrom t n l.head? required) Q E k := by
  induction l generalizing n required before with
  | nil => cases n <;> exact hQ
  | cons m l ih =>
    obtain ⟨n, rfl⟩ : ∃ n', n = n' + 1 := Nat.exists_eq_add_one_of_ne_zero (by simp at hn; omega)
    have hnext : (k.mutexes m).ownedNext = l.head? := by simpa using hseg.2.1
    simp only [List.head?_cons, requiredByOwnedFrom, wp_bind, wp_get, howner m (by simp), ne_eq,
      not_true_eq_false, if_false, hnext]
    exact ih hseg.2.2 (fun m hm => howner m (by simp [hm])) (by simpa using hn) hQ

theorem isGreatest_requiredByMutex (required : Nat)
    (hs : (k.mutexes m).waiters.Pairwise fun a b => k.prio b ≤ k.prio a) :
    IsGreatest {p | p = required ∨ ∃ u ∈ (k.mutexes m).waiters, p = k.prio u}
      (requiredByMutex k m required) := by
  unfold requiredByMutex
  cases hw : (k.mutexes m).waiters with
  | nil => simp [IsGreatest, upperBounds]
  | cons w l =>
    rw [hw] at hs
    have hmax : ∀ u ∈ w :: l, k.prio u ≤ k.prio w := by
      intro u hu
      obtain rfl | hu := List.mem_cons.mp hu
      · exact le_rfl
      · exact (List.pairwise_cons.mp hs).1 u hu
    constructor
    · by_cases hlt : required < (k.tasks w).priority
      · exact .inr ⟨w, by simp, by simp [hlt]⟩
      · exact .inl (by simp [hlt])
    · rintro p (rfl | ⟨u, hu, rfl⟩)
      · simp only
        split <;> omega
      · have := hmax u hu
        simp only [Kernel.prio] at this ⊢
        split <;> omega

theorem isGreatest_foldl_required {l : List Nat} (required : Nat)
    (hs : ∀ m ∈ l, (k.mutexes m).waiters.Pairwise fun a b => k.prio b ≤ k.prio a) :
    IsGreatest {p | p = required ∨ ∃ m ∈ l, ∃ u ∈ (k.mutexes m).waiters, p = k.prio u}
      (l.foldl (fun r m => requiredByMutex k m r) required) := by
  induction l generalizing required with
  | nil => simp [IsGreatest, upperBounds]
  | cons m l ih =>
    obtain ⟨hin, hub⟩ := isGreatest_requiredByMutex required (hs m (by simp))
    obtain ⟨hin', hub'⟩ := ih (requiredByMutex k m required)
      fun n hn => hs n (by simp [hn])
    rw [List.foldl_cons]
    constructor
    · obtain heq | ⟨n, hn, u, hu, heq⟩ := hin'
      · rw [heq]
        obtain hreq | ⟨u, hu, hreq⟩ := hin
        · exact .inl hreq
        · exact .inr ⟨m, by simp, u, hu, hreq⟩
      · exact .inr ⟨n, by simp [hn], u, hu, heq⟩
    · have hstep : requiredByMutex k m required ≤
          l.foldl (fun r m => requiredByMutex k m r) (requiredByMutex k m required) :=
        hub' (.inl rfl)
      rintro p (rfl | ⟨n, hn, u, hu, rfl⟩)
      · exact (hub (.inl rfl)).trans hstep
      · obtain rfl | hn := List.mem_cons.mp hn
        · exact (hub (.inr ⟨u, hu, rfl⟩)).trans hstep
        · exact hub' (.inr ⟨n, hn, u, hu, rfl⟩)

theorem Inv.sorted (h : Inv cfg base stale k) (o : WaitObject) :
    (k.waiters o).Pairwise fun a b => k.prio b ≤ k.prio a :=
  (h.wait.sorted o).imp fun hab => hab (by simp) (by simp)

theorem wp_priorityRequiredByOwned {Q : Nat → Kernel → Prop} (h : Inv cfg base stale k)
    (hQ : ∀ p, IsGreatest (demand k.mutexes k.tasks t) p → Q p k) :
    wp (priorityRequiredByOwned cfg t) Q E k := by
  obtain ⟨owned, hown⟩ := h.locks.owned
  have hlist := hown.isList t
  unfold priorityRequiredByOwned
  rw [wp_bind, wp_get, hlist.head_eq]
  refine wp_requiredByOwnedFrom hlist.links (fun m hm => (hown.mem t m).mp hm) ?_ (hQ _ ?_)
  · rw [hown.length]
    exact hown.bound t
  · have hfold := isGreatest_foldl_required (k.tasks t).basePriority
      (fun m (_ : m ∈ owned t) => h.sorted (.mutex m))
    have hset : demand k.mutexes k.tasks t =
        {p | p = (k.tasks t).basePriority ∨
          ∃ m ∈ owned t, ∃ u ∈ (k.mutexes m).waiters, p = k.prio u} := by
      ext p
      simp only [demand, Set.mem_ofPred_eq, hown.mem]
      exact or_congr_right (exists_congr fun m => exists_and_left)
    rw [hset]
    exact hfold

/-! ## What repricing changes -/

/-- Whether priorities are being raised or lowered. -/
inductive Direction where
  | up
  | down

def Direction.Le : Direction → Nat → Nat → Prop
  | .up, a, b => a ≤ b
  | .down, a, b => b ≤ a

/-- No priority has to move against the direction. -/
def Slack (mutexes : Nat → Mutex) (tasks : TaskId → Tcb) : Direction → Prop
  | .up => ∀ t, ∃ p ∈ demand mutexes tasks t, (tasks t).priority ≤ p
  | .down => ∀ t, ∀ p ∈ demand mutexes tasks t, p ≤ (tasks t).priority

/-- Waiters of equal priority stay in the order in which they were queued; a waiter whose priority
has changed, or that is new, is queued behind them. -/
def Fifo (k k' : Kernel) : Prop :=
  ∀ o a b, [a, b].Sublist (k'.waiters o) → k'.prio a = k'.prio b →
    (k'.prio b ≠ k.prio b ∨ b ∉ k.waiters o) ∨ k'.prio a = k.prio a ∧ [a, b].Sublist (k.waiters o)

def Semaphore.SameButWaiters (a b : Semaphore) : Prop := b = { a with waiters := b.waiters }

def Mutex.SameButWaiters (a b : Mutex) : Prop := b = { a with waiters := b.waiters }

theorem Semaphore.SameButWaiters.trans {a b c : Semaphore} (hab : a.SameButWaiters b)
    (hbc : b.SameButWaiters c) : a.SameButWaiters c := by
  unfold Semaphore.SameButWaiters at *
  rw [hab] at hbc
  exact hbc

theorem Mutex.SameButWaiters.trans {a b c : Mutex} (hab : a.SameButWaiters b)
    (hbc : b.SameButWaiters c) : a.SameButWaiters c := by
  unfold Mutex.SameButWaiters at *
  rw [hab] at hbc
  exact hbc

/-- Only priorities have changed, in one direction, and the queues that depend on them. -/
structure Repriced (dir : Direction) (k k' : Kernel) : Prop where
  rest : k'.rest = k.rest
  currentTask : k'.currentTask = k.currentTask
  switchPlan : k'.switchPlan = k.switchPlan
  delayQueue : k'.delayQueue = k.delayQueue
  requests : k'.rescheduleRequests = k.rescheduleRequests
  tasks : ∀ u, k'.tasks u = { k.tasks u with priority := (k'.tasks u).priority }
  semaphores : ∀ i, (k.semaphores i).SameButWaiters (k'.semaphores i)
  mutexes : ∀ m, (k.mutexes m).SameButWaiters (k'.mutexes m)
  waiters : ∀ o u, u ∈ k'.waiters o ↔ u ∈ k.waiters o
  direction : ∀ u, dir.Le (k.prio u) (k'.prio u)
  fifo : Fifo k k'
  turns : KeepsTurns k k'

variable {dir : Direction}

theorem Direction.Le.refl (dir : Direction) (a : Nat) : dir.Le a a := by cases dir <;> exact le_rfl

theorem Direction.Le.trans {a b c : Nat} (hab : dir.Le a b) (hbc : dir.Le b c) : dir.Le a c := by
  cases dir with
  | up => exact Nat.le_trans hab hbc
  | down => exact Nat.le_trans hbc hab

/-- A value that moved has not come back. -/
theorem Direction.Le.squeeze {a b c : Nat} (hab : dir.Le a b) (hbc : dir.Le b c) (hac : c = a) :
    b = a := by
  subst hac
  cases dir with
  | up => exact Nat.le_antisymm hbc hab
  | down => exact Nat.le_antisymm hab hbc

/-- The order of queueing composes while priorities move in one direction and no waiter that left
comes back. -/
theorem Fifo.trans (h : Fifo k k') (h' : Fifo k' k'') (hd : ∀ u, dir.Le (k.prio u) (k'.prio u))
    (hd' : ∀ u, dir.Le (k'.prio u) (k''.prio u))
    (hmem : ∀ o b, b ∈ k''.waiters o → b ∉ k'.waiters o → b ∉ k.waiters o) : Fifo k k'' := by
  intro o a b hab heq
  by_cases hb : k''.prio b = k.prio b
  · have hb' : k'.prio b = k.prio b := (hd b).squeeze (hd' b) hb
    obtain (hmoved | hnot) | ⟨ha, hab'⟩ := h' o a b hab heq
    · exact absurd (hb.trans hb'.symm) hmoved
    · exact .inl (.inr (hmem o b (hab.subset (by simp)) hnot))
    · have heq' : k'.prio a = k'.prio b := by rw [← ha, heq, hb, hb']
      obtain hmoved | ⟨ha', hab''⟩ := h o a b hab' heq'
      · exact .inl (hmoved.imp (fun hne => absurd hb' hne) id)
      · exact .inr ⟨ha.trans ha', hab''⟩
  · exact .inl (.inl hb)

/-- Waiters may leave while the others keep their places and priorities. -/
theorem Fifo.of_sublist (hw : ∀ o, (k'.waiters o).Sublist (k.waiters o)) (hp : k'.prio = k.prio) :
    Fifo k k' := by
  intro o a b hab _
  exact .inr ⟨by rw [hp], hab.trans (hw o)⟩

theorem Repriced.refl (dir : Direction) (k : Kernel) : Repriced dir k k where
  rest := rfl
  currentTask := rfl
  switchPlan := rfl
  delayQueue := rfl
  requests := rfl
  tasks _ := rfl
  semaphores _ := rfl
  mutexes _ := rfl
  waiters _ _ := Iff.rfl
  direction _ := .refl _ _
  fifo _ _ _ hab _ := .inr ⟨rfl, hab⟩
  turns := .refl _ _

theorem Repriced.trans (h : Repriced dir k k') (h' : Repriced dir k' k'') :
    Repriced dir k k'' where
  rest := h'.rest.trans h.rest
  currentTask := h'.currentTask.trans h.currentTask
  switchPlan := h'.switchPlan.trans h.switchPlan
  delayQueue := h'.delayQueue.trans h.delayQueue
  requests := h'.requests.trans h.requests
  tasks u := by rw [h'.tasks u, h.tasks u]
  semaphores i := (h.semaphores i).trans (h'.semaphores i)
  mutexes m := (h.mutexes m).trans (h'.mutexes m)
  waiters o u := (h'.waiters o u).trans (h.waiters o u)
  direction u := (h.direction u).trans (h'.direction u)
  fifo := h.fifo.trans h'.fifo h.direction h'.direction
    fun o b _ hnot hin => hnot ((h.waiters o b).mpr hin)
  turns := h.turns.trans h'.turns fun u => (h.direction u).squeeze (h'.direction u)

/-! ## Installing one priority -/

theorem relink_semaphores (k : Kernel) (o : WaitObject) (l : List TaskId) (t : TaskId)
    (owner : Option WaitObject) (i : Nat) :
    (k.semaphores i).SameButWaiters ((k.relink o l t owner).semaphores i) := by
  cases o with
  | semaphore j => by_cases hij : i = j <;> simp [Semaphore.SameButWaiters, hij]
  | mutex m => rfl

theorem relink_mutexes (k : Kernel) (o : WaitObject) (l : List TaskId) (t : TaskId)
    (owner : Option WaitObject) (m : Nat) :
    (k.mutexes m).SameButWaiters ((k.relink o l t owner).mutexes m) := by
  cases o with
  | semaphore i => rfl
  | mutex n => by_cases hmn : m = n <;> simp [Mutex.SameButWaiters, hmn]

/-- The priority of one task has changed; it is queued anew where it waits. -/
structure Reprices (k k' : Kernel) (t : TaskId) (p : Nat) : Prop where
  rest : k'.rest = k.rest
  currentTask : k'.currentTask = k.currentTask
  switchPlan : k'.switchPlan = k.switchPlan
  delayQueue : k'.delayQueue = k.delayQueue
  requests : k'.rescheduleRequests = k.rescheduleRequests
  tasks : ∀ u, k'.tasks u =
    { k.tasks u with priority := if u = t then p else (k.tasks u).priority }
  semaphores : ∀ i, (k.semaphores i).SameButWaiters (k'.semaphores i)
  mutexes : ∀ m, (k.mutexes m).SameButWaiters (k'.mutexes m)
  waiters : ∀ o, k'.waiters o = k.waiters o ∧ (t ∈ k.waiters o → p = k.prio t) ∨
    t ∈ k.waiters o ∧ p ≠ k.prio t ∧
      k'.waiters o = ((k.waiters o).erase t).orderedInsert (Outranks k'.prio) t
  turns : KeepsTurns k k'

theorem Reprices.prio (h : Reprices k k' t p) (u : TaskId) :
    k'.prio u = if u = t then p else k.prio u := by
  simp only [Kernel.prio, h.tasks u]

theorem Reprices.mem_waiters (h : Reprices k k' t p) (o : WaitObject) (u : TaskId) :
    u ∈ k'.waiters o ↔ u ∈ k.waiters o := by
  obtain ⟨heq, -⟩ | ⟨hin, -, heq⟩ := h.waiters o
  · rw [heq]
  · rw [heq, Ordered.mem_orderedInsert]
    by_cases hut : u = t
    · simp [hut, hin]
    · simp [hut, List.mem_erase_of_ne hut]

theorem Reprices.fifo (h : Reprices k k' t p)
    (hs : ∀ o, (k.waiters o).Pairwise fun a b => k.prio b ≤ k.prio a)
    (hn : ∀ o, (k.waiters o).Nodup) : Fifo k k' := by
  intro o a b hab heq
  obtain ⟨hsame, ht⟩ | ⟨hin, hp, hins⟩ := h.waiters o
  · rw [hsame] at hab
    have ha : a ∈ k.waiters o := hab.subset (by simp)
    refine .inr ⟨?_, hab⟩
    rw [h.prio]
    split <;> rename_i hat
    · rw [hat]
      exact ht (hat ▸ ha)
    · rfl
  · have hnot : t ∉ (k.waiters o).erase t := (hn o).not_mem_erase
    by_cases hbt : b = t
    · refine .inl (.inl ?_)
      rw [h.prio, if_pos hbt, hbt]
      exact hp
    · rw [hins] at hab
      by_cases hat : a = t
      · subst hat
        have hlt : Outranks k'.prio a b := by
          refine Ordered.rel_of_sublist_orderedInsert
            (s := fun x y => k.prio y ≤ k.prio x) ((hs o).sublist List.erase_sublist) hnot ?_ hab
          intro x hx y hy hax hxy
          have hxa : x ≠ a := fun he => hnot (he ▸ hx)
          have hya : y ≠ a := fun he => hnot (he ▸ hy)
          unfold Outranks at hax ⊢
          rw [h.prio x, if_neg hxa] at hax
          rw [h.prio y, if_neg hya]
          omega
        unfold Outranks at hlt
        omega
      · refine .inr ⟨by rw [h.prio, if_neg hat], ?_⟩
        have herase := hab.erase t
        rw [List.erase_orderedInsert_of_notMem hnot] at herase
        rw [List.erase_of_not_mem (by simp [Ne.symm hat, Ne.symm hbt])] at herase
        exact herase.trans List.erase_sublist

theorem Reprices.repriced (h : Reprices k k' t p) (hdir : dir.Le (k.prio t) p)
    (hs : ∀ o, (k.waiters o).Pairwise fun a b => k.prio b ≤ k.prio a)
    (hn : ∀ o, (k.waiters o).Nodup) : Repriced dir k k' where
  rest := h.rest
  currentTask := h.currentTask
  switchPlan := h.switchPlan
  delayQueue := h.delayQueue
  requests := h.requests
  tasks u := by rw [h.tasks u]
  semaphores := h.semaphores
  mutexes := h.mutexes
  waiters := h.mem_waiters
  direction u := by
    rw [h.prio]
    split <;> rename_i hut
    · exact hut ▸ hdir
    · exact .refl _ _
  fifo := h.fifo hs hn
  turns := h.turns

theorem mem_demand_of_awaits (h : Locks cfg stale k.mutexes k.tasks k.currentTask)
    (ha : awaits k.mutexes k.tasks t = some u) : k.prio t ∈ demand k.mutexes k.tasks u := by
  obtain ⟨m, hm, ho⟩ := awaits_eq_some.mp ha
  exact .inr ⟨m, t, ho, (h.waiting m t).mpr hm, rfl⟩

/-- Moving one priority in the direction keeps the slack of the other tasks. -/
theorem Reprices.slack (h : Reprices k k' t p) (hp : IsGreatest (demand k.mutexes k.tasks t) p)
    (hdir : dir.Le (k.prio t) p) (hself : awaits k.mutexes k.tasks t ≠ some t)
    (hlocks : Locks cfg stale k.mutexes k.tasks k.currentTask)
    (hs : Slack k.mutexes k.tasks dir) : Slack k'.mutexes k'.tasks dir := by
  have howner : ∀ m, (k'.mutexes m).owner = (k.mutexes m).owner := fun m => by rw [h.mutexes m]
  have hmem : ∀ m v, v ∈ (k'.mutexes m).waiters ↔ v ∈ (k.mutexes m).waiters :=
    fun m v => h.mem_waiters (.mutex m) v
  have hbase : ∀ v, (k'.tasks v).basePriority = (k.tasks v).basePriority := fun v => by
    rw [h.tasks v]
  have hprio : ∀ v, (k'.tasks v).priority = if v = t then p else (k.tasks v).priority := h.prio
  have hnot : ∀ m, (k.mutexes m).owner = some t → t ∉ (k.mutexes m).waiters := fun m ho hin =>
    hself (awaits_eq_some.mpr ⟨m, (hlocks.waiting m t).mp hin, ho⟩)
  cases dir with
  | up =>
    intro v
    by_cases hvt : v = t
    · subst hvt
      refine ⟨p, ?_, by rw [hprio, if_pos rfl]⟩
      obtain hb | ⟨m, w, ho, hw, hpw⟩ := hp.1
      · exact .inl (by rw [hb, hbase])
      · refine .inr ⟨m, w, by rw [howner, ho], (hmem m w).mpr hw, ?_⟩
        have hwv : w ≠ v := by
          rintro rfl
          exact hnot m ho hw
        rw [hprio, if_neg hwv, hpw]
    · obtain ⟨q, hq, hle⟩ := hs v
      rw [hprio, if_neg hvt]
      obtain hb | ⟨m, w, ho, hw, hqw⟩ := hq
      · exact ⟨q, .inl (by rw [hb, hbase]), hle⟩
      · refine ⟨k'.prio w, .inr ⟨m, w, by rw [howner, ho], (hmem m w).mpr hw, rfl⟩, ?_⟩
        have hw' : (k.tasks w).priority ≤ k'.prio w := by
          rw [h.prio]
          split <;> rename_i hwt
          · exact hwt ▸ hdir
          · exact le_rfl
        omega
  | down =>
    intro v q hq
    obtain hb | ⟨m, w, ho, hw, hqw⟩ := hq
    · rw [hb, hbase, hprio]
      split <;> rename_i hvt
      · exact hvt ▸ hp.2 (.inl rfl)
      · exact hs v _ (.inl rfl)
    · rw [howner] at ho
      rw [hmem] at hw
      have hle : q ≤ (k.tasks w).priority := by
        rw [hqw, hprio]
        split <;> rename_i hwt
        · exact hwt ▸ hdir
        · exact le_rfl
      rw [hprio]
      split <;> rename_i hvt
      · subst hvt
        exact hle.trans (hp.2 (.inr ⟨m, w, ho, hw, rfl⟩))
      · exact hle.trans (hs v _ (.inr ⟨m, w, ho, hw, rfl⟩))

/-- Installing a demanded priority keeps the invariant, with the next owner stale. -/
theorem Inv.reprices (h : Inv cfg base stale k) (hr : Reprices k k' t p)
    (hd : (k.tasks t).state ≠ .dormant) (hp : IsGreatest (demand k.mutexes k.tasks t) p)
    (hlt : p < cfg.priorityCount)
    (hready : ReadyOk cfg k'.readySet k'.edfReady (Function.update k.prio t p)
      fun t => (k.tasks t).Runnable)
    (hwait : WaitOk cfg k'.waiters (Function.update k.prio t p) k.waitOwners none)
    (hs : ∀ u, stale u ∧ u ≠ t ∨ awaits k.mutexes k.tasks t = some u → stale' u) :
    Inv cfg base stale' k' := by
  have hprio : k'.prio = Function.update k.prio t p := by
    funext u
    rw [hr.prio]
    by_cases hut : u = t <;> simp [hut]
  have hstate : ∀ u, (k'.tasks u).state = (k.tasks u).state := fun u => by rw [hr.tasks u]
  have hnil : ∀ o, k.waiters o = [] → k'.waiters o = [] := by
    intro o hnil
    rw [List.eq_nil_iff_forall_not_mem] at hnil ⊢
    exact fun u hin => hnil u ((hr.mem_waiters o u).mp hin)
  refine ⟨fun u => ?_, ?_, ?_, ?_, ?_, fun i => ?_, fun u hu => ?_, ?_, ?_⟩
  · obtain ⟨hdorm, hvalid, hfree, hwaits⟩ := h.tasks u
    rw [hr.tasks u]
    refine ⟨hdorm, fun hu => ?_, hfree, fun hb => ?_⟩
    · obtain ⟨h1, h2, h3, h4, hle, hlt', h5, h6⟩ := hvalid hu
      refine ⟨h1, h2, h3, h4, ?_, ?_, h5, h6⟩
      · by_cases hut : u = t
        · subst hut
          simpa using hp.2 (.inl rfl)
        · simpa [hut] using hle
      · by_cases hut : u = t <;> simp [hut, hlt, hlt']
    · obtain ⟨hres, hw⟩ := hwaits hb
      refine ⟨hres, ?_⟩
      cases hw with
      | delay h1 h2 h3 h4 h5 => exact .delay h1 h2 h3 h4 h5
      | semaphore i h1 h2 h3 h4 => exact .semaphore i h1 h2 h3 h4
      | mutex m h1 h2 h3 h4 h5 => exact .mutex m h1 h2 h3 h4 h5
      | service h1 h2 h3 h4 h5 => exact .service h1 h2 h3 h4 h5
  · rw [hprio]
    refine hready.congr (fun u => ?_) fun _ => rfl
    simp only [Tcb.Runnable, hstate]
  · rw [hr.delayQueue]
    refine h.delay.congr (fun u => ?_) fun u _ => ?_
    · simp only [Tcb.Timed, hr.tasks u]
    · simp only [Kernel.wake, hr.tasks u]
  · rw [hprio]
    refine hwait.congr (fun u => ?_) fun _ _ => rfl
    simp only [Kernel.waitOwners, hr.tasks u]
  · rw [hr.currentTask]
    refine h.locks.setPriority hp hr.tasks (fun m => ?_) hs
    rw [hr.mutexes m]
    exact ⟨rfl, rfl, rfl, rfl, fun u => hr.mem_waiters (.mutex m) u⟩
  · obtain ⟨h1, h2, h3⟩ := h.semaphores i
    rw [hr.semaphores i]
    exact ⟨h1, fun hi => hnil (.semaphore i) (h2 hi), fun hi => hnil (.semaphore i) (h3 hi)⟩
  · rw [hstate] at hu
    rw [hr.currentTask]
    exact h.running u hu
  · refine h.phase.congr hr.rest hr.currentTask (fun _ => ⟨hr.switchPlan, fun m => ?_, fun u => ?_⟩)
      (fun u => by rw [hstate]) ?_
    · rw [hr.mutexes m]
    · exact ⟨by rw [hr.tasks u], hstate u⟩
    · unfold Tcb.Runnable
      rw [hstate]
      exact id
  · rw [hr.currentTask, hr.switchPlan]
    exact h.plan

theorem TaskOk.priorityWaitersFor_eq {task : Tcb} (h : TaskOk cfg t task) :
    priorityWaitersFor task.wait = task.waitOwner := by
  by_cases hb : task.state = .blocked
  · cases (h.waits hb).2 with
    | delay _ hr _ _ ho => simp [priorityWaitersFor, hr, ho]
    | semaphore i _ hr hobj ho => simp [priorityWaitersFor, hr, hobj, ho]
    | mutex m _ hr hobj ho => simp [priorityWaitersFor, hr, hobj, ho]
    | service _ hr _ _ ho => simp [priorityWaitersFor, hr, ho]
  · obtain ⟨hr, -, -, ho⟩ := h.free hb
    simp [priorityWaitersFor, hr, ho]

theorem Inv.demand_lt (h : Inv cfg base stale k) (hd : (k.tasks t).state ≠ .dormant)
    (hp : p ∈ demand k.mutexes k.tasks t) : p < cfg.priorityCount := by
  obtain rfl | ⟨m, u, -, hu, rfl⟩ := hp
  · have hv := (h.tasks t).valid hd
    exact hv.base_le.trans_lt hv.prio_lt
  · have hb := (Tcb.awaited_eq_some.mp ((h.locks.waiting m u).mp hu)).1
    exact ((h.tasks u).valid (by simp [hb])).prio_lt

/-- The queues of the wait lists after a task that waits in `o` was queued anew. -/
theorem wp_waitObjectReprioritize {Q : Unit → Kernel → Prop} {o : WaitObject}
    (h : WaitOk cfg k.waiters k.prio k.waitOwners (some t)) (ht : k.waitOwners t = some o)
    (hQ : ∀ k', WaitOk cfg k'.waiters k.prio k.waitOwners none →
      k' = { k with semaphores := k'.semaphores, mutexes := k'.mutexes } →
      (∀ i, (k.semaphores i).SameButWaiters (k'.semaphores i)) →
      (∀ m, (k.mutexes m).SameButWaiters (k'.mutexes m)) →
      k'.waiters = Function.update k.waiters o
        (((k.waiters o).erase t).orderedInsert (Outranks k.prio) t) → Q () k') :
    wp (waitObjectReprioritize cfg o t) Q E k := by
  have ht' : (k.tasks t).waitOwner = some o := ht
  have happ : t.IsApplication cfg := h.application t (by simp [ht])
  set k₁ := k.relink o ((k.waiters o).erase t) t none with hk₁
  set l := ((k.waiters o).erase t).orderedInsert (Outranks k.prio) t with hl
  have hw₁ : k₁.waiters o = (k.waiters o).erase t := by simp [hk₁]
  have hp₁ : k₁.prio = k.prio := prio_relink ..
  have ho₁ : k₁.waitOwners = Function.update k.waitOwners t none := waitOwners_relink ..
  have h₁ : WaitOk cfg k₁.waiters k₁.prio k₁.waitOwners none := by
    rw [hp₁, ho₁, hk₁, waiters_relink]
    exact h.remove ht (.inr rfl)
  have howners : Function.update k₁.waitOwners t (some o) = k.waitOwners := by
    rw [ho₁, Function.update_idem, ← ht, Function.update_eq_self]
  have htasks : (k₁.relink o l t (some o)).tasks = k.tasks := by
    simp only [hk₁, Kernel.relink_tasks, Function.update_idem, Function.update_self]
    rw [← ht', Function.update_eq_self]
  unfold waitObjectReprioritize
  rw [wp_bind, wp_get, wp_bind, wp_rtsAssert_of ht', wp_ite, if_neg (by simp [ht']), wp_bind]
  refine wp_waitObjectRemove h ht (.inr rfl) ?_
  refine wp_waitObjectInsert h₁ (by rw [ho₁]; simp) happ ?_
  rw [hw₁, hp₁]
  refine hQ _ ?_ ?_ (fun i => ?_) (fun m => ?_) ?_
  · have hins := h₁.insert (o := o) (by rw [ho₁]; simp) happ
    rw [hw₁, howners, hp₁] at hins
    rw [waiters_relink]
    exact hins
  · have : k₁.relink o l t (some o) =
        { k with
          tasks := (k₁.relink o l t (some o)).tasks
          semaphores := (k₁.relink o l t (some o)).semaphores
          mutexes := (k₁.relink o l t (some o)).mutexes } := rfl
    rw [htasks] at this
    exact this
  · exact (relink_semaphores k ..).trans (relink_semaphores k₁ ..)
  · exact (relink_mutexes k ..).trans (relink_mutexes k₁ ..)
  · rw [waiters_relink, waiters_relink, Function.update_idem]

theorem wp_prioritySetEffective {Q : Bool → Kernel → Prop} (h : Inv cfg base stale k)
    (hd : (k.tasks t).state ≠ .dormant) (hp : IsGreatest (demand k.mutexes k.tasks t) p)
    (hp0 : p ≠ 0) (hs : ∀ u, stale u ∧ u ≠ t ∨ awaits k.mutexes k.tasks t = some u → stale' u)
    (hQ : ∀ k', Reprices k k' t p → Inv cfg base stale' k' → Q true k') :
    wp (prioritySetEffective cfg t p) Q E k := by
  have hlt := h.demand_lt hd hp.1
  have hle : (k.tasks t).basePriority ≤ p := hp.2 (.inl rfl)
  have hrange : ¬ (p < (k.tasks t).basePriority ∨ p = 0 ∨ cfg.priorityCount ≤ p) := by omega
  simp only [prioritySetEffective, wp_bind, wp_get, wp_ite, if_neg hrange]
  by_cases hsame : (k.tasks t).priority = p
  · rw [if_pos hsame, wp_pure]
    have hupdate : Function.update k.prio t p = k.prio := by
      rw [← hsame]
      exact Function.update_eq_self t k.prio
    have hr : Reprices k k t p := by
      refine ⟨rfl, rfl, rfl, rfl, rfl, fun u => ?_, fun _ => rfl, fun _ => rfl,
        fun o => .inl ⟨rfl, fun _ => hsame.symm⟩, .refl _ _⟩
      by_cases hut : u = t <;> simp [hut, ← hsame]
    exact hQ k hr (h.reprices hr hd hp hlt (by rw [hupdate]; exact h.ready)
      (by rw [hupdate]; exact h.wait) hs)
  · rw [if_neg hsame]
    refine wp_policyPriorityChanged h.ready hp0 hlt ((h.tasks t).valid hd).prio_lt
      fun rs er hready hturns => ?_
    simp only [Bool.true_eq_false, if_false, wp_modify]
    set k₁ := ({ k with readySet := rs, edfReady := er }.updateTask t fun task =>
      { task with priority := p }).count fun c =>
        if (k.tasks t).priority < p then
          { c with priorityRaises := diagnosticCounterIncrement c.priorityRaises }
        else { c with priorityRestorations := diagnosticCounterIncrement c.priorityRestorations }
      with hk₁
    have htask : ∀ u, k₁.tasks u =
        { k.tasks u with priority := if u = t then p else (k.tasks u).priority } := by
      intro u
      by_cases hut : u = t <;> simp [hk₁, hut]
    have hprio : k₁.prio = Function.update k.prio t p := by
      funext u
      by_cases hut : u = t <;> simp [Kernel.prio, htask, hut]
    have hturns₁ : KeepsTurns k k₁ := by
      rw [KeepsTurns, hprio]
      exact hturns
    have howners : k₁.waitOwners = k.waitOwners := by
      funext u
      simp [Kernel.waitOwners, htask]
    have hwait : WaitOk cfg k₁.waiters k₁.prio k₁.waitOwners (some t) := by
      rw [howners, hprio]
      exact h.wait.move fun u hu => Function.update_of_ne hu _ _
    have hfor : priorityWaitersFor (k₁.tasks t).wait = k₁.waitOwners t := by
      rw [howners, htask]
      exact (h.tasks t).priorityWaitersFor_eq
    rw [hfor]
    cases ho : k₁.waitOwners t with
    | none =>
      have hsettled := hwait.settle ho
      rw [howners, hprio] at hsettled
      have hnot : ∀ o, t ∉ k.waiters o := by
        intro o hin
        rw [howners] at ho
        rw [(h.wait.mem o t).mp hin] at ho
        simp at ho
      have hr : Reprices k k₁ t p :=
        ⟨rfl, rfl, rfl, rfl, rfl, htask, fun _ => rfl, fun _ => rfl,
          fun o => .inl ⟨rfl, fun hin => absurd hin (hnot o)⟩, hturns₁⟩
      exact hQ k₁ hr (h.reprices hr hd hp hlt hready hsettled hs)
    | some o =>
      have ho' : (k₁.tasks t).waitOwner = some o := ho
      rw [wp_bind, wp_fatalUnless_of ho', wp_bind]
      refine wp_waitObjectReprioritize hwait ho fun k' hwait' hk' hsem hmut hw => ?_
      rw [wp_pure]
      have hin : t ∈ k.waiters o := (h.wait.mem o t).mpr (by rw [← howners]; exact ho)
      have hready' : k'.readySet = rs ∧ k'.edfReady = er := by
        rw [hk']
        exact ⟨rfl, rfl⟩
      have htask' : k'.tasks = k₁.tasks := by rw [hk']
      have hprio' : k'.prio = k₁.prio := by
        unfold Kernel.prio
        rw [htask']
      have hr : Reprices k k' t p := by
        refine ⟨?_, ?_, ?_, ?_, ?_, ?_, hsem, hmut, fun o' => ?_, ?_⟩
        · rw [hk']
          rfl
        · rw [hk']
          rfl
        · rw [hk']
          rfl
        · rw [hk']
          rfl
        · rw [hk']
          rfl
        · rw [htask']
          exact htask
        · rw [hw, hprio']
          by_cases hoo : o' = o
          · subst hoo
            rw [Function.update_self]
            exact .inr ⟨hin, Ne.symm hsame, rfl⟩
          · rw [Function.update_of_ne hoo]
            refine .inl ⟨rfl, fun hin' => ?_⟩
            have ho'' := (h.wait.mem o' t).mp hin'
            rw [(h.wait.mem o t).mp hin] at ho''
            exact absurd (Option.some.inj ho'').symm hoo
        · rw [KeepsTurns, hprio', hready'.1]
          exact hturns₁
      rw [howners, hprio] at hwait'
      refine hQ k' hr (h.reprices hr hd hp hlt ?_ hwait' hs)
      rw [hready'.1, hready'.2]
      exact hready

/-! ## The walk along the owners -/

theorem Inv.mono (h : Inv cfg base stale k) (hs : ∀ u, stale u → stale' u) :
    Inv cfg base stale' k :=
  { h with
    locks := { h.locks with inherits := fun u hu => h.locks.inherits u fun hc => hu (hs u hc) } }

theorem Repriced.awaits_eq (h : Repriced dir k k') :
    awaits k'.mutexes k'.tasks = awaits k.mutexes k.tasks := by
  funext u
  unfold awaits
  rw [h.tasks u]
  refine Option.bind_congr fun m _ => ?_
  rw [h.mutexes m]

theorem Inv.mutexOwnerAwaited_eq (h : Inv cfg base stale k) (hb : (k.tasks t).state = .blocked)
    (hr : (k.tasks t).wait.reason = .mutex) :
    ∃ u, mutexOwnerAwaited k t = some u ∧ awaits k.mutexes k.tasks t = some u := by
  obtain ⟨m, ho⟩ : ∃ m, (k.tasks t).wait.object = some (.mutex m) := by
    cases ((h.tasks t).waits hb).2 with
    | delay _ hr' => simp [hr] at hr'
    | semaphore _ _ hr' => simp [hr] at hr'
    | mutex m _ _ ho => exact ⟨m, ho⟩
    | service _ hr' => simp [hr] at hr'
  have haw : (k.tasks t).awaited = some m := Tcb.awaited_eq_some.mpr ⟨hb, hr, ho⟩
  have hin := (h.locks.waiting m t).mpr haw
  cases howner : (k.mutexes m).owner with
  | none => simp [h.locks.unowned m howner] at hin
  | some u =>
    exact ⟨u, by simp [mutexOwnerAwaited, ho, howner], awaits_eq_some.mpr ⟨m, haw, howner⟩⟩

theorem awaits_eq_none (h : (k.tasks t).state ≠ .blocked ∨ (k.tasks t).wait.reason ≠ .mutex) :
    awaits k.mutexes k.tasks t = none := by
  have hnone : (k.tasks t).awaited = none :=
    h.elim Tcb.awaited_of_state Tcb.awaited_of_reason
  simp [awaits, hnone]

/-- The walk repairs the priority of its first task and of all owners it leads to. A rank that
decreases along the owners bounds its length and keeps it from meeting a task twice. -/
theorem wp_recomputeFrom {Q : Bool → Kernel → Prop} {n : Nat} {visited : List TaskId}
    {rank : TaskId → Nat} (h : Inv cfg base (fun u => stale u ∨ u = t) k)
    (hslack : Slack k.mutexes k.tasks dir)
    (hrank : ∀ a b, awaits k.mutexes k.tasks a = some b → rank b < rank a) (hn : rank t < n)
    (hv : ∀ v ∈ visited, rank t < rank v) (hd : (k.tasks t).state ≠ .dormant)
    (hpos : ∃ p ∈ demand k.mutexes k.tasks t, p ≠ 0)
    (hQ : ∀ k', Repriced dir k k' → Inv cfg base stale k' → Slack k'.mutexes k'.tasks dir →
      Q true k') :
    wp (recomputeFrom cfg n visited (some t)) Q E k := by
  induction n generalizing k t visited with
  | zero => omega
  | succ n ih =>
    have hnot : t ∉ visited := fun hin => lt_irrefl _ (hv t hin)
    simp only [recomputeFrom, if_neg hnot, wp_bind]
    refine wp_priorityRequiredByOwned h fun p hp => ?_
    obtain ⟨q, hq, hq0⟩ := hpos
    have hp0 : p ≠ 0 := by
      have := hp.2 hq
      omega
    have hself : awaits k.mutexes k.tasks t ≠ some t := fun hc => h.locks.acyclic t (.single hc)
    have hle : dir.Le (k.prio t) p := by
      cases dir with
      | up =>
        obtain ⟨q', hq', hle⟩ := hslack t
        exact Nat.le_trans hle (hp.2 hq')
      | down => exact hslack t p hp.1
    have hstale : ∀ u, (stale u ∨ u = t) ∧ u ≠ t ∨ awaits k.mutexes k.tasks t = some u →
        stale u ∨ awaits k.mutexes k.tasks t = some u := by tauto
    refine wp_prioritySetEffective h hd hp hp0 hstale fun k₁ hr h₁ => ?_
    have hrep : Repriced dir k k₁ := hr.repriced hle h.sorted h.wait.nodup
    have hslack₁ := hr.slack hp hle hself h.locks hslack
    have hawaits := hrep.awaits_eq
    simp only [Bool.true_eq_false, if_false, wp_bind, wp_get, wp_ite]
    split <;> rename_i hstop
    · have hnone := awaits_eq_none hstop
      rw [hawaits] at hnone
      rw [wp_pure]
      refine hQ k₁ hrep (h₁.mono fun u hu => ?_) hslack₁
      simpa [hnone] using hu
    · simp only [ne_eq, not_or, not_not] at hstop
      obtain ⟨u, hou, hau⟩ := h₁.mutexOwnerAwaited_eq hstop.1 hstop.2
      have hau' := hau
      rw [hawaits] at hau'
      rw [hou]
      obtain ⟨m, -, hm⟩ := awaits_eq_some.mp hau
      have hti : t ≠ .idle := by
        rintro rfl
        exact h₁.idle_not_blocked hstop.1
      refine ih (k := k₁) (h₁.mono fun v hv => ?_) hslack₁ (by rwa [hawaits]) ?_ ?_
        (h₁.locks.owner_valid m u hm) ⟨_, mem_demand_of_awaits h₁.locks hau, ?_⟩ ?_
      · exact hv.imp id fun hc => Option.some.inj (hc.symm.trans hau')
      · have := hrank t u hau'
        omega
      · intro v hvin
        have hut := hrank t u hau'
        obtain rfl | hvin := List.mem_cons.mp hvin
        · exact hut
        · exact hut.trans (hv v hvin)
      · exact (h₁.prio_pos (by simp [hstop.1]) hti).ne'
      · exact fun k' hrep' h' hslack' => hQ k' (hrep.trans hrep') h' hslack'

/-- The tasks that can exist. -/
def knownTasks (cfg : Config) : Finset TaskId :=
  (Finset.range cfg.maxTasks).image TaskId.slot ∪ {.idle, .timerService}

theorem mem_knownTasks (h : t.IsApplication cfg ∨ t = .idle ∨ t = .timerService) :
    t ∈ knownTasks cfg := by
  unfold knownTasks
  obtain h | rfl | rfl := h
  · cases t with
    | slot i => simpa using show i < cfg.maxTasks from h
    | idle => simp
    | timerService => simp
  · simp
  · simp

theorem card_knownTasks_le (cfg : Config) :
    (knownTasks cfg).card ≤ cfg.schedulableTaskCapacity := by
  refine (Finset.card_union_le _ _).trans ?_
  have himage : ((Finset.range cfg.maxTasks).image TaskId.slot).card ≤ cfg.maxTasks :=
    Finset.card_image_le.trans (by simp)
  have hpair : ({.idle, .timerService} : Finset TaskId).card ≤ 2 := Finset.card_le_two
  unfold Config.schedulableTaskCapacity
  omega

/-- Every chain of owners is shorter than the number of tasks. -/
theorem Inv.exists_rank (h : Inv cfg base stale k) : ∃ rank : TaskId → Nat,
    (∀ t, (k.tasks t).state ≠ .dormant → rank t < cfg.schedulableTaskCapacity) ∧
    ∀ a b, awaits k.mutexes k.tasks a = some b → rank b < rank a := by
  obtain ⟨rank, hlt, hstep⟩ := h.locks.acyclic.exists_rank (knownTasks cfg) fun a b hab => by
    obtain ⟨m, -, hm⟩ := awaits_eq_some.mp hab
    exact mem_knownTasks ((h.tasks b).valid (h.locks.owner_valid m b hm)).known
  refine ⟨rank, fun t hd => ?_, hstep⟩
  exact (hlt t (mem_knownTasks ((h.tasks t).valid hd).known)).trans_le (card_knownTasks_le cfg)

theorem wp_priorityRecomputeChain {Q : Bool → Kernel → Prop}
    (h : Inv cfg base (fun u => stale u ∨ u = t) k) (hslack : Slack k.mutexes k.tasks dir)
    (hd : (k.tasks t).state ≠ .dormant) (hpos : ∃ p ∈ demand k.mutexes k.tasks t, p ≠ 0)
    (hQ : ∀ k', Repriced dir k k' → Inv cfg base stale k' → Slack k'.mutexes k'.tasks dir →
      Q true k') :
    wp (priorityRecomputeChain cfg (some t)) Q E k := by
  obtain ⟨rank, hlt, hrank⟩ := h.exists_rank
  exact wp_recomputeFrom h hslack hrank (hlt t hd) (by simp) hd hpos hQ

/-- Recomputing fails only for an idle task of which nothing is demanded. -/
theorem wp_recomputeChainOrFatal {Q : Unit → Kernel → Prop} {start : Option TaskId}
    (h : Inv cfg base (fun u => stale u ∨ start = some u) k) (hslack : Slack k.mutexes k.tasks dir)
    (hd : ∀ t, start = some t → (k.tasks t).state ≠ .dormant)
    (hQ : ∀ k', Repriced dir k k' → Inv cfg base stale k' → Slack k'.mutexes k'.tasks dir → Q () k')
    (hE : start = some .idle → E (.assertion (.recomputeChain .idle)) k) :
    wp (recomputeChainOrFatal cfg start) Q E k := by
  cases start with
  | none => exact hQ k (.refl dir k) (h.mono (by simp)) hslack
  | some t =>
    have h' : Inv cfg base (fun u => stale u ∨ u = t) k :=
      h.mono fun u hu => hu.imp id fun he => (Option.some.inj he).symm
    simp only [recomputeChainOrFatal, wp_bind]
    by_cases hpos : ∃ p ∈ demand k.mutexes k.tasks t, p ≠ 0
    · refine wp_priorityRecomputeChain h' hslack (hd t rfl) hpos fun k' hr hk' hs => ?_
      rw [wp_fatalUnless_of rfl]
      exact hQ k' hr hk' hs
    · have hzero : ∀ p ∈ demand k.mutexes k.tasks t, p = 0 := by
        intro p hp
        by_contra hne
        exact hpos ⟨p, hp, hne⟩
      have hti : t = .idle := ((h.tasks t).valid (hd t rfl)).base_zero.mp (hzero _ (.inl rfl))
      subst hti
      unfold priorityRecomputeChain Config.schedulableTaskCapacity
      simp only [recomputeFrom, List.not_mem_nil, if_false, wp_bind]
      refine wp_priorityRequiredByOwned h' fun p hp => ?_
      have hp0 := hzero p hp.1
      have hrange : p < (k.tasks .idle).basePriority ∨ p = 0 ∨ cfg.priorityCount ≤ p :=
        .inr (.inl hp0)
      simp only [prioritySetEffective, wp_bind, wp_get, wp_ite, if_pos hrange, wp_pure, if_true,
        wp_fatalUnless, Bool.false_eq_true, false_imp_iff, not_false_eq_true, true_imp_iff,
        true_and]
      exact hE rfl

/-! ## The deadlock test -/

theorem wp_wouldCycleFrom {Q : Bool → Kernel → Prop} {n : Nat} {rank : TaskId → Nat}
    (h : Inv cfg base stale k)
    (hrank : ∀ a b, awaits k.mutexes k.tasks a = some b → rank b < rank a) (hn : rank t < n)
    (hQ : ∀ b : Bool, (b = true ↔ Reaches (awaits k.mutexes k.tasks) t c) → Q b k) :
    wp (wouldCycleFrom c n (some t)) Q E k := by
  induction n generalizing t with
  | zero => omega
  | succ n ih =>
    simp only [wouldCycleFrom, wp_bind, wp_get, wp_ite]
    split <;> rename_i htc
    · rw [wp_pure]
      exact hQ true (by simpa using htc ▸ .refl)
    · split <;> rename_i hstop
      · rw [wp_pure]
        refine hQ false ?_
        rw [reaches_of_none (awaits_eq_none hstop)]
        simpa using htc
      · simp only [ne_eq, not_or, not_not] at hstop
        obtain ⟨u, hou, hau⟩ := h.mutexOwnerAwaited_eq hstop.1 hstop.2
        rw [hou]
        refine ih (by have := hrank t u hau; omega) fun b hb => hQ b (hb.trans ?_)
        rw [reaches_iff_eq_or_next (a := t)]
        simp [htc, hau]

/-- `rts_mutex_would_cycle` answers whether the task is reached from the owner of the mutex. -/
theorem wp_mutexWouldCycle {Q : Bool → Kernel → Prop} (h : Inv cfg base stale k)
    (hQ : ∀ b : Bool, (b = true ↔ ∃ owner, (k.mutexes m).owner = some owner ∧
      Reaches (awaits k.mutexes k.tasks) owner c) → Q b k) :
    wp (mutexWouldCycle cfg c m) Q E k := by
  obtain ⟨rank, hlt, hrank⟩ := h.exists_rank
  unfold mutexWouldCycle
  rw [wp_bind, wp_get]
  cases ho : (k.mutexes m).owner with
  | none => exact hQ false (by simp [ho])
  | some owner =>
    refine wp_wouldCycleFrom h hrank (hlt owner (h.locks.owner_valid m owner ho)) fun b hb => ?_
    exact hQ b (by simpa [ho] using hb)

end RtsKernel
