import RtsKernel.Model.WaitList
import RtsKernel.Property.Locks
import RtsKernel.Property.Waits

/-!
# Wait lists are stable priority queues

The pointers of `wait_object.c` against the sequences of the kernel model: `Stores h k` says that
the heap holds the wait lists of the kernel, and each of the three operations on the heap is the one
on the sequences, checks and all, from any state. What the sequences are in a run is then stated of
the sequences.

## Main results

- `WaitHeap.stores_reset`, `WaitHeap.Stores.semaphoreInit`, `WaitHeap.Stores.mutexInit`: the lists
  at the start of a run and of each object.
- `WaitHeap.Stores.insert`, `WaitHeap.Stores.remove`, `WaitHeap.Stores.reprioritize`: the
  refinement.
- `wait_lists_stable`: order, stability and room of every wait list in every run.
-/

namespace RtsKernel

open Halting Prog DoublyLinked

variable {cfg : Config} {k k' : Kernel} {o : WaitObject} {t : TaskId}

namespace WaitHeap

variable {prio : TaskId → Nat} {h : WaitHeap} {c : WaitObject → List TaskId}
  {l₁ l₂ : List TaskId}

/-- The walk of the validator over the part `l₂` of a list that has `l₁` in front of it. -/
theorem walk_iff {last : Option TaskId} {n : Nat} (hr : Represents h c) (hsplit : c o = l₁ ++ l₂) :
    walk cfg prio h o l₂.head? l₁.getLast? l₁.length = some (none, last, n) ∧ n ≤ cfg.maxTasks ↔
      (l₁.getLast?.toList ++ l₂).IsChain (fun a b => prio b ≤ prio a) ∧
      last = (c o).getLast? ∧ n = (c o).length ∧ (c o).length ≤ cfg.maxTasks := by
  induction l₂ generalizing l₁ with
  | nil =>
    have hl : c o = l₁ := by rw [hsplit, List.append_nil]
    rw [List.head?_nil, walk, hl]
    cases l₁.getLast? <;> grind
  | cons a l ih =>
    have hnext : c o = (l₁ ++ [a]) ++ l := by rw [hsplit, List.append_assoc]; rfl
    have hneighbours := hr.neighbours hsplit
    have howner : (h.nodes a).owner = some o := (hr.owner a o).2 (by simp [hsplit])
    have hstep := ih hnext
    rw [List.getLast?_concat, List.length_append, List.length_singleton] at hstep
    have hchain : (l₁.getLast?.toList ++ a :: l).IsChain (fun a b => prio b ≤ prio a) ↔
        (¬ ∃ p ∈ l₁.getLast?, prio p < prio a) ∧ (a :: l).IsChain (fun a b => prio b ≤ prio a) := by
      cases l₁.getLast? with
      | none => simp
      | some p => simp [List.isChain_cons_cons]
    rw [List.head?_cons, walk, hchain]
    by_cases hroom : l₁.length ≤ cfg.maxTasks
    · rw [if_pos hroom]
      by_cases hbad : ∃ p ∈ l₁.getLast?, prio p < prio a
      · rw [if_pos (.inr (.inr hbad))]
        grind
      · have hgood : ¬ ((h.nodes a).owner ≠ some o ∨ (h.nodes a).previous ≠ l₁.getLast? ∨
            ∃ p ∈ l₁.getLast?, prio p < prio a) := by
          rintro (hne | hne | hne)
          · exact hne howner
          · exact hne hneighbours.1
          · exact hbad hne
        rw [if_neg hgood, hneighbours.2, hstep]
        simp only [hbad, not_false_eq_true, true_and]
        rfl
    · have hlong : ¬ (c o).length ≤ cfg.maxTasks := by
        rw [hsplit, List.length_append]
        omega
      rw [if_neg hroom]
      simp [hlong]

theorem validate_iff (hr : Represents h c) :
    Validate cfg prio h o ↔
      (c o).IsChain (fun a b => prio b ≤ prio a) ∧ (c o).length ≤ cfg.maxTasks := by
  have hwalk : ∀ {last : Option TaskId} {n : Nat},
      walk cfg prio h o (h.lists o).head none 0 = some (none, last, n) ∧ n ≤ cfg.maxTasks ↔
        (c o).IsChain (fun a b => prio b ≤ prio a) ∧ last = (c o).getLast? ∧ n = (c o).length ∧
          (c o).length ≤ cfg.maxTasks := by
    intro last n
    rw [hr.head_eq]
    exact walk_iff hr (List.nil_append (c o)).symm
  have hends : (h.lists o).head = none ↔ (h.lists o).tail = none := by
    rw [hr.head_eq, hr.tail_eq, List.head?_eq_none_iff, List.getLast?_eq_none_iff]
  constructor
  · rintro ⟨-, ⟨_, last, n⟩, hresult, rfl, -, -, hle⟩
    obtain ⟨hchain, -, -, hlen⟩ := hwalk.1 ⟨hresult, hle⟩
    exact ⟨hchain, hlen⟩
  · rintro ⟨hchain, hlen⟩
    have hresult := (hwalk.2 ⟨hchain, rfl, rfl, hlen⟩).1
    exact ⟨hends, _, hresult, rfl, hr.tail_eq.symm, (hr.count o).symm, hlen⟩

/-- The position found is the first waiter of lower priority. -/
theorem position_eq {priority rounds : Nat} (hr : Represents h c) (hsplit : c o = l₁ ++ l₂)
    (hrounds : l₂.length ≤ rounds) :
    position prio h priority rounds l₂.head? = (l₂.dropWhile (priority ≤ prio ·)).head? := by
  induction l₂ generalizing l₁ rounds with
  | nil => cases rounds <;> rfl
  | cons a l ih =>
    obtain _ | rounds := rounds
    · simp at hrounds
    · have hnext : c o = (l₁ ++ [a]) ++ l := by rw [hsplit, List.append_assoc]; rfl
      rw [List.head?_cons, position, (hr.neighbours hsplit).2, List.dropWhile_cons,
        ih hnext (by simpa using hrounds)]
      by_cases hle : priority ≤ prio a
      · simp [hle]
      · simp [hle]

/-- Linking a task in at that position is an ordered insertion. -/
theorem represents_link (hr : Represents h c) (hfree : (h.nodes t).owner = none)
    (hlen : (c o).length ≤ cfg.maxTasks) {next : Option TaskId}
    (hnext : next = position prio h (prio t) cfg.maxTasks (h.lists o).head) :
    Represents (h.link o (predecessor h o next) t next)
      (Function.update c o ((c o).orderedInsert (Outranks prio) t)) := by
  have hpos : next = ((c o).dropWhile (prio t ≤ prio ·)).head? := by
    rw [hnext, hr.head_eq]
    exact position_eq hr (List.nil_append (c o)).symm hlen
  have hsplit : c o = (c o).takeWhile (prio t ≤ prio ·) ++ (c o).dropWhile (prio t ≤ prio ·) :=
    List.takeWhile_append_dropWhile.symm
  have hprev : predecessor h o next = ((c o).takeWhile (prio t ≤ prio ·)).getLast? := by
    rw [hpos]
    cases hdrop : (c o).dropWhile (prio t ≤ prio ·) with
    | nil =>
      rw [hdrop, List.append_nil] at hsplit
      rw [← hsplit]
      exact hr.tail_eq
    | cons u l =>
      rw [hdrop] at hsplit
      exact (hr.neighbours hsplit).1
  have hins : (c o).orderedInsert (Outranks prio) t =
      (c o).takeWhile (prio t ≤ prio ·) ++ t :: (c o).dropWhile (prio t ≤ prio ·) := by
    rw [List.orderedInsert_eq_take_drop]
    simp [Outranks]
  rw [hins, hprev, hpos]
  exact hr.link hfree hsplit

/-- The heap holds the wait lists of the kernel, whose priorities are `prio`. -/
structure Stores (prio : TaskId → Nat) (h : WaitHeap) (k : Kernel) : Prop where
  lists : Represents h k.waiters
  owner : ∀ t, (h.nodes t).owner = (k.tasks t).waitOwner
  prio_eq : k.prio = prio

/-- Before the first call the wait lists are empty and no task is in one. -/
theorem stores_reset (hnodes : ∀ t, h.nodes t = ⟨none, none, none⟩)
    (hlists : ∀ o, h.lists o = ⟨none, none, 0⟩) : Stores resetKernel.prio h resetKernel where
  lists := by
    have hnone : resetKernel.waiters = fun _ => [] := by
      funext o
      cases o <;> rfl
    rw [hnone]
    exact represents_nil hnodes hlists
  owner t := by
    rw [hnodes t]
    rfl
  prio_eq := rfl

namespace Stores

/-- `rts_wait_object_initialize` of a list without waiters, while nothing else about the wait lists
changes in the kernel. -/
theorem objectInitialize (hs : Stores prio h k) (hnil : k.waiters o = [])
    (hwaiters : k'.waiters = k.waiters) (htasks : k'.tasks = k.tasks) :
    wp (WaitHeap.objectInitialize o) (fun _ h' => Stores prio h' k') (fun _ _ => False) h := by
  rw [WaitHeap.objectInitialize, wp_modify, hs.lists.clear_eq hnil]
  refine ⟨hwaiters ▸ hs.lists, fun t => htasks ▸ hs.owner t, ?_⟩
  rw [← hs.prio_eq]
  unfold Kernel.prio
  rw [htasks]

/-- The list that `rts_semaphore_init` initialises was empty. -/
theorem semaphoreInit {isr : Bool} {i initialCount maximumCount : Nat} (hs : Stores prio h k)
    (hk : KernelOk cfg k)
    (hret : RtsKernel.semaphoreInit cfg isr (some i) initialCount maximumCount k = .ret .ok k') :
    wp (WaitHeap.objectInitialize (.semaphore i)) (fun _ h' => Stores prio h' k')
      (fun _ _ => False) h := by
  have hspec : wp (RtsKernel.semaphoreInit cfg isr (some i) initialCount maximumCount)
      (fun status k' => status = .ok → k.waiters (.semaphore i) = [] ∧ k'.waiters = k.waiters ∧
        k'.tasks = k.tasks) (Tolerated k.CurrentReady k.IdleOwns) k := by
    refine wp_semaphoreInit hk (fun _ hne hok => absurd hok hne) fun hfresh _ _ => ?_
    have hnil := (hk.inv.semaphores i).uninitialized hfresh
    refine ⟨hnil, ?_, rfl⟩
    funext o
    cases o with
    | semaphore j => by_cases hj : j = i <;> simp [Kernel.waiters, hj, hnil]
    | mutex m => rfl
  obtain ⟨hnil, hwaiters, htasks⟩ := (wp_ret hspec hret :) rfl
  exact hs.objectInitialize hnil hwaiters htasks

/-- The list that `rts_mutex_init` initialises was empty. -/
theorem mutexInit {isr : Bool} {m : Nat} (hs : Stores prio h k) (hk : KernelOk cfg k)
    (hret : RtsKernel.mutexInit cfg isr (some m) k = .ret .ok k') :
    wp (WaitHeap.objectInitialize (.mutex m)) (fun _ h' => Stores prio h' k')
      (fun _ _ => False) h := by
  have hspec : wp (RtsKernel.mutexInit cfg isr (some m)) (fun status k' => status = .ok →
      k.waiters (.mutex m) = [] ∧ k'.waiters = k.waiters ∧ k'.tasks = k.tasks)
      (fun _ _ => True) k := by
    simp only [RtsKernel.mutexInit, wp_ite, wp_bind, wp_get]
    split
    · simp
    split <;> rename_i hvalid
    · simp
    have hfresh : (k.mutexes m).initialized = false := by
      by_contra hi
      exact hvalid (hk.inv.mutexIsValid (by simpa using hi))
    have hnil := hk.inv.locks.unowned m (hk.inv.locks.uninitialized m hfresh)
    rw [wp_modify, wp_fatalUnless]
    refine ⟨fun _ _ => ⟨hnil, ?_, rfl⟩, fun _ => trivial⟩
    funext o
    cases o with
    | semaphore i => rfl
    | mutex n => by_cases hn : n = m <;> simp [Kernel.waiters, hn, hnil]
  obtain ⟨hnil, hwaiters, htasks⟩ := (wp_ret hspec hret :) rfl
  exact hs.objectInitialize hnil hwaiters htasks

theorem validate_iff (hs : Stores prio h k) :
    Validate cfg prio h o ↔ WaitObjectValidate cfg k o := by
  rw [WaitHeap.validate_iff hs.lists, WaitObjectValidate, ← hs.prio_eq]
  have howner : ∀ t ∈ k.waiters o, (k.tasks t).waitOwner = some o := fun t ht => by
    rw [← hs.owner]
    exact (hs.lists.owner t o).2 ht
  exact ⟨fun ⟨hchain, hlen⟩ => ⟨howner, hchain, hlen⟩, fun ⟨_, hchain, hlen⟩ => ⟨hchain, hlen⟩⟩

theorem nodeIsUnlinked_iff (hs : Stores prio h k) :
    NodeIsUnlinked h t ↔ (k.tasks t).waitOwner = none := by
  rw [← hs.owner]
  refine ⟨fun ⟨_, _, hfree⟩ => hfree, fun hfree => ?_⟩
  obtain ⟨hprev, hnext⟩ := hs.lists.free t hfree
  exact ⟨hprev, hnext, hfree⟩

theorem relink {h' : WaitHeap} {l : List TaskId} {owner : Option WaitObject}
    (hs : Stores prio h k) (hlists : Represents h' (Function.update k.waiters o l))
    (howner : ∀ u, (h'.nodes u).owner = if u = t then owner else (h.nodes u).owner) :
    Stores prio h' (k.relink o l t owner) := by
  refine ⟨?_, fun u => ?_, (prio_relink k o l t owner).trans hs.prio_eq⟩
  · rw [waiters_relink]
    exact hlists
  · rw [howner u]
    by_cases hu : u = t
    · simp [hu]
    · simp [hu, hs.owner u]

/-- `rts_wait_object_insert` on the heap is the insertion of the kernel model. -/
theorem insert (hs : Stores prio h k) :
    Outcome.Related (Stores prio) (WaitHeap.insert cfg prio o t h)
      (waitObjectInsert cfg o t k) := by
  have hvalid : Validate cfg prio h o ↔ WaitObjectValidate cfg k o := hs.validate_iff
  have hfree : NodeIsUnlinked h t ↔ (k.tasks t).waitOwner = none := hs.nodeIsUnlinked_iff
  have hcount : (h.lists o).count = (k.waiters o).length := hs.lists.count o
  have hrefuse : (¬ Validate cfg prio h o ∨ ¬ NodeIsUnlinked h t ∨
      cfg.maxTasks ≤ (h.lists o).count) ↔ (¬ WaitObjectValidate cfg k o ∨
      (k.tasks t).waitOwner ≠ none ∨ cfg.maxTasks ≤ (k.waiters o).length) := by
    rw [hvalid, hfree, hcount]
  unfold WaitHeap.insert waitObjectInsert
  rw [get_bind_apply, get_bind_apply]
  refine related_check_bind _ (imp_congr_right fun _ => hvalid) hs fun _ => ?_
  refine related_check_bind _ (imp_congr_right fun _ => hfree) hs fun _ => ?_
  refine related_check_bind _ (imp_congr_right fun _ => by rw [hcount]) hs fun _ => ?_
  by_cases hbad : ¬ Validate cfg prio h o ∨ ¬ NodeIsUnlinked h t ∨
      cfg.maxTasks ≤ (h.lists o).count
  · rw [if_pos hbad, if_pos (hrefuse.1 hbad)]
    exact related_pure () hs
  · rw [if_neg hbad, if_neg (fun h' => hbad (hrefuse.2 h'))]
    simp only [not_or, not_not] at hbad
    obtain ⟨hval, hunlinked, -⟩ := hbad
    have hlen := ((WaitHeap.validate_iff hs.lists).1 hval).2
    have hs' : Stores prio
        (h.link o (predecessor h o (position prio h (prio t) cfg.maxTasks (h.lists o).head)) t
          (position prio h (prio t) cfg.maxTasks (h.lists o).head))
        (k.relink o ((k.waiters o).orderedInsert (Outranks k.prio) t) t (some o)) := by
      rw [hs.prio_eq]
      refine hs.relink (represents_link hs.lists hunlinked.2.2 hlen rfl) fun u => ?_
      by_cases hu : u = t
      · simp [Heap.link, hu]
      · simp [Heap.link, hu]
    rw [modify_bind_apply, modify_bind_apply, get_bind_apply, get_bind_apply]
    exact related_check _ hs'.validate_iff hs'

/-- `rts_wait_object_remove` on the heap is the removal of the kernel model. -/
theorem remove (hs : Stores prio h k) :
    Outcome.Related (Stores prio) (WaitHeap.remove cfg prio o t h)
      (waitObjectRemove cfg o t k) := by
  have howner : (h.nodes t).owner = some o ↔ (k.tasks t).waitOwner = some o := by rw [hs.owner]
  have hcount : (h.lists o).count = (k.waiters o).length := hs.lists.count o
  unfold WaitHeap.remove waitObjectRemove
  rw [get_bind_apply, get_bind_apply]
  refine related_check_bind _ (imp_congr_right fun _ => howner) hs fun _ => ?_
  by_cases hin : (h.nodes t).owner = some o
  · rw [if_neg (not_not.2 hin), if_neg (not_not.2 (howner.1 hin))]
    refine related_check_bind _ (by rw [hcount]) hs fun _ => ?_
    have hs' : Stores prio (h.unlink o t) (k.relink o ((k.waiters o).erase t) t none) := by
      refine hs.relink (hs.lists.unlink_mem ((hs.lists.owner t o).1 hin)) fun u => ?_
      by_cases hu : u = t
      · simp [Heap.unlink, hu]
      · simp [Heap.unlink, hu]
    rw [modify_bind_apply, modify_bind_apply, get_bind_apply, get_bind_apply]
    exact related_check _ hs'.validate_iff hs'
  · rw [if_pos hin, if_pos (fun h' => hin (howner.2 h'))]
    exact related_pure () hs

/-- `rts_wait_object_reprioritize` on the heap is that of the kernel model. -/
theorem reprioritize (hs : Stores prio h k) :
    Outcome.Related (Stores prio) (WaitHeap.reprioritize cfg prio o t h)
      (waitObjectReprioritize cfg o t k) := by
  have howner : (h.nodes t).owner = some o ↔ (k.tasks t).waitOwner = some o := by rw [hs.owner]
  unfold WaitHeap.reprioritize waitObjectReprioritize
  rw [get_bind_apply, get_bind_apply]
  refine related_check_bind _ (imp_congr_right fun _ => howner) hs fun _ => ?_
  by_cases hin : (h.nodes t).owner = some o
  · rw [if_neg (not_not.2 hin), if_neg (not_not.2 (howner.1 hin))]
    exact related_bind hs.remove fun _ _ _ hs' => hs'.insert
  · rw [if_pos hin, if_pos (fun h' => hin (howner.2 h'))]
    exact related_pure () hs

end Stores

end WaitHeap

/-- Two distinct members of a list without duplicates stand in one order or the other. -/
theorem sublist_pair_or {l : List TaskId} {a b : TaskId} (ha : a ∈ l) (hb : b ∈ l) (hab : a ≠ b) :
    [a, b].Sublist l ∨ [b, a].Sublist l := by
  obtain ⟨l₁, l₂, rfl⟩ := List.append_of_mem ha
  obtain hb | hb := List.mem_append.1 hb
  · have hba : ([b] ++ [a]).Sublist (l₁ ++ a :: l₂) :=
      (List.singleton_sublist.2 hb).append (List.singleton_sublist.2 List.mem_cons_self)
    exact .inr hba
  · have hb₂ : b ∈ l₂ := (List.mem_cons.1 hb).resolve_left (Ne.symm hab)
    have hab' : [a, b].Sublist (a :: l₂) := (List.singleton_sublist.2 hb₂).cons_cons a
    exact .inl (hab'.trans (List.sublist_append_right _ _))

theorem not_sublist_pair_of_nodup {l : List TaskId} {a b : TaskId} (hl : l.Nodup)
    (hab : [a, b].Sublist l) : ¬ [b, a].Sublist l := by
  intro hba
  induction l with
  | nil => simp at hab
  | cons x l ih => grind

/-- Waiters whose priority stays keep their order. -/
theorem Fifo.order_kept {k' : Kernel} {a b : TaskId} (hfifo : Fifo k k')
    (hsorted : (k.waiters o).Pairwise fun a b => k.prio b ≤ k.prio a)
    (hsorted' : (k'.waiters o).Pairwise fun a b => k'.prio b ≤ k'.prio a)
    (ha : a ∈ k.waiters o) (hb : b ∈ k.waiters o)
    (hpa : k'.prio a = k.prio a) (hpb : k'.prio b = k.prio b)
    (hab : [a, b].Sublist (k'.waiters o)) (hne : a ≠ b) : [a, b].Sublist (k.waiters o) := by
  have hle : k'.prio b ≤ k'.prio a := by simpa using hsorted'.sublist hab
  obtain hlt | heq := Nat.lt_or_eq_of_le hle
  · refine (sublist_pair_or ha hb hne).resolve_right fun hba => ?_
    have hge : k.prio a ≤ k.prio b := by simpa using hsorted.sublist hba
    omega
  · obtain (hnew | hnew) | hold := hfifo o a b hab heq.symm
    · exact absurd hpb hnew
    · exact absurd hb hnew
    · exact hold.2

/-- In every run: each wait list is ordered by the current priorities, and among equals by when they
last took their place at that priority; in any further step the waiters that stay at their priority
keep their order; every task that waits for an object is in its list and no event fails a check of
`wait_object.c`, there being room for any application task that waits nowhere. A heap that holds
the lists has them as well-formed doubly linked lists, and each operation on a heap that holds the
lists of any state leaves one that holds the lists after it. -/
theorem wait_lists_stable {T : Timeline} (hT : Recorded cfg T) :
    (∀ o, (T.kernel.waiters o).Nodup ∧
      (T.kernel.waiters o).Pairwise fun a b => T.kernel.prio b ≤ T.kernel.prio a) ∧
    (∀ o a b, [a, b].Sublist (T.kernel.waiters o) → T.kernel.prio a = T.kernel.prio b →
      T.queuedAt a ≤ T.queuedAt b) ∧
    (∀ ev k', Step cfg T.kernel ev k' → ∀ o a b, a ≠ b →
      a ∈ T.kernel.waiters o → a ∈ k'.waiters o → k'.prio a = T.kernel.prio a →
      b ∈ T.kernel.waiters o → b ∈ k'.waiters o → k'.prio b = T.kernel.prio b →
      ([a, b].Sublist (T.kernel.waiters o) ↔ [a, b].Sublist (k'.waiters o))) ∧
    (∀ o t, (T.kernel.tasks t).AwaitsObject → (T.kernel.tasks t).wait.object = some o →
      t ∈ T.kernel.waiters o) ∧
    (∀ o t, t.IsApplication cfg → (T.kernel.tasks t).waitOwner = none →
      (T.kernel.waiters o).length < cfg.maxTasks) ∧
    (∀ ev, ev.Enabled T.kernel → wp (runEvent cfg ev) (fun _ _ => True)
      (fun e _ => e ≠ .assertion .waitObject) T.kernel) ∧
    (∀ h, WaitHeap.Stores T.kernel.prio h T.kernel → ∀ o,
      IsList (fun t => (h.nodes t).previous) (fun t => (h.nodes t).next) (h.lists o).head
        (h.lists o).tail (T.kernel.waiters o) ∧ WaitHeap.Validate cfg T.kernel.prio h o) ∧
    ∀ h k prio, WaitHeap.Stores prio h k → ∀ o t,
      Outcome.Related (WaitHeap.Stores prio) (WaitHeap.insert cfg prio o t h)
        (waitObjectInsert cfg o t k) ∧
      Outcome.Related (WaitHeap.Stores prio) (WaitHeap.remove cfg prio o t h)
        (waitObjectRemove cfg o t k) ∧
      Outcome.Related (WaitHeap.Stores prio) (WaitHeap.reprioritize cfg prio o t h)
        (waitObjectReprioritize cfg o t k) := by
  have hsound := hT.sound
  have hwait := hsound.ok.inv.wait
  have hsorted : ∀ {k : Kernel} o, Sound cfg k →
      (k.waiters o).Pairwise fun a b => k.prio b ≤ k.prio a := fun o hk =>
    (hk.ok.inv.wait.sorted o).imp fun hab => hab (by simp) (by simp)
  refine ⟨fun o => ⟨hwait.nodup o, hsorted o hsound⟩, hT.queuedInOrder.order,
    fun ev k' hs o a b hne ha ha' hpa hb hb' hpb => ?_,
    fun o t hawaits hobject => (hsound.linked.wait o t).2 ⟨hawaits, hobject⟩,
    fun o t happ hfree => hwait.length_lt hfree happ o, fun ev hen => ?_,
    fun h hstores o => ⟨hstores.lists.isList o, hstores.validate_iff.2 (hwait.validate o)⟩,
    fun h k prio hstores o t => ⟨hstores.insert, hstores.remove, hstores.reprioritize⟩⟩
  · have hsound' := hsound.step hs
    have hfifo := (hs.stepped hsound).fifo
    refine ⟨fun hab => ?_, fun hab => ?_⟩
    · refine (sublist_pair_or ha' hb' hne).resolve_right fun hba => ?_
      exact not_sublist_pair_of_nodup (hwait.nodup o) hab
        (hfifo.order_kept (hsorted o hsound) (hsorted o hsound') hb ha hpb hpa hba hne.symm)
    · exact hfifo.order_kept (hsorted o hsound) (hsorted o hsound') ha hb hpa hpb hab hne
  · refine wp_mono (runEvent_spec hsound hen) (fun _ _ _ => trivial) ?_
    rintro _ _ htol rfl
    exact htol.1 trivial

/-- Three tasks wait for a mutex, two of one priority and the one that came first of a lower one.
When the mutex is unlocked, the order of the two that go on waiting is kept. -/
theorem wait_lists_stable_crowded : ∃ (T : Timeline) (k' : Kernel),
    T.kernel.waiters (.mutex 0) = [.slot 1, .slot 2, .slot 3] ∧
    T.kernel.prio (.slot 1) = T.kernel.prio (.slot 2) ∧
    T.kernel.prio (.slot 3) < T.kernel.prio (.slot 2) ∧
    (T.kernel.waiters (.mutex 0)).Pairwise (fun a b => T.kernel.prio b ≤ T.kernel.prio a) ∧
    T.queuedAt (.slot 1) ≤ T.queuedAt (.slot 2) ∧
    Step crowdConfig T.kernel (.unlock false (some 0)) k' ∧
    [.slot 2, .slot 3].Sublist (k'.waiters (.mutex 0)) := by
  have hrun : (execute crowdConfig (fun _ _ => True) crowdedMutexEvents resetKernel).any
      (fun k => decide ((k.waiters (.mutex 0) = [.slot 1, .slot 2, .slot 3] ∧
        k.prio (.slot 1) = k.prio (.slot 2) ∧ k.prio (.slot 3) < k.prio (.slot 2)) ∧
        (execute crowdConfig (fun _ _ => True) [.unlock false (some 0)] k).any (fun k' =>
          decide (.slot 2 ∈ k'.waiters (.mutex 0) ∧ .slot 3 ∈ k'.waiters (.mutex 0) ∧
            k'.prio (.slot 2) = k.prio (.slot 2) ∧ k'.prio (.slot 3) = k.prio (.slot 3))) =
          true)) = true := by
    decide +kernel
  obtain ⟨k, hreach, ⟨hlist, hequal, hlower⟩, hunlock⟩ := exists_reachable hrun
  obtain ⟨k', hstep, htwo, hthree, hprio₂, hprio₃⟩ := exists_step hunlock
  obtain ⟨T, hT, rfl⟩ := Reachable.recorded hreach
  obtain ⟨hsorted, hstamps, hkept, -⟩ := wait_lists_stable hT
  have hfirst : [.slot 1, .slot 2].Sublist (T.kernel.waiters (.mutex 0)) := by
    rw [hlist]
    decide
  have hlast : [.slot 2, .slot 3].Sublist (T.kernel.waiters (.mutex 0)) := by
    rw [hlist]
    decide
  refine ⟨T, k', hlist, hequal, hlower, (hsorted _).2, hstamps _ _ _ hfirst hequal, hstep, ?_⟩
  exact (hkept _ k' hstep _ _ _ (by decide) (by simp [hlist]) htwo hprio₂ (by simp [hlist]) hthree
    hprio₃).mp hlast

end RtsKernel
