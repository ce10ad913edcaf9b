import Mathlib.Data.Fintype.Card
import Mathlib.Data.List.Rotate
import RtsKernel.Invariant.Ready
import RtsKernel.Library.Transition
import RtsKernel.Property.Lists
import RtsKernel.Property.ReadySet

/-!
# The ready set in memory refines the ready queues

The queues, nodes, object pointers and bitmap words of a well-formed memory stand for one sequence
of tasks for each priority. `step_stores` is the refinement of one call.

## Main results

- `ready_set_refines_queues`: every sequence of calls, with selection after it.
- `policyInitialize_readyQueues`, `policyFpInsert_readyQueues` and their companions: the queues of
  the kernel model are this family of sequences, from the initialisation on.
-/

namespace RtsKernel

open DoublyLinked Transition

/-- What the ready set is for: a sequence of tasks for each priority. -/
structure ReadyQueues (τ : Type) where
  queues : Nat → List τ
  priority : τ → Nat

/-- The calls on a ready set: those of `ready_queue.c`, and those of the fixed priority plugin. -/
inductive ReadyOp (τ : Type) where
  | insert (t : τ)
  | remove (t : τ)
  | rotate (priority : Nat)
  | priorityChanged (t : τ) (effectivePriority : Nat)
  | policyInsert (t : τ)
  | policyRemove (t : τ)
  | policyYield (t : τ)

/-- Whether every check of a call held, and the value it returned, if any. -/
structure ReadyReply where
  passed : Bool
  returned : Option Bool := none
  deriving DecidableEq, Repr

namespace ReadyQueues

variable {τ : Type} [DecidableEq τ]

/-- The task is in the sequence of its priority. -/
def Linked (r : ReadyQueues τ) (t : τ) : Prop := t ∈ r.queues (r.priority t)

instance (r : ReadyQueues τ) (t : τ) : Decidable (r.Linked t) :=
  inferInstanceAs (Decidable (t ∈ r.queues (r.priority t)))

def setQueue (r : ReadyQueues τ) (p : Nat) (l : List τ) : ReadyQueues τ :=
  { r with queues := Function.update r.queues p l }

/-- Append at the tail. -/
def push (r : ReadyQueues τ) (t : τ) : ReadyQueues τ :=
  r.setQueue (r.priority t) (r.queues (r.priority t) ++ [t])

/-- Delete. -/
def drop (r : ReadyQueues τ) (t : τ) : ReadyQueues τ :=
  r.setQueue (r.priority t) ((r.queues (r.priority t)).erase t)

/-- Head to tail. -/
def turn (r : ReadyQueues τ) (p : Nat) : ReadyQueues τ := r.setQueue p ((r.queues p).rotate 1)

def setPriority (r : ReadyQueues τ) (t : τ) (p : Nat) : ReadyQueues τ :=
  { r with priority := Function.update r.priority t p }

/-- What each call is for. -/
def step (priorityCount : Nat) (r : ReadyQueues τ) : ReadyOp τ → ReadyQueues τ × ReadyReply
  | .insert t => if r.Linked t then (r, ⟨false, none⟩) else (r.push t, ⟨true, none⟩)
  | .remove t => if r.Linked t then (r.drop t, ⟨true, none⟩) else (r, ⟨false, none⟩)
  | .rotate p =>
    if p < priorityCount ∧ 1 < (r.queues p).length then (r.turn p, ⟨true, none⟩)
    else (r, ⟨false, none⟩)
  | .priorityChanged t p =>
    if p = 0 ∨ priorityCount ≤ p then (r, ⟨true, some false⟩)
    else if r.priority t = p then (r, ⟨true, some true⟩)
    else if r.Linked t then (((r.drop t).setPriority t p).push t, ⟨true, some true⟩)
    else (r.setPriority t p, ⟨true, some true⟩)
  | .policyInsert t => if r.Linked t then (r, ⟨true, some false⟩) else (r.push t, ⟨true, some true⟩)
  | .policyRemove t => if r.Linked t then (r.drop t, ⟨true, some true⟩) else (r, ⟨true, some false⟩)
  | .policyYield t =>
    if r.Linked t ∧ 1 < (r.queues (r.priority t)).length then
      (r.turn (r.priority t), ⟨true, some true⟩)
    else (r, ⟨true, some false⟩)

end ReadyQueues

namespace ReadyMemory

variable {ι ν τ : Type} [DecidableEq τ]

/-- The memory is well formed and its ready set is `r`. The lists of the heap are `c`: the priority
queues hold the ready nodes of the sequences of `r`, and no other list holds a ready node. -/
structure Represents (L : ReadyLayout ι ν τ) (priorityCount : Nat) (m : ReadyMemory ι ν τ)
    (r : ReadyQueues τ) (c : ι → List ν) : Prop where
  heap : DoublyLinked.Represents m.heap c
  queue : ∀ p, c (L.priorityQueue p) = (r.queues p).map L.readyNode
  only : ∀ i t, L.readyNode t ∈ c i → ∃ p, i = L.priorityQueue p
  inRange : ∀ p, priorityCount ≤ p → r.queues p = []
  valid : ∀ t, r.priority t < priorityCount
  priority : ∀ p, ∀ t ∈ r.queues p, r.priority t = p
  samePriority : m.priority = r.priority
  object : ∀ t, m.object (L.readyNode t) = if r.Linked t then some t else none
  bit : ∀ p < readyBitmapWords priorityCount * 32, (m.bit p = true ↔ r.queues p ≠ [])

variable {L : ReadyLayout ι ν τ} {priorityCount sizeMax : Nat} {m : ReadyMemory ι ν τ}
  {r : ReadyQueues τ} {c : ι → List ν} {t : τ} {p q : Nat}

namespace Represents

theorem mem_iff (hr : Represents L priorityCount m r c) :
    L.readyNode t ∈ c (L.priorityQueue p) ↔ t ∈ r.queues p := by
  rw [hr.queue p, List.mem_map_of_injective L.readyNode_injective]

theorem nodup (hr : Represents L priorityCount m r c) (p : Nat) : (r.queues p).Nodup := by
  have hnodup : (c (L.priorityQueue p)).Nodup := hr.heap.nodup
  rw [hr.queue p] at hnodup
  exact hnodup.of_map

theorem stray (hr : Represents L priorityCount m r c) (hp : priorityCount ≤ p)
    (hlt : p < readyBitmapWords priorityCount * 32) : m.bit p = false := by
  have hbit := hr.bit p hlt
  rw [hr.inRange p hp] at hbit
  simpa using hbit

theorem room [Fintype τ] (hr : Represents L priorityCount m r c)
    (hcard : Fintype.card τ ≤ sizeMax) (p : Nat) : (r.queues p).length ≤ sizeMax :=
  (hr.nodup p).length_le_card.trans hcard

theorem room_for [Fintype τ] (hr : Represents L priorityCount m r c)
    (hcard : Fintype.card τ ≤ sizeMax) (hout : t ∉ r.queues p) :
    (r.queues p).length < sizeMax := by
  have hnodup : (t :: r.queues p).Nodup := List.nodup_cons.2 ⟨hout, hr.nodup p⟩
  exact hnodup.length_le_card.trans hcard

theorem linked_of_mem (hr : Represents L priorityCount m r c) (ht : t ∈ r.queues p) :
    r.Linked t := by
  rw [ReadyQueues.Linked, hr.priority p t ht]
  exact ht

/-- The owner field says whether the task is linked. -/
theorem owner_iff (hr : Represents L priorityCount m r c) :
    (m.heap.nodes (L.readyNode t)).owner = some (L.priorityQueue (r.priority t)) ↔ r.Linked t := by
  rw [hr.heap.owner, hr.mem_iff]
  rfl

theorem owner_none (hr : Represents L priorityCount m r c) (h : ¬ r.Linked t) :
    (m.heap.nodes (L.readyNode t)).owner = none := by
  refine hr.heap.owner_none.2 fun i hi => ?_
  obtain ⟨p, rfl⟩ := hr.only i t hi
  exact h (hr.linked_of_mem (hr.mem_iff.1 hi))

theorem count_eq (hr : Represents L priorityCount m r c) (p : Nat) :
    (m.heap.lists (L.priorityQueue p)).count = (r.queues p).length := by
  rw [hr.heap.count, hr.queue, List.length_map]

theorem queue_isValid (hr : Represents L priorityCount m r c) (p : Nat) :
    Queue L m p (r.queues p) := by
  have hlist := hr.heap.isList (L.priorityQueue p)
  rw [hr.queue p] at hlist
  refine ⟨hlist, ?_, fun t ht => ?_, fun t ht => ?_, fun t ht => ?_⟩
  · exact hr.count_eq p
  · exact (hr.heap.owner _ _).2 (hr.mem_iff.2 ht)
  · rw [hr.object, if_pos (hr.linked_of_mem ht)]
  · rw [hr.samePriority]
    exact hr.priority p t ht

/-- Giving a task that is not linked another priority. -/
theorem setPriority (hr : Represents L priorityCount m r c) (hout : ¬ r.Linked t)
    (hp : p < priorityCount) :
    Represents L priorityCount { m with priority := Function.update m.priority t p }
      (r.setPriority t p) c where
  heap := hr.heap
  queue := hr.queue
  only := hr.only
  inRange := hr.inRange
  valid := by
    intro u
    by_cases hu : u = t
    · simpa [hu, ReadyQueues.setPriority] using hp
    · simpa [hu, ReadyQueues.setPriority] using hr.valid u
  priority := by
    intro q u hu
    have hut : u ≠ t := by
      rintro rfl
      exact hout (hr.linked_of_mem hu)
    simpa [ReadyQueues.setPriority, hut] using hr.priority q u hu
  samePriority := by rw [hr.samePriority]; rfl
  object := by
    intro u
    rw [hr.object]
    by_cases hu : u = t
    · subst hu
      have hout' : ¬ (r.setPriority u p).Linked u := by
        intro hlinked
        exact hout (hr.linked_of_mem hlinked)
      rw [if_neg hout, if_neg hout']
    · have hiff : (r.setPriority t p).Linked u ↔ r.Linked u := by
        simp [ReadyQueues.Linked, ReadyQueues.setPriority, hu]
      simp only [hiff]
  bit := hr.bit

variable [DecidableEq ι]

theorem contains_eq (hr : Represents L priorityCount m r c) :
    contains L priorityCount m t = decide (r.Linked t) := by
  have hvalid := hr.valid t
  simp [contains, hr.samePriority, hvalid, hr.owner_iff]

theorem hasPeer_eq (hr : Represents L priorityCount m r c) :
    hasPeer L priorityCount m t =
      decide (r.Linked t ∧ 1 < (r.queues (r.priority t)).length) := by
  simp [hasPeer, hr.samePriority, hr.valid t, hr.owner_iff, hr.count_eq]

/-- The ready set after its heap, its object pointers and its bitmap have followed a change of one
sequence. -/
theorem setQueue (hr : Represents L priorityCount m r c) (hp : p < priorityCount) {l : List τ}
    {m' : ReadyMemory ι ν τ}
    (hheap : DoublyLinked.Represents m'.heap
      (Function.update c (L.priorityQueue p) (l.map L.readyNode)))
    (hl : ∀ t ∈ l, r.priority t = p) (hpriority : m'.priority = m.priority)
    (hobject : ∀ t, m'.object (L.readyNode t) = if (r.setQueue p l).Linked t then some t else none)
    (hbit : ∀ q < readyBitmapWords priorityCount * 32,
      (m'.bit q = true ↔ Function.update r.queues p l q ≠ [])) :
    Represents L priorityCount m' (r.setQueue p l)
      (Function.update c (L.priorityQueue p) (l.map L.readyNode)) where
  heap := hheap
  queue := by
    intro q
    by_cases hq : q = p
    · simp [hq, ReadyQueues.setQueue]
    · have hne : L.priorityQueue q ≠ L.priorityQueue p := fun h =>
        hq (L.priorityQueue_injective h)
      simp [ReadyQueues.setQueue, hq, hne, hr.queue q]
  only := by
    intro i t hi
    by_cases hip : i = L.priorityQueue p
    · exact ⟨p, hip⟩
    · rw [Function.update_of_ne hip] at hi
      exact hr.only i t hi
  inRange := by
    intro q hq
    have hne : q ≠ p := by omega
    simpa [ReadyQueues.setQueue, hne] using hr.inRange q hq
  valid := hr.valid
  priority := by
    intro q t ht
    by_cases hq : q = p
    · subst hq
      exact hl t (by simpa [ReadyQueues.setQueue] using ht)
    · exact hr.priority q t (by simpa [ReadyQueues.setQueue, hq] using ht)
  samePriority := hpriority.trans hr.samePriority
  object := hobject
  bit := hbit

variable [DecidableEq ν]

/-- Inserting a task that is not linked. -/
theorem insert (hr : Represents L priorityCount m r c) (hout : ¬ r.Linked t)
    (hroom : (r.queues (r.priority t)).length < sizeMax) :
    ∃ m', ReadyMemory.insert L priorityCount sizeMax m t = (m', true) ∧
      Represents L priorityCount m' (r.push t)
        (Function.update c (L.priorityQueue (r.priority t))
          ((r.queues (r.priority t) ++ [t]).map L.readyNode)) := by
  have hp := hr.valid t
  have howner := hr.owner_none hout
  obtain ⟨hprev, hnext⟩ := hr.heap.free _ howner
  have hobject : m.object (L.readyNode t) = none := by rw [hr.object, if_neg hout]
  have hcount : (c (L.priorityQueue (r.priority t))).length < sizeMax :=
    by simpa [hr.queue] using hroom
  obtain ⟨heap, hpush, hheap⟩ := IntrusiveList.pushBack_represents hr.heap howner hcount
  have hcontent : c (L.priorityQueue (r.priority t)) ++ [L.readyNode t] =
      (r.queues (r.priority t) ++ [t]).map L.readyNode := by simp [hr.queue]
  rw [hcontent] at hheap
  have howner' : (heap.nodes (L.readyNode t)).owner = some (L.priorityQueue (r.priority t)) :=
    (hheap.owner _ _).2 (by simp)
  refine ⟨{ m with
    heap := heap
    object := Function.update m.object (L.readyNode t) (some t)
    readyBitmap := Function.update m.readyBitmap (r.priority t / 32)
      (m.readyBitmap (r.priority t / 32) ||| readyBitMask (r.priority t)) }, ?_,
    hr.setQueue hp hheap (fun u hu => ?_) rfl (fun u => ?_) (fun q hq => ?_)⟩
  · simp [ReadyMemory.insert, hr.samePriority, hp, howner, hprev, hnext, hobject, hpush, howner']
  · obtain hu | hu := List.mem_append.1 hu
    · exact hr.priority _ u hu
    · rw [List.mem_singleton.1 hu]
  · by_cases hut : u = t
    · simp [hut, ReadyQueues.Linked, ReadyQueues.setQueue]
    · have hne : L.readyNode u ≠ L.readyNode t := fun h => hut (L.readyNode_injective h)
      have hlinked : (r.setQueue (r.priority t) (r.queues (r.priority t) ++ [t])).Linked u ↔
          r.Linked u := by
        by_cases hup : r.priority u = r.priority t
        · simp [ReadyQueues.Linked, ReadyQueues.setQueue, hup, hut]
        · simp [ReadyQueues.Linked, ReadyQueues.setQueue, hup]
      simp only [Function.update_of_ne hne, hr.object, hlinked]
  · have hset := bit_set (m := m) (p := r.priority t) (q := q)
    rw [ReadyMemory.bit, hset]
    by_cases hqp : q = r.priority t
    · simp [hqp]
    · simpa [hqp] using hr.bit q hq

/-- Removing a task that is linked. -/
theorem remove (hr : Represents L priorityCount m r c) (hin : r.Linked t) :
    ∃ m', ReadyMemory.remove L priorityCount m t = (m', true) ∧
      Represents L priorityCount m' (r.drop t)
        (Function.update c (L.priorityQueue (r.priority t))
          (((r.queues (r.priority t)).erase t).map L.readyNode)) := by
  have hp := hr.valid t
  have howner := hr.owner_iff.2 hin
  obtain ⟨heap, hremove, hheap⟩ := IntrusiveList.remove_represents hr.heap (hr.mem_iff.2 hin)
  have hcontent : (c (L.priorityQueue (r.priority t))).erase (L.readyNode t) =
      ((r.queues (r.priority t)).erase t).map L.readyNode := by
    rw [hr.queue, List.map_erase L.readyNode_injective]
  rw [hcontent] at hheap
  have hgone : t ∉ (r.queues (r.priority t)).erase t := (hr.nodup _).not_mem_erase
  have howner' : (heap.nodes (L.readyNode t)).owner = none := by
    refine hheap.owner_none.2 fun i hi => ?_
    by_cases hip : i = L.priorityQueue (r.priority t)
    · rw [hip, Function.update_self, List.mem_map_of_injective L.readyNode_injective] at hi
      exact hgone hi
    · rw [Function.update_of_ne hip] at hi
      exact hip (hr.heap.list_unique hi (hr.mem_iff.2 hin))
  have hcount : (heap.lists (L.priorityQueue (r.priority t))).count = 0 ↔
      (r.queues (r.priority t)).erase t = [] := by
    rw [hheap.count, Function.update_self, List.length_map, List.length_eq_zero_iff]
  refine ⟨{ m with
    heap := heap
    object := Function.update m.object (L.readyNode t) none
    readyBitmap :=
      if (heap.lists (L.priorityQueue (r.priority t))).count = 0 then
        Function.update m.readyBitmap (r.priority t / 32)
          (m.readyBitmap (r.priority t / 32) &&& ~~~readyBitMask (r.priority t))
      else m.readyBitmap }, ?_,
    hr.setQueue hp hheap (fun u hu => ?_) rfl (fun u => ?_) (fun q hq => ?_)⟩
  · simp [ReadyMemory.remove, hr.samePriority, hp, howner, hremove, howner']
  · exact hr.priority _ u (List.mem_of_mem_erase hu)
  · by_cases hut : u = t
    · simp [hut, ReadyQueues.Linked, ReadyQueues.setQueue, hgone]
    · have hne : L.readyNode u ≠ L.readyNode t := fun h => hut (L.readyNode_injective h)
      have hlinked : (r.setQueue (r.priority t) ((r.queues (r.priority t)).erase t)).Linked u ↔
          r.Linked u := by
        by_cases hup : r.priority u = r.priority t
        · simp [ReadyQueues.Linked, ReadyQueues.setQueue, hup, List.mem_erase_of_ne hut]
        · simp [ReadyQueues.Linked, ReadyQueues.setQueue, hup]
      simp only [Function.update_of_ne hne, hr.object, hlinked]
  · have hold := hr.bit q hq
    by_cases hempty : (r.queues (r.priority t)).erase t = []
    · have hclear := bit_clear (m := m) (p := r.priority t) (q := q)
      rw [ReadyMemory.bit, if_pos (hcount.2 hempty), hclear]
      by_cases hqp : q = r.priority t
      · simp [hqp, hempty]
      · simpa [hqp] using hold
    · rw [ReadyMemory.bit, if_neg (fun h => hempty (hcount.1 h))]
      change m.bit q = true ↔ _
      by_cases hqp : q = r.priority t
      · subst hqp
        have hne : r.queues (r.priority t) ≠ [] := List.ne_nil_of_mem hin
        simpa [hempty] using hold.2 hne
      · simpa [hqp] using hold

/-- Rotating a queue of at least two tasks. -/
theorem rotate (hr : Represents L priorityCount m r c) (hp : p < priorityCount)
    (hlen : 1 < (r.queues p).length) (hroom : (r.queues p).length ≤ sizeMax) :
    ∃ m', ReadyMemory.rotate L priorityCount sizeMax m p = (m', true) ∧
      Represents L priorityCount m' (r.turn p)
        (Function.update c (L.priorityQueue p) (((r.queues p).rotate 1).map L.readyNode)) := by
  obtain ⟨t, l, hl⟩ := List.exists_cons_of_length_pos (Nat.zero_lt_of_lt hlen)
  have hcontent : c (L.priorityQueue p) = L.readyNode t :: l.map L.readyNode := by
    rw [hr.queue, hl, List.map_cons]
  have hhead : (m.heap.lists (L.priorityQueue p)).head = some (L.readyNode t) := by
    rw [hr.heap.head_eq, hcontent, List.head?_cons]
  have hcount : 1 < (m.heap.lists (L.priorityQueue p)).count := by
    rwa [hr.count_eq]
  obtain ⟨heap₁, hremove, hheap₁⟩ :=
    IntrusiveList.remove_represents hr.heap (hcontent ▸ List.mem_cons_self)
  rw [hcontent, List.erase_cons_head] at hheap₁
  have hnodup : (t :: l).Nodup := hl ▸ hr.nodup p
  have hfree : (heap₁.nodes (L.readyNode t)).owner = none := by
    refine hheap₁.owner_none.2 fun i hi => ?_
    by_cases hip : i = L.priorityQueue p
    · rw [hip, Function.update_self, List.mem_map_of_injective L.readyNode_injective] at hi
      exact (List.nodup_cons.1 hnodup).1 hi
    · rw [Function.update_of_ne hip] at hi
      exact hip (hr.heap.list_unique hi (by simp [hcontent]))
  have hroom₁ : (Function.update c (L.priorityQueue p) (l.map L.readyNode)
      (L.priorityQueue p)).length < sizeMax := by
    rw [hl, List.length_cons] at hroom
    simpa using hroom
  obtain ⟨heap₂, hpush, hheap₂⟩ := IntrusiveList.pushBack_represents hheap₁ hfree hroom₁
  have hrotate : (r.queues p).rotate 1 = l ++ [t] := by
    rw [hl, List.rotate_cons_succ, List.rotate_zero]
  have hfinal : Function.update (Function.update c (L.priorityQueue p) (l.map L.readyNode))
      (L.priorityQueue p) (Function.update c (L.priorityQueue p) (l.map L.readyNode)
        (L.priorityQueue p) ++ [L.readyNode t]) =
      Function.update c (L.priorityQueue p) (((r.queues p).rotate 1).map L.readyNode) := by
    simp [hrotate]
  rw [hfinal] at hheap₂
  have howner : (heap₂.nodes (L.readyNode t)).owner = some (L.priorityQueue p) :=
    (hheap₂.owner _ _).2 (by simp [hrotate])
  refine ⟨{ m with heap := heap₂ }, ?_,
    hr.setQueue hp hheap₂ (fun u hu => ?_) rfl (fun u => ?_) (fun q hq => ?_)⟩
  · simp [ReadyMemory.rotate, hp, hcount, hhead, hremove, hfree, hpush, howner]
  · exact hr.priority p u (List.mem_rotate.1 hu)
  · have hlinked : (r.setQueue p ((r.queues p).rotate 1)).Linked u ↔ r.Linked u := by
      by_cases hup : r.priority u = p
      · simp [ReadyQueues.Linked, ReadyQueues.setQueue, hup]
      · simp [ReadyQueues.Linked, ReadyQueues.setQueue, hup]
    simp only [hr.object, hlinked]
  · have hold := hr.bit q hq
    change m.bit q = true ↔ _
    by_cases hqp : q = p
    · subst hqp
      simpa using hold
    · simpa [hqp] using hold

theorem insert_refused (hr : Represents L priorityCount m r c) (hin : r.Linked t) :
    ReadyMemory.insert L priorityCount sizeMax m t = (m, false) := by
  refine if_neg ?_
  rintro ⟨-, hfree, -⟩
  rw [hr.owner_iff.2 hin] at hfree
  exact Option.some_ne_none _ hfree

theorem remove_refused (hr : Represents L priorityCount m r c) (hout : ¬ r.Linked t) :
    ReadyMemory.remove L priorityCount m t = (m, false) := by
  refine if_neg ?_
  rintro ⟨-, howner⟩
  rw [hr.samePriority] at howner
  exact hout (hr.owner_iff.1 howner)

theorem rotate_refused (hr : Represents L priorityCount m r c)
    (hfew : ¬ (p < priorityCount ∧ 1 < (r.queues p).length)) :
    ReadyMemory.rotate L priorityCount sizeMax m p = (m, false) := by
  refine if_neg ?_
  rwa [hr.count_eq]

end Represents

section start

variable [DecidableEq ι]

omit [DecidableEq τ] in
theorem lists_foldl_listInitialize (heap : Heap ι ν) (n : Nat) (i : ι) :
    ((List.range n).foldl
      (fun heap index => IntrusiveList.listInitialize heap (L.priorityQueue index)) heap).lists i =
      if ∃ p < n, i = L.priorityQueue p then ⟨none, none, 0⟩ else heap.lists i := by
  induction n with
  | zero => simp
  | succ n ih =>
    rw [List.range_succ, List.foldl_append, List.foldl_cons, List.foldl_nil,
      IntrusiveList.listInitialize, Heap.clear_lists]
    by_cases hi : i = L.priorityQueue n
    · rw [hi, Function.update_self, if_pos ⟨n, by omega, rfl⟩]
    · have hiff : (∃ p < n + 1, i = L.priorityQueue p) ↔ ∃ p < n, i = L.priorityQueue p := by
        refine ⟨?_, fun ⟨p, hp, hip⟩ => ⟨p, by omega, hip⟩⟩
        rintro ⟨p, hp, rfl⟩
        exact ⟨p, by grind, rfl⟩
      simp only [Function.update_of_ne hi, ih, hiff]

omit [DecidableEq τ] in
theorem nodes_foldl_listInitialize (heap : Heap ι ν) (l : List Nat) :
    (l.foldl (fun heap index => IntrusiveList.listInitialize heap (L.priorityQueue index))
      heap).nodes = heap.nodes := by
  induction l generalizing heap with
  | nil => rfl
  | cons a l ih => exact ih _

/-- `rts_ready_initialize` makes an empty ready set of any memory in which no list holds a node and
the lists elsewhere are empty. -/
theorem readyInitialize_represents (hnodes : ∀ n, m.heap.nodes n = ⟨none, none, none⟩)
    (hobject : ∀ t, m.object (L.readyNode t) = none)
    (hlists : ∀ i, (∀ p < priorityCount, i ≠ L.priorityQueue p) → m.heap.lists i = ⟨none, none, 0⟩)
    (hprio : ∀ t, m.priority t < priorityCount) :
    Represents L priorityCount (readyInitialize L priorityCount m) ⟨fun _ => [], m.priority⟩
      fun _ => [] where
  heap := by
    refine represents_nil (fun n => ?_) fun i => ?_
    · rw [readyInitialize, nodes_foldl_listInitialize, hnodes]
    · rw [readyInitialize, lists_foldl_listInitialize]
      split <;> rename_i hi
      · rfl
      · exact hlists i fun p hp hip => hi ⟨p, hp, hip⟩
  queue _ := rfl
  only := by simp
  inRange _ _ := rfl
  valid := hprio
  priority := by simp
  samePriority := rfl
  object t := hobject t
  bit p hp := by
    have hword : p / 32 < readyBitmapWords priorityCount := by omega
    simp [bit, readyInitialize, hword]

end start

variable [DecidableEq ι] [DecidableEq ν]

/-- One call on the memory. -/
def step (L : ReadyLayout ι ν τ) (priorityCount sizeMax : Nat) (m : ReadyMemory ι ν τ) :
    ReadyOp τ → ReadyMemory ι ν τ × ReadyReply
  | .insert t =>
    let (m', passed) := insert L priorityCount sizeMax m t
    (m', ⟨passed, none⟩)
  | .remove t =>
    let (m', passed) := remove L priorityCount m t
    (m', ⟨passed, none⟩)
  | .rotate p =>
    let (m', passed) := rotate L priorityCount sizeMax m p
    (m', ⟨passed, none⟩)
  | .priorityChanged t p =>
    let (m', passed, returned) := policyFpPriorityChanged L priorityCount sizeMax m t p
    (m', ⟨passed, some returned⟩)
  | .policyInsert t =>
    let (m', passed, returned) := policyFpInsert L priorityCount sizeMax m t
    (m', ⟨passed, some returned⟩)
  | .policyRemove t =>
    let (m', passed, returned) := policyFpRemove L priorityCount m t
    (m', ⟨passed, some returned⟩)
  | .policyYield t =>
    let (m', passed, returned) := policyFpYield L priorityCount sizeMax m t
    (m', ⟨passed, some returned⟩)

/-- The lists that are not priority queues hold what they held. -/
def SameElsewhere (L : ReadyLayout ι ν τ) (c c' : ι → List ν) : Prop :=
  ∀ i, (∀ p, i ≠ L.priorityQueue p) → c' i = c i

omit [DecidableEq τ] [DecidableEq ν] in
theorem SameElsewhere.update {c' : ι → List ν} {l : List ν} (h : SameElsewhere L c c') :
    SameElsewhere L c (Function.update c' (L.priorityQueue p) l) := by
  intro i hi
  rw [Function.update_of_ne (hi p)]
  exact h i hi

/-- The memory represents `r`, and the other lists hold what they hold in `c`. -/
def Stores (L : ReadyLayout ι ν τ) (priorityCount : Nat) (c : ι → List ν)
    (m : ReadyMemory ι ν τ) (r : ReadyQueues τ) : Prop :=
  ∃ c', Represents L priorityCount m r c' ∧ SameElsewhere L c c'

/-- Each call does to the memory what it is for, and answers so. -/
theorem step_stores [Fintype τ] (hcard : Fintype.card τ ≤ sizeMax) (op : ReadyOp τ)
    (h : Stores L priorityCount c m r) :
    Stores L priorityCount c (step L priorityCount sizeMax m op).1 (r.step priorityCount op).1 ∧
    (step L priorityCount sizeMax m op).2 = (r.step priorityCount op).2 := by
  obtain ⟨c', hr, hsame⟩ := h
  have hunchanged : Stores L priorityCount c m r := ⟨c', hr, hsame⟩
  have hcontains : ∀ t, contains L priorityCount m t = decide (r.Linked t) :=
    fun t => hr.contains_eq
  cases op with
  | insert t =>
    by_cases hlinked : r.Linked t
    · simp only [step, ReadyQueues.step, hr.insert_refused hlinked, if_pos hlinked]
      exact ⟨hunchanged, trivial⟩
    · obtain ⟨m', heq, hr'⟩ := hr.insert hlinked (hr.room_for hcard hlinked)
      simp only [step, ReadyQueues.step, heq, if_neg hlinked]
      exact ⟨⟨_, hr', hsame.update⟩, trivial⟩
  | remove t =>
    by_cases hlinked : r.Linked t
    · obtain ⟨m', heq, hr'⟩ := hr.remove hlinked
      simp only [step, ReadyQueues.step, heq, if_pos hlinked]
      exact ⟨⟨_, hr', hsame.update⟩, trivial⟩
    · simp only [step, ReadyQueues.step, hr.remove_refused hlinked, if_neg hlinked]
      exact ⟨hunchanged, trivial⟩
  | rotate p =>
    by_cases hpeer : p < priorityCount ∧ 1 < (r.queues p).length
    · obtain ⟨m', heq, hr'⟩ := hr.rotate hpeer.1 hpeer.2 (hr.room hcard p)
      simp only [step, ReadyQueues.step, heq, if_pos hpeer]
      exact ⟨⟨_, hr', hsame.update⟩, trivial⟩
    · simp only [step, ReadyQueues.step, hr.rotate_refused hpeer, if_neg hpeer]
      exact ⟨hunchanged, trivial⟩
  | priorityChanged t p =>
    by_cases hbad : p = 0 ∨ priorityCount ≤ p
    · simp only [step, policyFpPriorityChanged, ReadyQueues.step, if_pos hbad]
      exact ⟨hunchanged, trivial⟩
    by_cases hsamePriority : r.priority t = p
    · simp only [step, policyFpPriorityChanged, ReadyQueues.step, if_neg hbad, hr.samePriority,
        if_pos hsamePriority]
      exact ⟨hunchanged, trivial⟩
    have hp : p < priorityCount := by omega
    by_cases hlinked : r.Linked t
    · obtain ⟨m₁, heq₁, hr₁⟩ := hr.remove hlinked
      have hout : ¬ (r.drop t).Linked t := by
        have hgone := (hr.nodup (r.priority t)).not_mem_erase (a := t)
        simpa [ReadyQueues.Linked, ReadyQueues.drop, ReadyQueues.setQueue] using hgone
      have hr₂ := hr₁.setPriority hout hp
      have hout₂ : ¬ ((r.drop t).setPriority t p).Linked t := fun hlinked₂ =>
        hout (hr₁.linked_of_mem hlinked₂)
      obtain ⟨m₃, heq₃, hr₃⟩ := hr₂.insert hout₂ (hr₂.room_for hcard hout₂)
      have hlinked₃ : (((r.drop t).setPriority t p).push t).Linked t := by
        simp [ReadyQueues.Linked, ReadyQueues.push, ReadyQueues.setQueue]
      simp only [step, policyFpPriorityChanged, ReadyQueues.step, if_neg hbad, hr.samePriority,
        if_neg hsamePriority, hcontains, decide_eq_true hlinked, if_pos hlinked, heq₁, heq₃,
        hr₃.contains_eq, decide_eq_true hlinked₃]
      exact ⟨⟨_, hr₃, hsame.update.update⟩, rfl⟩
    · simp only [step, policyFpPriorityChanged, ReadyQueues.step, if_neg hbad,
        hr.samePriority, if_neg hsamePriority, hcontains, decide_eq_false hlinked, if_neg hlinked,
        Bool.false_eq_true, if_false]
      refine ⟨⟨c', ?_, hsame⟩, trivial⟩
      simpa [hr.samePriority] using hr.setPriority hlinked hp
  | policyInsert t =>
    by_cases hlinked : r.Linked t
    · simp only [step, policyFpInsert, ReadyQueues.step, hcontains, decide_eq_true hlinked,
        if_pos hlinked]
      exact ⟨hunchanged, rfl⟩
    · obtain ⟨m', heq, hr'⟩ := hr.insert hlinked (hr.room_for hcard hlinked)
      have hlinked' : (r.push t).Linked t := by
        simp [ReadyQueues.Linked, ReadyQueues.push, ReadyQueues.setQueue]
      simp only [step, policyFpInsert, ReadyQueues.step, hcontains, decide_eq_false hlinked,
        if_neg hlinked, Bool.false_eq_true, if_false, heq, hr'.contains_eq,
        decide_eq_true hlinked']
      exact ⟨⟨_, hr', hsame.update⟩, trivial⟩
  | policyRemove t =>
    by_cases hlinked : r.Linked t
    · obtain ⟨m', heq, hr'⟩ := hr.remove hlinked
      have hout : ¬ (r.drop t).Linked t := by
        have hgone := (hr.nodup (r.priority t)).not_mem_erase (a := t)
        simpa [ReadyQueues.Linked, ReadyQueues.drop, ReadyQueues.setQueue] using hgone
      simp only [step, policyFpRemove, ReadyQueues.step, hcontains, decide_eq_true hlinked,
        if_pos hlinked, heq, hr'.contains_eq, decide_eq_false hout]
      exact ⟨⟨_, hr', hsame.update⟩, rfl⟩
    · simp only [step, policyFpRemove, ReadyQueues.step, hcontains, decide_eq_false hlinked,
        if_neg hlinked, Bool.false_eq_true, if_false]
      exact ⟨hunchanged, trivial⟩
  | policyYield t =>
    by_cases hpeer : r.Linked t ∧ 1 < (r.queues (r.priority t)).length
    · obtain ⟨m', heq, hr'⟩ := hr.rotate (hr.valid t) hpeer.2 (hr.room hcard _)
      simp only [step, policyFpYield, ReadyQueues.step, hcontains, hr.hasPeer_eq,
        decide_eq_true hpeer.1, decide_eq_true hpeer, and_self, if_true, if_pos hpeer,
        hr.samePriority, heq]
      exact ⟨⟨_, hr', hsame.update⟩, trivial⟩
    · have hno : ¬ (decide (r.Linked t) = true ∧ hasPeer L priorityCount m t = true) := by
        rintro ⟨-, hyes⟩
        rw [hr.hasPeer_eq] at hyes
        exact hpeer (of_decide_eq_true hyes)
      simp only [step, policyFpYield, ReadyQueues.step, hcontains, if_neg hno, if_neg hpeer]
      exact ⟨hunchanged, trivial⟩

/-- Selection answers the first task of the highest non-empty sequence. -/
theorem Represents.peek (hr : Represents L priorityCount m r c) :
    (∀ p < priorityCount, r.queues p ≠ [] → (∀ q, p < q → q < priorityCount → r.queues q = []) →
      peekHighest L priorityCount m = some (r.queues p).head?) ∧
    (peekHighest L priorityCount m = some none ↔ ∀ p < priorityCount, r.queues p = []) :=
  peekHighest_of_queues (fun p hp => ⟨hr.queue_isValid p, hr.bit p (lt_bits hp)⟩)
    fun _ hp hlt => hr.stray hp hlt

/-- A call that is refused, by a check or by its membership test, writes nothing. -/
theorem step_refused [Fintype τ] (hcard : Fintype.card τ ≤ sizeMax) {op : ReadyOp τ}
    (hr : Represents L priorityCount m r c)
    (hrefused : (step L priorityCount sizeMax m op).2.passed = false ∨
      (step L priorityCount sizeMax m op).2.returned = some false) :
    (step L priorityCount sizeMax m op).1 = m := by
  obtain ⟨-, hreply⟩ := step_stores hcard op ⟨c, hr, fun _ _ => rfl⟩
  rw [hreply] at hrefused
  cases op with
  | insert t =>
    have hlinked : r.Linked t := by
      by_contra hout
      simp [ReadyQueues.step, hout] at hrefused
    simp only [step, hr.insert_refused hlinked]
  | remove t =>
    have hout : ¬ r.Linked t := by
      intro hlinked
      simp [ReadyQueues.step, hlinked] at hrefused
    simp only [step, hr.remove_refused hout]
  | rotate p =>
    have hfew : ¬ (p < priorityCount ∧ 1 < (r.queues p).length) := by
      intro hpeer
      simp [ReadyQueues.step, hpeer] at hrefused
    simp only [step, hr.rotate_refused hfew]
  | priorityChanged t p =>
    have hbad : p = 0 ∨ priorityCount ≤ p := by
      by_contra hgood
      by_cases hsame : r.priority t = p
      · simp [ReadyQueues.step, hgood, hsame] at hrefused
      · by_cases hlinked : r.Linked t
        · simp [ReadyQueues.step, hgood, hsame, hlinked] at hrefused
        · simp [ReadyQueues.step, hgood, hsame, hlinked] at hrefused
    simp only [step, policyFpPriorityChanged, if_pos hbad]
  | policyInsert t =>
    have hlinked : r.Linked t := by
      by_contra hout
      simp [ReadyQueues.step, hout] at hrefused
    have hcontains : contains L priorityCount m t = true := by
      simpa [hr.contains_eq] using hlinked
    simp only [step, policyFpInsert, if_pos hcontains]
  | policyRemove t =>
    have hout : ¬ r.Linked t := by
      intro hlinked
      simp [ReadyQueues.step, hlinked] at hrefused
    have hcontains : ¬ contains L priorityCount m t = true := by
      simpa [hr.contains_eq] using hout
    simp only [step, policyFpRemove, if_neg hcontains]
  | policyYield t =>
    have hno : ¬ (contains L priorityCount m t = true ∧ hasPeer L priorityCount m t = true) := by
      rintro ⟨-, hyes⟩
      rw [hr.hasPeer_eq] at hyes
      simp [ReadyQueues.step, of_decide_eq_true hyes] at hrefused
    simp only [step, policyFpYield, if_neg hno]

end ReadyMemory

open ReadyMemory in
/-- From every well-formed memory, every sequence of calls answers as the family of sequences does
and leaves a well-formed memory that represents it, with all other lists as they were. Selection
then answers the first task of the highest non-empty sequence, or NULL exactly when all are empty,
and a further call that is refused writes nothing. -/
theorem ready_set_refines_queues {ι ν τ : Type} [DecidableEq ι] [DecidableEq ν] [DecidableEq τ]
    [Fintype τ] (L : ReadyLayout ι ν τ) (priorityCount sizeMax : Nat)
    (hcard : Fintype.card τ ≤ sizeMax) (m : ReadyMemory ι ν τ) (r : ReadyQueues τ) (c : ι → List ν)
    (hr : Represents L priorityCount m r c) (ops : List (ReadyOp τ)) :
    let final := serve (step L priorityCount sizeMax) m ops
    let spec := serve (ReadyQueues.step priorityCount) r ops
    final.2 = spec.2 ∧
    (∃ c', Represents L priorityCount final.1 spec.1 c' ∧ SameElsewhere L c c') ∧
    (∀ p < priorityCount, spec.1.queues p ≠ [] →
      (∀ q, p < q → q < priorityCount → spec.1.queues q = []) →
      peekHighest L priorityCount final.1 = some (spec.1.queues p).head?) ∧
    (peekHighest L priorityCount final.1 = some none ↔
      ∀ p < priorityCount, spec.1.queues p = []) ∧
    ∀ op, (step L priorityCount sizeMax final.1 op).2.passed = false ∨
        (step L priorityCount sizeMax final.1 op).2.returned = some false →
      (step L priorityCount sizeMax final.1 op).1 = final.1 := by
  intro final spec
  obtain ⟨⟨c', hr', hsame⟩, hreplies⟩ :
      Stores L priorityCount c final.1 spec.1 ∧ final.2 = spec.2 :=
    serve_simulation (step_stores hcard) ⟨c, hr, fun _ _ => rfl⟩ ops
  obtain ⟨htop, hnull⟩ := hr'.peek
  exact ⟨hreplies, ⟨c', hr', hsame⟩, htop, hnull, fun _ => step_refused hcard hr'⟩

/-- Two tasks, both of priority 33, and no ready queue holds any. -/
def twoIdle : ReadyMemory Nat (Fin 2) (Fin 2) where
  heap := ⟨fun _ => ⟨none, none, none⟩, fun _ => ⟨none, none, 0⟩⟩
  object := fun _ => none
  priority := fun _ => 33
  readyBitmap := fun _ => 0

/-- The layout of `twoIdle`. -/
def twoLayout : ReadyLayout Nat (Fin 2) (Fin 2) where
  priorityQueue := id
  readyNode := id
  priorityQueue_injective := Function.injective_id
  readyNode_injective := Function.injective_id

theorem twoIdle_represents :
    ReadyMemory.Represents twoLayout 40 twoIdle ⟨fun _ => [], fun _ => 33⟩ (fun _ => []) where
  heap := represents_nil (fun _ => rfl) fun _ => rfl
  queue := fun _ => rfl
  only := by simp
  inRange := fun _ _ => rfl
  valid := fun _ => (by decide : 33 < 40)
  priority := by simp
  samePriority := rfl
  object := fun _ => rfl
  bit := fun p _ => by simp [ReadyMemory.bit, twoIdle]

/-- With forty priorities, a task moves from the second bitmap word to the first and back behind
its peer. -/
theorem ready_set_refines_queues_moved :
    let ops : List (ReadyOp (Fin 2)) := [.insert 0, .insert 1, .priorityChanged 0 7,
      .priorityChanged 0 33, .rotate 33, .insert 1]
    (serve (ReadyMemory.step twoLayout 40 2) twoIdle ops).2 =
      (serve (ReadyQueues.step 40) ⟨fun _ => [], fun _ => 33⟩ ops).2 ∧
    ReadyMemory.peekHighest twoLayout 40
      (serve (ReadyMemory.step twoLayout 40 2) twoIdle ops).1 = some (some 0) :=
  ⟨(ready_set_refines_queues twoLayout 40 2 (by decide) twoIdle _ _ twoIdle_represents _).1,
    by decide +kernel⟩

/-! ## The queues of the kernel model -/

/-- The ready queues of the kernel model as a family of sequences. -/
def Kernel.readyQueues (k : Kernel) : ReadyQueues TaskId := ⟨k.readySet, k.prio⟩

section kernel

open Halting Prog

variable {ι ν : Type} {L : ReadyLayout ι ν TaskId} {cfg : Config} {k : Kernel}
  {m : ReadyMemory ι ν TaskId} {c : ι → List ν} {t : TaskId} {p : Nat}

/-- The ready queues of the kernel model begin as the ready set in memory does: before the first
task is created, both are empty. -/
theorem policyInitialize_readyQueues [DecidableEq ι] (hpol : cfg.policy ≠ .edf)
    (hprio : m.priority = k.prio) (hrange : ∀ t, k.prio t < cfg.priorityCount)
    (hnodes : ∀ n, m.heap.nodes n = ⟨none, none, none⟩)
    (hobject : ∀ t, m.object (L.readyNode t) = none)
    (hlists : ∀ i, (∀ p < cfg.priorityCount, i ≠ L.priorityQueue p) →
      m.heap.lists i = ⟨none, none, 0⟩) :
    ReadyMemory.Represents L cfg.priorityCount (ReadyMemory.readyInitialize L cfg.priorityCount m)
      (policyInitialize cfg k).readyQueues fun _ => [] := by
  have hempty : (policyInitialize cfg k).readyQueues = ⟨fun _ => [], m.priority⟩ := by
    rw [hprio, Kernel.readyQueues, policyInitialize, if_neg hpol]
  rw [hempty]
  exact ReadyMemory.readyInitialize_represents hnodes hobject hlists fun t => hprio ▸ hrange t

theorem readyContains_iff_linked
    (hr : ReadyMemory.Represents L cfg.priorityCount m k.readyQueues c) :
    ReadyContains cfg k t ↔ k.readyQueues.Linked t :=
  and_iff_right (hr.valid t)

theorem readyLinked_iff_linked
    (hr : ReadyMemory.Represents L cfg.priorityCount m k.readyQueues c) :
    ReadyLinked cfg k t ↔ k.readyQueues.Linked t :=
  ⟨fun ⟨_, _, hmem⟩ => hr.linked_of_mem hmem, fun hlinked => ⟨k.prio t, hr.valid t, hlinked⟩⟩

theorem readyPeekHighest_readyQueues [DecidableEq ι] [DecidableEq ν]
    (hr : ReadyMemory.Represents L cfg.priorityCount m k.readyQueues c) :
    ReadyMemory.peekHighest L cfg.priorityCount m = some (readyPeekHighest cfg k) := by
  obtain ⟨htop, hnull⟩ := hr.peek
  cases hpick : readyPeekHighest cfg k with
  | none => exact hnull.2 (highestBelow_eq_none.1 hpick)
  | some t =>
    obtain ⟨p, hp, hhead, habove⟩ := highestBelow_eq_some.1 hpick
    have hne : k.readySet p ≠ [] := List.ne_nil_of_mem (List.mem_of_head? hhead)
    rw [htop p hp hne habove]
    exact congrArg some hhead

theorem policyFpInsert_readyQueues
    (hr : ReadyMemory.Represents L cfg.priorityCount m k.readyQueues c) :
    (policyFpInsert cfg t).wp
      (fun inserted k' => k.readyQueues.step cfg.priorityCount (.policyInsert t) =
        (k'.readyQueues, ⟨true, some inserted⟩)) (fun _ _ => False) k := by
  have hp : (k.tasks t).priority < cfg.priorityCount := hr.valid t
  have hcontains : ReadyContains cfg k t ↔ _ := readyContains_iff_linked hr
  have hlinked : ReadyLinked cfg k t ↔ _ := readyLinked_iff_linked hr
  rw [policyFpInsert, wp_bind, wp_readyContains hp]
  by_cases hin : k.readyQueues.Linked t
  · simp only [decide_eq_true (hcontains.2 hin), if_true, wp_pure, ReadyQueues.step, if_pos hin]
  · have hfree : (k.tasks t).priority < cfg.priorityCount ∧ ¬ ReadyLinked cfg k t :=
      ⟨hp, fun h => hin (hlinked.1 h)⟩
    simp only [decide_eq_false fun h => hin (hcontains.1 h), Bool.false_eq_true, if_false,
      readyInsert, wp_bind, wp_get, if_pos hfree, wp_modify, ReadyQueues.step, if_neg hin]
    have hafter : ReadyContains cfg (k.setReadyQueue (k.tasks t).priority
        (k.readySet (k.tasks t).priority ++ [t])) t := by
      simp [ReadyContains, Kernel.setReadyQueue, hp]
    rw [wp_readyContains hafter.1, decide_eq_true hafter]
    rfl

theorem policyFpRemove_readyQueues
    (hr : ReadyMemory.Represents L cfg.priorityCount m k.readyQueues c) :
    (policyFpRemove cfg t).wp
      (fun removed k' => k.readyQueues.step cfg.priorityCount (.policyRemove t) =
        (k'.readyQueues, ⟨true, some removed⟩)) (fun _ _ => False) k := by
  have hp : (k.tasks t).priority < cfg.priorityCount := hr.valid t
  have hcontains : ReadyContains cfg k t ↔ _ := readyContains_iff_linked hr
  rw [policyFpRemove, wp_bind, wp_readyContains hp]
  by_cases hin : k.readyQueues.Linked t
  · simp only [decide_eq_true (hcontains.2 hin), Bool.true_eq_false, if_false, readyRemove, wp_bind,
      wp_get, if_pos (hcontains.2 hin), wp_modify, ReadyQueues.step, if_pos hin]
    have hgone : ¬ ReadyContains cfg (k.setReadyQueue (k.tasks t).priority
        ((k.readySet (k.tasks t).priority).erase t)) t := by
      have hout : t ∉ (k.readySet (k.tasks t).priority).erase t :=
        (hr.nodup (k.tasks t).priority).not_mem_erase
      rintro ⟨-, hmem⟩
      exact hout (by simpa [Kernel.setReadyQueue] using hmem)
    rw [wp_readyContains (by simpa using hp), wp_pure, decide_eq_false hgone]
    rfl
  · simp only [decide_eq_false fun h => hin (hcontains.1 h), if_true, wp_pure, ReadyQueues.step,
      if_neg hin]

theorem policyFpYield_readyQueues
    (hr : ReadyMemory.Represents L cfg.priorityCount m k.readyQueues c) :
    (policyFpYield cfg t).wp
      (fun yielded k' => k.readyQueues.step cfg.priorityCount (.policyYield t) =
        (k'.readyQueues, ⟨true, some yielded⟩)) (fun _ _ => False) k := by
  have hpeer : ReadyHasPeer cfg k t ↔
      k.readyQueues.Linked t ∧ 1 < (k.readyQueues.queues (k.readyQueues.priority t)).length :=
    and_congr (readyContains_iff_linked hr) Iff.rfl
  have hp : (k.tasks t).priority < cfg.priorityCount := hr.valid t
  rw [policyFpYield, wp_bind, wp_readyContains hp]
  by_cases hin : ReadyHasPeer cfg k t
  · obtain ⟨a, b, l, hl⟩ : ∃ a b l, k.readySet (k.tasks t).priority = a :: b :: l := by
      have hlength := hin.2
      cases hq : k.readySet (k.tasks t).priority with
      | nil => simp [hq] at hlength
      | cons a l =>
        cases l with
        | nil => simp [hq] at hlength
        | cons b l => exact ⟨a, b, l, rfl⟩
    simp only [decide_eq_true hin.1, Bool.true_eq_false, if_false, wp_bind, wp_readyHasPeer hin.1,
      decide_eq_true hin, wp_get, readyRotate, hl, if_pos hp, wp_modify, wp_pure, ReadyQueues.step,
      if_pos (hpeer.1 hin)]
    have hturn : (k.readySet (k.tasks t).priority).rotate 1 = b :: l ++ [a] := by
      rw [hl, List.rotate_cons_succ, List.rotate_zero]
    refine Prod.ext ?_ rfl
    change k.readyQueues.setQueue (k.tasks t).priority
      ((k.readySet (k.tasks t).priority).rotate 1) = _
    rw [hturn]
    rfl
  · simp only [ReadyQueues.step, if_neg fun h => hin (hpeer.2 h)]
    by_cases hlinked : ReadyContains cfg k t
    · simp only [decide_eq_true hlinked, Bool.true_eq_false, if_false, wp_bind,
        wp_readyHasPeer hlinked, decide_eq_false hin, if_true, wp_pure]
    · simp only [decide_eq_false hlinked, if_true, wp_pure]

theorem Kernel.readyQueues_updateTask_priority :
    (k.updateTask t fun task => { task with priority := p }).readyQueues =
      k.readyQueues.setPriority t p := by
  have hprio : (k.updateTask t fun task => { task with priority := p }).prio =
      Function.update k.prio t p := by
    funext u
    by_cases hu : u = t
    · simp [Kernel.prio, hu]
    · simp [Kernel.prio, hu]
  exact congrArg (ReadyQueues.mk k.readySet) hprio

theorem policyFpPriorityChanged_readyQueues
    (hr : ReadyMemory.Represents L cfg.priorityCount m k.readyQueues c) :
    (policyFpPriorityChanged cfg t p).wp
      (fun changed k' => k.readyQueues.step cfg.priorityCount (.priorityChanged t p) =
        (k'.readyQueues, ⟨true, some changed⟩)) (fun _ _ => False) k := by
  have hcontains : ReadyContains cfg k t ↔ _ := readyContains_iff_linked hr
  by_cases hbad : p = 0 ∨ cfg.priorityCount ≤ p
  · simp only [policyFpPriorityChanged, wp_bind, wp_get, if_pos hbad, wp_pure, ReadyQueues.step]
  by_cases hsame : (k.tasks t).priority = p
  · have hsame' : k.readyQueues.priority t = p := hsame
    simp only [policyFpPriorityChanged, wp_bind, wp_get, if_neg hbad, if_pos hsame, wp_pure,
      ReadyQueues.step, if_pos hsame']
  have hsame' : ¬ k.readyQueues.priority t = p := hsame
  simp only [policyFpPriorityChanged, wp_bind, wp_get, if_neg hbad, if_neg hsame]
  rw [wp_readyContains (hr.valid t)]
  by_cases hin : k.readyQueues.Linked t
  · have hp : p < cfg.priorityCount := by omega
    -- between the removal and the insertion the task is in no queue
    have hfree : ∀ q, t ∉ (k.setReadyQueue (k.tasks t).priority
        ((k.readySet (k.tasks t).priority).erase t)).readySet q := by
      intro q hmem
      by_cases hq : q = (k.tasks t).priority
      · have hout : t ∉ (k.readySet (k.tasks t).priority).erase t :=
          (hr.nodup (k.tasks t).priority).not_mem_erase
        exact hout (by simpa [Kernel.setReadyQueue, hq] using hmem)
      · have hmem' : t ∈ k.readySet q := by simpa [Kernel.setReadyQueue, hq] using hmem
        exact hq (hr.priority q t hmem').symm
    simp only [decide_eq_true (hcontains.2 hin), if_true, wp_bind, readyRemove, wp_get,
      if_pos (hcontains.2 hin), wp_modify, readyInsert]
    have hunlinked : ¬ ∃ q, q < cfg.priorityCount ∧ t ∈ (k.setReadyQueue (k.tasks t).priority
        ((k.readySet (k.tasks t).priority).erase t)).readySet q := by
      rintro ⟨q, -, hmem⟩
      exact hfree q hmem
    rw [if_pos ⟨by simpa using hp, hunlinked⟩]
    rw [wp_modify, wp_readyContains (by simpa using hp)]
    simp only [ReadyQueues.step, if_neg hbad, if_neg hsame', if_pos hin]
    have hmoved : ((k.setReadyQueue (k.tasks t).priority
        ((k.readySet (k.tasks t).priority).erase t)).updateTask t
          fun task => { task with priority := p }).readyQueues =
        (k.readyQueues.drop t).setPriority t p := Kernel.readyQueues_updateTask_priority
    refine Prod.ext ?_ ?_
    · rw [← hmoved]
      rfl
    · simp [ReadyContains, Kernel.setReadyQueue, hp]
  · simp only [decide_eq_false fun h => hin (hcontains.1 h), Bool.false_eq_true, if_false, wp_bind,
      wp_modify, wp_pure, ReadyQueues.step, if_neg hbad, if_neg hsame', if_neg hin,
      Kernel.readyQueues_updateTask_priority]

end kernel

end RtsKernel
