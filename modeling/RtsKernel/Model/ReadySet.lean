import RtsKernel.Library.LinkedHeap
import Mathlib.Data.List.Range

/-!
# The ready set in memory

`intrusive_list.c`, `ready_queue.c` and the fixed priority plugin at the level of pointers and
bitmap words; the kernel model keeps the ready queues as sequences. A function that checks its
arguments answers whether every check held, and returns early, with nothing written since, where the
source does. An address is a member of an abstract type: `ι` for the lists, `ν` for the list nodes,
`τ` for the task control blocks.
-/

namespace RtsKernel

open DoublyLinked

/-! ## Intrusive lists -/

namespace IntrusiveList

variable {ι ν : Type} [DecidableEq ι] [DecidableEq ν]

/-- `rts_list_initialize`. -/
def listInitialize (h : Heap ι ν) (list : ι) : Heap ι ν := h.clear list

/-- `rts_list_endpoints_are_valid`. -/
def endpointsAreValid (h : Heap ι ν) (list : ι) : Bool :=
  if (h.lists list).count = 0 then (h.lists list).head = none ∧ (h.lists list).tail = none
  else
    match (h.lists list).head, (h.lists list).tail with
    | some head, some tail =>
      (h.nodes head).previous = none ∧ (h.nodes tail).next = none ∧
        (h.nodes head).owner = some list ∧ (h.nodes tail).owner = some list
    | _, _ => false

/-- `rts_list_push_back`; `sizeMax` is `SIZE_MAX`. -/
def pushBack (sizeMax : Nat) (h : Heap ι ν) (list : ι) (node : ν) : Heap ι ν × Bool :=
  if endpointsAreValid h list ∧ (h.nodes node).owner = none ∧ (h.nodes node).previous = none ∧
      (h.nodes node).next = none ∧ (h.lists list).count < sizeMax then
    let h' := h.link list (h.lists list).tail node none
    (h', endpointsAreValid h' list)
  else (h, false)

/-- The check of `rts_list_insert_before` and `rts_list_remove` on the node before `node`. -/
def PreviousAgrees (h : Heap ι ν) (list : ι) (node : ν) : Prop :=
  match (h.nodes node).previous with
  | none => (h.lists list).head = some node
  | some previous =>
    (h.nodes previous).owner = some list ∧ (h.nodes previous).next = some node

instance (h : Heap ι ν) (list : ι) (node : ν) : Decidable (PreviousAgrees h list node) := by
  unfold PreviousAgrees
  split <;> infer_instance

/-- The check of `rts_list_remove` on the node after `node`. -/
def NextAgrees (h : Heap ι ν) (list : ι) (node : ν) : Prop :=
  match (h.nodes node).next with
  | none => (h.lists list).tail = some node
  | some next => (h.nodes next).owner = some list ∧ (h.nodes next).previous = some node

instance (h : Heap ι ν) (list : ι) (node : ν) : Decidable (NextAgrees h list node) := by
  unfold NextAgrees
  split <;> infer_instance

/-- `rts_list_insert_before`. -/
def insertBefore (sizeMax : Nat) (h : Heap ι ν) (list : ι) (position node : ν) :
    Heap ι ν × Bool :=
  if endpointsAreValid h list ∧ (h.nodes position).owner = some list ∧
      (h.nodes node).owner = none ∧ (h.nodes node).previous = none ∧ (h.nodes node).next = none ∧
      (h.lists list).count < sizeMax ∧ PreviousAgrees h list position then
    let h' := h.link list (h.nodes position).previous node (some position)
    (h', endpointsAreValid h' list)
  else (h, false)

/-- `rts_list_remove`. -/
def remove (h : Heap ι ν) (list : ι) (node : ν) : Heap ι ν × Bool :=
  if endpointsAreValid h list ∧ (h.nodes node).owner = some list ∧ 0 < (h.lists list).count ∧
      PreviousAgrees h list node ∧ NextAgrees h list node then
    let h' := h.unlink list node
    (h', endpointsAreValid h' list)
  else (h, false)

end IntrusiveList

/-! ## Ready set -/

/-- Where the parts of a ready set are: the address of each `priority_queue[p]` and of each task's
`ready_node`. Different array elements and different tasks have different addresses. -/
structure ReadyLayout (ι ν τ : Type) where
  priorityQueue : Nat → ι
  readyNode : τ → ν
  priorityQueue_injective : Function.Injective priorityQueue
  readyNode_injective : Function.Injective readyNode

/-- The memory that the functions of `ready_queue.c` read: all lists and list nodes, the `object`
pointer of each node, the priority of each task and the words of `ready_bitmap`. -/
structure ReadyMemory (ι ν τ : Type) where
  heap : Heap ι ν
  object : ν → Option τ
  priority : τ → Nat
  readyBitmap : Nat → BitVec 32

/-- `RTS_READY_BITMAP_WORDS`. -/
def readyBitmapWords (priorityCount : Nat) : Nat := (priorityCount + 32 - 1) / 32

/-- `rts_ready_bit_mask`. -/
def readyBitMask (priority : Nat) : BitVec 32 := 1#32 <<< (priority % 32)

namespace ReadyMemory

variable {ι ν τ : Type} [DecidableEq ι] [DecidableEq ν] [DecidableEq τ]
  (L : ReadyLayout ι ν τ) (priorityCount : Nat)

/-- `rts_ready_initialize`. -/
def readyInitialize (m : ReadyMemory ι ν τ) : ReadyMemory ι ν τ :=
  { m with
    heap := (List.range priorityCount).foldl
      (fun heap index => IntrusiveList.listInitialize heap (L.priorityQueue index)) m.heap
    readyBitmap := fun index =>
      if index < readyBitmapWords priorityCount then 0 else m.readyBitmap index }

/-- `rts_ready_insert`. -/
def insert (sizeMax : Nat) (m : ReadyMemory ι ν τ) (t : τ) : ReadyMemory ι ν τ × Bool :=
  let node := L.readyNode t
  let p := m.priority t
  if p < priorityCount ∧ (m.heap.nodes node).owner = none ∧ (m.heap.nodes node).previous = none ∧
      (m.heap.nodes node).next = none ∧ m.object node = none then
    let (heap, passed) := IntrusiveList.pushBack sizeMax m.heap (L.priorityQueue p) node
    if (heap.nodes node).owner ≠ some (L.priorityQueue p) then
      ({ m with heap := heap, object := Function.update m.object node none }, false)
    else
      ({ m with
         heap := heap
         object := Function.update m.object node (some t)
         readyBitmap := Function.update m.readyBitmap (p / 32)
           (m.readyBitmap (p / 32) ||| readyBitMask p) }, passed)
  else (m, false)

/-- `rts_ready_remove`. -/
def remove (m : ReadyMemory ι ν τ) (t : τ) : ReadyMemory ι ν τ × Bool :=
  let node := L.readyNode t
  let p := m.priority t
  if p < priorityCount ∧ (m.heap.nodes node).owner = some (L.priorityQueue p) then
    let (heap, passed) := IntrusiveList.remove m.heap (L.priorityQueue p) node
    if (heap.nodes node).owner ≠ none then ({ m with heap := heap }, false)
    else
      ({ m with
         heap := heap
         object := Function.update m.object node none
         readyBitmap :=
           if (heap.lists (L.priorityQueue p)).count = 0 then
             Function.update m.readyBitmap (p / 32)
               (m.readyBitmap (p / 32) &&& ~~~readyBitMask p)
           else m.readyBitmap }, passed)
  else (m, false)

/-- The checks of `rts_ready_peek_highest` on the queue of a set bit, and the task at its head;
`none` when a check fails. -/
def peekQueue (m : ReadyMemory ι ν τ) (priority : Nat) : Option τ :=
  if priority < priorityCount ∧ 0 < (m.heap.lists (L.priorityQueue priority)).count then
    match (m.heap.lists (L.priorityQueue priority)).head with
    | none => none
    | some head =>
      if (m.heap.nodes head).owner = some (L.priorityQueue priority) then
        match m.object head with
        | none => none
        | some task =>
          if L.readyNode task = head ∧ m.priority task = priority then some task else none
      else none
  else none

/-- The inner loop of `rts_ready_peek_highest`, over the bits below `bitIndex`. The answer is
`none` when a check fails and `some none` when no bit is set. -/
def peekBits (m : ReadyMemory ι ν τ) (wordIndex : Nat) : Nat → Option (Option τ)
  | 0 => some none
  | bitIndex + 1 =>
    if m.readyBitmap wordIndex &&& (1#32 <<< bitIndex) = 0 then peekBits m wordIndex bitIndex
    else (peekQueue L priorityCount m (wordIndex * 32 + bitIndex)).map some

/-- The outer loop of `rts_ready_peek_highest`, over the words below `wordIndex`. -/
def peekWords (m : ReadyMemory ι ν τ) : Nat → Option (Option τ)
  | 0 => some none
  | wordIndex + 1 =>
    if m.readyBitmap wordIndex = 0 then peekWords m wordIndex
    else
      match peekBits L priorityCount m wordIndex 32 with
      | some none => peekWords m wordIndex
      | answer => answer

/-- `rts_ready_peek_highest`: `none` when a check fails, otherwise the returned pointer. -/
def peekHighest (m : ReadyMemory ι ν τ) : Option (Option τ) :=
  peekWords L priorityCount m (readyBitmapWords priorityCount)

/-- `rts_ready_has_peer`; a failed check answers `false`. -/
def hasPeer (m : ReadyMemory ι ν τ) (t : τ) : Bool :=
  m.priority t < priorityCount ∧
    (m.heap.nodes (L.readyNode t)).owner = some (L.priorityQueue (m.priority t)) ∧
    1 < (m.heap.lists (L.priorityQueue (m.priority t))).count

/-- `rts_ready_contains`; a failed check answers `false`. -/
def contains (m : ReadyMemory ι ν τ) (t : τ) : Bool :=
  m.priority t < priorityCount ∧
    (m.heap.nodes (L.readyNode t)).owner = some (L.priorityQueue (m.priority t))

/-- `rts_ready_rotate`. -/
def rotate (sizeMax : Nat) (m : ReadyMemory ι ν τ) (priority : Nat) : ReadyMemory ι ν τ × Bool :=
  let queue := L.priorityQueue priority
  if priority < priorityCount ∧ 1 < (m.heap.lists queue).count then
    match (m.heap.lists queue).head with
    | none => (m, false)
    | some front =>
      let (heap₁, passed₁) := IntrusiveList.remove m.heap queue front
      if (heap₁.nodes front).owner ≠ none then ({ m with heap := heap₁ }, false)
      else
        let (heap₂, passed₂) := IntrusiveList.pushBack sizeMax heap₁ queue front
        if (heap₂.nodes front).owner ≠ some queue then ({ m with heap := heap₂ }, false)
        else ({ m with heap := heap₂ }, passed₁ && passed₂)
  else (m, false)

/-- The loop of `rts_ready_validate` over one queue: `none` when a node is wrong, otherwise `node`,
`previous` and `count` as the loop leaves them. -/
def walkQueue (capacity : Nat) (m : ReadyMemory ι ν τ) (priority : Nat) (node previous : Option ν)
    (count : Nat) : Option (Option ν × Option ν × Nat) :=
  match node with
  | none => some (none, previous, count)
  | some n =>
    if count ≤ capacity then
      if (m.heap.nodes n).owner = some (L.priorityQueue priority) ∧
          (m.heap.nodes n).previous = previous ∧
          ∃ task ∈ m.object n, L.readyNode task = n ∧ m.priority task = priority then
        walkQueue capacity m priority (m.heap.nodes n).next (some n) (count + 1)
      else none
    else some (some n, previous, count)
termination_by capacity + 1 - count

/-- The body of the loop of `rts_ready_validate`; `capacity` is `RTS_SCHEDULABLE_TASK_CAPACITY`. -/
def queueIsValid (capacity : Nat) (m : ReadyMemory ι ν τ) (priority : Nat) : Bool :=
  let queue := m.heap.lists (L.priorityQueue priority)
  let bit := m.readyBitmap (priority / 32) &&& (1#32 <<< (priority % 32)) ≠ 0
  match walkQueue L capacity m priority queue.head none 0 with
  | none => false
  | some (node, previous, count) =>
    node = none ∧ count = queue.count ∧ previous = queue.tail ∧ (bit ↔ count ≠ 0)

/-- `rts_ready_validate`. -/
def validate (capacity : Nat) (m : ReadyMemory ι ν τ) : Bool :=
  (List.range priorityCount).all (queueIsValid L capacity m)

/-! ## Fixed priority plugin -/

/-- `rts_policy_fp_insert`: whether every check held, and the value returned. -/
def policyFpInsert (sizeMax : Nat) (m : ReadyMemory ι ν τ) (t : τ) :
    ReadyMemory ι ν τ × Bool × Bool :=
  if contains L priorityCount m t then (m, true, false)
  else
    let (m', passed) := insert L priorityCount sizeMax m t
    (m', passed, contains L priorityCount m' t)

/-- `rts_policy_fp_remove`. -/
def policyFpRemove (m : ReadyMemory ι ν τ) (t : τ) : ReadyMemory ι ν τ × Bool × Bool :=
  if contains L priorityCount m t then
    let (m', passed) := remove L priorityCount m t
    (m', passed, !contains L priorityCount m' t)
  else (m, true, false)

/-- `rts_policy_fp_yield`. -/
def policyFpYield (sizeMax : Nat) (m : ReadyMemory ι ν τ) (t : τ) :
    ReadyMemory ι ν τ × Bool × Bool :=
  if contains L priorityCount m t ∧ hasPeer L priorityCount m t then
    let (m', passed) := rotate L priorityCount sizeMax m (m.priority t)
    (m', passed, true)
  else (m, true, false)

/-- `rts_policy_fp_priority_changed`; `RTS_IDLE_PRIORITY` is zero. -/
def policyFpPriorityChanged (sizeMax : Nat) (m : ReadyMemory ι ν τ) (t : τ)
    (effectivePriority : Nat) : ReadyMemory ι ν τ × Bool × Bool :=
  if effectivePriority = 0 ∨ priorityCount ≤ effectivePriority then (m, true, false)
  else if m.priority t = effectivePriority then (m, true, true)
  else if contains L priorityCount m t then
    let (m₁, passed₁) := remove L priorityCount m t
    let m₂ := { m₁ with priority := Function.update m₁.priority t effectivePriority }
    let (m₃, passed₃) := insert L priorityCount sizeMax m₂ t
    (m₃, passed₁ && passed₃, contains L priorityCount m₃ t)
  else ({ m with priority := Function.update m.priority t effectivePriority }, true, true)

end ReadyMemory

end RtsKernel
