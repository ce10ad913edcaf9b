import RtsKernel.Library.Transition
import RtsKernel.Model.Queues
import RtsKernel.Model.Rings

/-!
# The callback ring is a bounded FIFO and the trace ring holds the latest events

The arrays of `Model.Rings` against what they stand for: a list of pending callbacks with its
high-water mark, and the sequence of all events emitted since the last reset.

## Main results

- `callback_ring_refines_fifo`: from every valid ring whose other slots are zeroed, every sequence
  of calls answers as the bounded FIFO does and leaves such a ring.
- `timerCallbackQueueEnqueue_ring`, `timerCallbackQueueDequeue_ring`,
  `timerCallbackQueueRemoveTimer_ring`: the list operations of the kernel model are what the ring
  does.
- `trace_holds_latest`: after any number of events the trace shows the latest of them.
-/

namespace RtsKernel

open Transition

/-! ## Callback ring -/

/-- The calls on a callback queue. -/
inductive RingOp where
  | enqueue (work : RingWork)
  | dequeue
  | removeTimer (timer : Option Nat)
  deriving DecidableEq, Repr

/-- What a call on a callback queue answers. -/
inductive RingAnswer where
  | enqueued (stored : Bool)
  | dequeued (work : Option RingWork)
  | removed (count : Nat)
  deriving DecidableEq, Repr

/-- A bounded queue: its members, oldest first, and the most it ever held. -/
structure BoundedFifo where
  members : List RingWork
  deepest : Nat

/-- What the callback queue is for. -/
def BoundedFifo.step (capacity : Nat) (f : BoundedFifo) : RingOp → BoundedFifo × RingAnswer
  | .enqueue work =>
    if work.timer ≠ none ∧ f.members.length < capacity then
      (⟨f.members ++ [work], max f.deepest (f.members.length + 1)⟩, .enqueued true)
    else (f, .enqueued false)
  | .dequeue => (⟨f.members.tail, f.deepest⟩, .dequeued f.members.head?)
  | .removeTimer none => (f, .removed 0)
  | .removeTimer (some t) =>
    (⟨f.members.filter (·.timer ≠ some t), f.deepest⟩,
      .removed (f.members.countP (·.timer = some t)))

namespace CallbackRing

open Ring Halting Prog

variable {capacity : Nat} {q : CallbackRing} {f : BoundedFifo} {i j timer : Nat}

/-- One call on the ring. -/
def step (capacity : Nat) (q : CallbackRing) : RingOp → CallbackRing × RingAnswer
  | .enqueue work => ((enqueue capacity q work).1, .enqueued (enqueue capacity q work).2)
  | .dequeue => ((dequeue capacity q).1, .dequeued (dequeue capacity q).2)
  | .removeTimer t => ((removeTimer capacity q t).1, .removed (removeTimer capacity q t).2)

/-- The queue the ring stands for: its live slots from the head on. -/
def fifo (capacity : Nat) (q : CallbackRing) : BoundedFifo where
  members := (List.range q.count).map fun j => q.items (slot capacity q.head j)
  deepest := q.maximumDepth

/-- Every slot outside the live range is zeroed. -/
def Zeroed (capacity : Nat) (q : CallbackRing) : Prop :=
  ∀ i < capacity, (∀ j < q.count, slot capacity q.head j ≠ i) → q.items i = {}

instance : Decidable (q.Zeroed capacity) :=
  inferInstanceAs (Decidable (∀ i < capacity, _ → _))

/-- The ring stands for `f`, and its other slots are zeroed. -/
structure Represents (capacity : Nat) (q : CallbackRing) (f : BoundedFifo) : Prop where
  head_lt : q.head < capacity
  holds : Holds capacity q.head q.items {} f.members
  count_eq : q.count = f.members.length
  tail_eq : q.tail = slot capacity q.head f.members.length
  named : ∀ w ∈ f.members, w.timer ≠ none
  depth_eq : q.maximumDepth = f.deepest
  length_le : f.members.length ≤ f.deepest
  deepest_le : f.deepest ≤ capacity

theorem next_slot {head : Nat} (hc : 0 < capacity) :
    next capacity (slot capacity head i) = slot capacity head (i + 1) := by
  rw [← slot_slot, slot_one (slot_lt hc)]
  rfl

/-- The walk of the validator over `n` slots ends `n` slots further, when all of them name a
timer. -/
theorem walk_eq_some (hc : 0 < capacity) {stop n : Nat} :
    walk capacity q n (slot capacity q.head i) = some stop ↔
      stop = slot capacity q.head (i + n) ∧
      ∀ j, i ≤ j → j < i + n → (q.items (slot capacity q.head j)).timer ≠ none := by
  induction n generalizing i with
  | zero => grind [walk]
  | succ n ih =>
    have hrest := ih (i := i + 1)
    rw [← next_slot hc] at hrest
    grind [walk]

/-- What the validator accepts. -/
theorem validate_iff :
    q.validate capacity = true ↔
      q.head < capacity ∧ q.count ≤ q.maximumDepth ∧ q.maximumDepth ≤ capacity ∧
      q.tail = slot capacity q.head q.count ∧
      ∀ j < q.count, (q.items (slot capacity q.head j)).timer ≠ none := by
  by_cases hh : q.head < capacity
  · have hc : 0 < capacity := by omega
    have hwalk : walk capacity q q.count (slot capacity q.head 0) = some q.tail ↔ _ :=
      walk_eq_some hc
    rw [slot_zero hh, Nat.zero_add] at hwalk
    have htail : slot capacity q.head q.count < capacity := slot_lt hc
    grind [validate]
  · grind [validate]

namespace Represents

theorem length_le_capacity (h : Represents capacity q f) : f.members.length ≤ capacity :=
  h.length_le.trans h.deepest_le

theorem pos (h : Represents capacity q f) : 0 < capacity := Nat.zero_lt_of_lt h.head_lt

/-- The live slots hold the members. -/
theorem items_eq (h : Represents capacity q f) (hj : j < f.members.length) :
    q.items (slot capacity q.head j) = f.members[j] := by
  rw [h.holds j (by have := h.length_le_capacity; omega), List.getElem?_eq_getElem hj]
  rfl

theorem fifo_eq (h : Represents capacity q f) : q.fifo capacity = f := by
  obtain ⟨members, deepest⟩ := f
  have hmembers : (q.fifo capacity).members = members := by
    refine List.ext_getElem (by simp [fifo, h.count_eq]) fun j _ hj => ?_
    simpa [fifo] using h.items_eq hj
  have hdeepest : (q.fifo capacity).deepest = deepest := h.depth_eq
  rw [← hmembers, ← hdeepest]

theorem valid (h : Represents capacity q f) : q.validate capacity = true := by
  refine validate_iff.2 ⟨h.head_lt, ?_, ?_, ?_, fun j hj => ?_⟩
  · rw [h.count_eq, h.depth_eq]
    exact h.length_le
  · rw [h.depth_eq]
    exact h.deepest_le
  · rw [h.tail_eq, h.count_eq]
  · rw [h.count_eq] at hj
    rw [h.items_eq hj]
    exact h.named _ (List.getElem_mem hj)

theorem zeroed (h : Represents capacity q f) : q.Zeroed capacity := by
  intro i hi hout
  rw [h.count_eq] at hout
  exact h.holds.blank_outside h.head_lt hi hout

end Represents

/-- A valid ring with zeroed slots stands for the queue of its live slots. -/
theorem represents_fifo (hvalid : q.validate capacity = true) (hzero : q.Zeroed capacity) :
    Represents capacity q (q.fifo capacity) := by
  obtain ⟨hhead, hdepth, hle, htail, hnamed⟩ := validate_iff.1 hvalid
  refine ⟨hhead, fun j hj => ?_, by simp [fifo], by simpa [fifo] using htail, ?_, rfl,
    by simpa [fifo] using hdepth, hle⟩
  · by_cases hlt : j < q.count
    · simp [fifo, hlt]
    · have hout : ∀ i < q.count, slot capacity q.head i ≠ slot capacity q.head j := by
        intro i hi heq
        have := slot_inj (by omega) hj heq
        omega
      rw [hzero _ (slot_lt (by omega)) hout, List.getElem?_eq_none (by simp [fifo]; omega)]
      rfl
  · simpa [fifo] using hnamed

/-! ### Enqueue and dequeue -/

theorem enqueue_represents (h : Represents capacity q f) (work : RingWork) :
    Represents capacity (step capacity q (.enqueue work)).1
      (f.step capacity (.enqueue work)).1 ∧
    (step capacity q (.enqueue work)).2 = (f.step capacity (.enqueue work)).2 := by
  by_cases hok : work.timer ≠ none ∧ f.members.length < capacity
  · obtain ⟨htimer, hroom⟩ := hok
    have hstep : enqueue capacity q work =
        ({ items := Function.update q.items (slot capacity q.head f.members.length) work
           head := q.head
           tail := slot capacity q.head (f.members.length + 1)
           count := f.members.length + 1
           maximumDepth := max f.deepest (f.members.length + 1) }, true) := by
      rw [enqueue, if_neg (by rw [h.count_eq]; grind), h.tail_eq, next_slot h.pos, h.count_eq,
        h.depth_eq]
      congr 2
      grind
    simp only [step, BoundedFifo.step, hstep, if_pos (And.intro htimer hroom), and_true]
    refine ⟨h.head_lt, h.holds.push hroom, by simp, by simp, ?_, rfl, ?_, ?_⟩
    · intro w hw
      obtain hw | hw := List.mem_append.1 hw
      · exact h.named w hw
      · rwa [List.mem_singleton.1 hw]
    · simp
    · exact max_le h.deepest_le hroom
  · have hstep : enqueue capacity q work = (q, false) := if_pos (by rw [h.count_eq]; grind)
    simp only [step, BoundedFifo.step, hstep, if_neg hok, and_true]
    exact h

theorem dequeue_represents (h : Represents capacity q f) :
    Represents capacity (step capacity q .dequeue).1 (f.step capacity .dequeue).1 ∧
    (step capacity q .dequeue).2 = (f.step capacity .dequeue).2 := by
  obtain ⟨_ | ⟨work, rest⟩, deepest⟩ := f
  · have hstep : dequeue capacity q = (q, none) := if_pos (by simp [h.count_eq])
    simp only [step, BoundedFifo.step, hstep]
    exact ⟨h, rfl⟩
  · have hlen : rest.length < capacity := h.length_le_capacity
    obtain ⟨hitem, hrest⟩ := h.holds.pop hlen h.head_lt
    have hnext : next capacity q.head = slot capacity q.head 1 := by
      rw [slot_one h.head_lt]
      rfl
    have hcount : q.count = rest.length + 1 := h.count_eq
    have hstep : dequeue capacity q =
        ({ q with
           items := Function.update q.items q.head {}
           head := slot capacity q.head 1
           count := rest.length }, some work) := by
      rw [dequeue, if_neg (by omega), hnext, hitem, hcount]
      rfl
    simp only [step, BoundedFifo.step, hstep]
    refine ⟨⟨slot_lt h.pos, hrest, rfl, ?_, fun w hw => ?_, h.depth_eq, ?_, h.deepest_le⟩, rfl⟩
    · rw [h.tail_eq, slot_slot, Nat.add_comm]
      rfl
    · exact h.named w (List.mem_cons_of_mem _ hw)
    · exact (Nat.le_succ _).trans h.length_le

/-! ### Removing a timer's items -/

/-- The compaction loop over the members `rest` that stand from offset `i` on, after `kept` has been
written from the head on: the read cursor is never behind the write cursor, so each member is read
before it is overwritten. Slots past the original members are not touched. -/
theorem compact_spec (head : Nat) (rest kept : List RingWork) (items : Nat → RingWork)
    (removed : Nat) (hc : 0 < capacity) (hkept : kept.length ≤ i)
    (hroom : i + rest.length ≤ capacity) (hshows : Shows capacity head items kept)
    (hrest : ∀ j (hj : j < rest.length), items (slot capacity head (i + j)) = rest[j]) :
    ∃ items' read,
      compact capacity timer rest.length
          ⟨items, slot capacity head i, slot capacity head kept.length, kept.length, removed⟩ =
        ⟨items', read,
          slot capacity head (kept ++ rest.filter (·.timer ≠ some timer)).length,
          (kept ++ rest.filter (·.timer ≠ some timer)).length,
          removed + rest.countP (·.timer = some timer)⟩ ∧
      Shows capacity head items' (kept ++ rest.filter (·.timer ≠ some timer)) ∧
      ∀ j, i + rest.length ≤ j → j < capacity →
        items' (slot capacity head j) = items (slot capacity head j) := by
  induction rest generalizing i kept items removed with
  | nil => exact ⟨items, slot capacity head i, by simp [compact], by simpa using hshows,
      fun _ _ _ => rfl⟩
  | cons work rest ih =>
    have hlen : (work :: rest).length = rest.length + 1 := rfl
    have hread : items (slot capacity head i) = work := hrest 0 (by simp)
    have hnext : ∀ j (hj : j < rest.length), items (slot capacity head (i + 1 + j)) = rest[j] := by
      intro j hj
      rw [Nat.add_assoc, Nat.add_comm 1 j]
      exact hrest (j + 1) (by omega)
    by_cases hmatch : work.timer = some timer
    · obtain ⟨items', read, heq, hshows', hsame⟩ :=
        ih kept items (removed + 1) (i := i + 1) (by omega) (by omega) hshows hnext
      have hfilter : (work :: rest).filter (·.timer ≠ some timer) =
          rest.filter (·.timer ≠ some timer) := by simp [hmatch]
      have hcount : removed + (work :: rest).countP (·.timer = some timer) =
          removed + 1 + rest.countP (·.timer = some timer) := by
        simp [hmatch]
        omega
      rw [hfilter, hcount]
      refine ⟨items', read, ?_, hshows', fun j hj => hsame j (by omega)⟩
      rw [hlen, compact]
      simp only [hread, if_pos hmatch, next_slot hc]
      exact heq
    · have hslot : kept.length < capacity := by omega
      have hrest' : ∀ j (hj : j < rest.length),
          Function.update items (slot capacity head kept.length) work
            (slot capacity head (i + 1 + j)) = rest[j] := by
        intro j hj
        rw [update_slot hslot (by omega), if_neg (by omega)]
        exact hnext j hj
      obtain ⟨items', read, heq, hshows', hsame⟩ :=
        ih (kept ++ [work]) _ removed (i := i + 1) (by simpa using hkept)
          (by omega) (hshows.push hslot) hrest'
      have hfilter : (work :: rest).filter (·.timer ≠ some timer) =
          work :: rest.filter (·.timer ≠ some timer) := by simp [hmatch]
      have hcount : (work :: rest).countP (·.timer = some timer) =
          rest.countP (·.timer = some timer) := by simp [hmatch]
      rw [hfilter, hcount, List.append_cons]
      refine ⟨items', read, ?_, hshows', fun j hj hjc => ?_⟩
      · rw [hlen, compact]
        simp only [hread, if_neg hmatch, next_slot hc]
        simpa using heq
      · rw [hsame j (by omega) hjc, update_slot hslot hjc, if_neg (by omega)]

/-- The clearing loop zeroes the slots it passes and no others. -/
theorem clear_slot {head n : Nat} {items : Nat → RingWork} (hc : 0 < capacity)
    (hroom : i + n ≤ capacity) (hj : j < capacity) :
    clear capacity n items (slot capacity head i) (slot capacity head j) =
      if i ≤ j ∧ j < i + n then {} else items (slot capacity head j) := by
  induction n generalizing i items with
  | zero =>
    rw [if_neg (by omega)]
    rfl
  | succ n ih =>
    rw [clear, next_slot hc, ih (by omega), update_slot (by omega) hj]
    grind

theorem removeTimer_represents (h : Represents capacity q f) (t : Option Nat) :
    Represents capacity (step capacity q (.removeTimer t)).1
      (f.step capacity (.removeTimer t)).1 ∧
    (step capacity q (.removeTimer t)).2 = (f.step capacity (.removeTimer t)).2 := by
  obtain _ | timer := t
  · exact ⟨h, rfl⟩
  have hcap := h.length_le_capacity
  obtain ⟨items', read, hcompact, hshows, hsame⟩ :=
    compact_spec (i := 0) q.head f.members [] q.items 0 h.pos le_rfl (by omega)
      (fun _ hj => by simp at hj) (fun j hj => by simpa using h.items_eq hj)
  simp only [List.length_nil, slot_zero h.head_lt, List.nil_append, Nat.zero_add] at hcompact hshows
  simp only [Nat.zero_add] at hsame
  -- the members that stay, and how many they are at most
  generalize hl : f.members.filter (·.timer ≠ some timer) = l at hcompact hshows
  have hle : l.length ≤ f.members.length := hl ▸ List.length_filter_le _ _
  have hstep : removeTimer capacity q (some timer) =
      ({ q with
         items := clear capacity (f.members.length - l.length) items'
           (slot capacity q.head l.length)
         tail := slot capacity q.head l.length
         count := l.length }, f.members.countP (·.timer = some timer)) := by
    rw [removeTimer, h.count_eq, hcompact]
  simp only [step, BoundedFifo.step, hstep, hl, and_true]
  refine ⟨h.head_lt, fun j hj => ?_, rfl, rfl, fun w hw => ?_, h.depth_eq, hle.trans h.length_le,
    h.deepest_le⟩
  · change clear _ _ _ _ (slot capacity q.head j) = l[j]?.getD {}
    rw [clear_slot h.pos (by omega) hj]
    split
    · rw [List.getElem?_eq_none (by omega)]
      rfl
    · by_cases hlt : j < l.length
      · rw [hshows j hlt, List.getElem?_eq_getElem hlt]
        rfl
      · rw [hsame j (by omega) hj, h.holds j hj, List.getElem?_eq_none (by omega),
          List.getElem?_eq_none (by omega)]
  · exact h.named w (List.mem_of_mem_filter (hl ▸ hw))

theorem step_represents (op : RingOp) (h : Represents capacity q f) :
    Represents capacity (step capacity q op).1 (f.step capacity op).1 ∧
    (step capacity q op).2 = (f.step capacity op).2 := by
  cases op with
  | enqueue work => exact enqueue_represents h work
  | dequeue => exact dequeue_represents h
  | removeTimer t => exact removeTimer_represents h t

/-! ### The list of the kernel model -/

/-- A work item as the ring stores it. -/
def entry (work : CallbackWork) : RingWork :=
  ⟨some work.timer, work.expirationTick, work.generation, work.sequence⟩

/-- The callback queue of the kernel model, as a queue of stored items. -/
def pending (k : Kernel) : BoundedFifo := ⟨k.callbackQueue.map entry, k.callbackQueueMaximumDepth⟩

variable {cfg : Config} {k : Kernel}

theorem timerCallbackQueueEnqueue_ring
    (h : Represents cfg.timerCallbackQueueCapacity q (pending k)) (work : CallbackWork) :
    (timerCallbackQueueEnqueue cfg work).wp
      (fun stored k' =>
        Represents cfg.timerCallbackQueueCapacity
          (enqueue cfg.timerCallbackQueueCapacity q (entry work)).1 (pending k') ∧
        (enqueue cfg.timerCallbackQueueCapacity q (entry work)).2 = stored)
      (fun _ _ => False) k := by
  obtain ⟨hrep, hans⟩ := enqueue_represents h (entry work)
  by_cases hfull : cfg.timerCallbackQueueCapacity ≤ k.callbackQueue.length
  · have hfifo : (pending k).step cfg.timerCallbackQueueCapacity (.enqueue (entry work)) =
        (pending k, .enqueued false) := if_neg (by simp [pending]; omega)
    rw [hfifo] at hrep hans
    simp only [timerCallbackQueueEnqueue, wp_bind, wp_get, if_pos hfull, wp_pure]
    exact ⟨hrep, RingAnswer.enqueued.inj hans⟩
  · have hfifo : (pending k).step cfg.timerCallbackQueueCapacity (.enqueue (entry work)) =
        (⟨k.callbackQueue.map entry ++ [entry work],
          max k.callbackQueueMaximumDepth (k.callbackQueue.length + 1)⟩, .enqueued true) := by
      simp only [pending, BoundedFifo.step, List.length_map]
      exact if_pos ⟨Option.some_ne_none _, by omega⟩
    rw [hfifo] at hrep hans
    simp only [timerCallbackQueueEnqueue, wp_bind, wp_get, if_neg hfull, wp_modify, wp_pure]
    refine ⟨?_, RingAnswer.enqueued.inj hans⟩
    simpa [pending, step] using hrep

theorem timerCallbackQueueDequeue_ring
    (h : Represents cfg.timerCallbackQueueCapacity q (pending k)) :
    timerCallbackQueueDequeue.wp
      (fun work k' =>
        Represents cfg.timerCallbackQueueCapacity
          (dequeue cfg.timerCallbackQueueCapacity q).1 (pending k') ∧
        (dequeue cfg.timerCallbackQueueCapacity q).2 = work.map entry)
      (fun _ _ => False) k := by
  obtain ⟨hrep, hans⟩ := dequeue_represents h
  have hans' := RingAnswer.dequeued.inj hans
  cases hqueue : k.callbackQueue with
  | nil =>
    simp only [timerCallbackQueueDequeue, wp_bind, wp_get, hqueue, wp_pure]
    refine ⟨?_, by simpa [pending, hqueue] using hans'⟩
    simpa [BoundedFifo.step, step, pending, hqueue] using hrep
  | cons work rest =>
    simp only [timerCallbackQueueDequeue, wp_bind, wp_get, hqueue, wp_modify, wp_pure]
    refine ⟨?_, by simpa [pending, hqueue] using hans'⟩
    simpa [BoundedFifo.step, step, pending, hqueue] using hrep

theorem timerCallbackQueueRemoveTimer_ring
    (h : Represents cfg.timerCallbackQueueCapacity q (pending k)) (i : Nat) :
    (timerCallbackQueueRemoveTimer i).wp
      (fun removed k' =>
        Represents cfg.timerCallbackQueueCapacity
          (removeTimer cfg.timerCallbackQueueCapacity q (some i)).1 (pending k') ∧
        (removeTimer cfg.timerCallbackQueueCapacity q (some i)).2 = removed)
      (fun _ _ => False) k := by
  obtain ⟨hrep, hans⟩ := removeTimer_represents h (some i)
  have hans' := RingAnswer.removed.inj hans
  simp only [timerCallbackQueueRemoveTimer, wp_bind, wp_get, wp_modify, wp_pure]
  refine ⟨?_, ?_⟩
  · simpa [BoundedFifo.step, step, pending, entry, List.filter_map, Function.comp_def] using hrep
  · rw [hans']
    simp [pending, timerCallbackQueueCountFor, entry, List.countP_map, Function.comp_def]

theorem countFrom_eq (timer count : Nat) (h : Represents capacity q f) {rounds : Nat}
    (hroom : i + rounds = f.members.length) :
    countFrom capacity q timer rounds (slot capacity q.head i) count =
      count + (f.members.drop i).countP (·.timer = some timer) := by
  induction rounds generalizing i count with
  | zero =>
    rw [List.drop_eq_nil_of_le (by omega)]
    rfl
  | succ rounds ih =>
    have hi : i < f.members.length := by omega
    rw [countFrom, next_slot h.pos, ih _ (by omega), h.items_eq hi, List.drop_eq_getElem_cons hi,
      List.countP_cons]
    grind

theorem timerCallbackQueueCountFor_ring
    (h : Represents cfg.timerCallbackQueueCapacity q (pending k)) (i : Nat) :
    countFor cfg.timerCallbackQueueCapacity q (some i) = timerCallbackQueueCountFor k i := by
  have hcount := countFrom_eq i 0 h (Nat.zero_add _)
  rw [slot_zero h.head_lt] at hcount
  rw [countFor, h.count_eq, hcount]
  simp [pending, timerCallbackQueueCountFor, entry, List.countP_map, Function.comp_def]

end CallbackRing

open CallbackRing in
/-- Every sequence of calls on a ring, from any head position, answers as the bounded queue of its
live slots does, and leaves a ring that stands for that queue: valid, with the high-water mark of
the queue, and zeroed in every other slot. -/
theorem callback_ring_refines_fifo (capacity : Nat) (q : CallbackRing)
    (hvalid : q.validate capacity = true) (hzero : q.Zeroed capacity) (ops : List RingOp) :
    let final := serve (step capacity) q ops
    serve (BoundedFifo.step capacity) (q.fifo capacity) ops = (final.1.fifo capacity, final.2) ∧
    final.1.validate capacity = true ∧ final.1.Zeroed capacity := by
  obtain ⟨hrep, hans⟩ :=
    serve_simulation step_represents (represents_fifo hvalid hzero) ops
  exact ⟨Prod.ext hrep.fifo_eq.symm hans.symm, hrep.valid, hrep.zeroed⟩

/-- A full ring whose live range starts in its last slot. -/
def wrappedRing : CallbackRing where
  items := fun i => [⟨some 1, 7, 0, 2⟩, ⟨some 0, 9, 0, 3⟩, ⟨some 0, 5, 0, 1⟩].getD i {}
  head := 2
  tail := 2
  count := 3
  maximumDepth := 3

open CallbackRing in
/-- In a full wrapped ring the first and the last of three items go, and the one between them
stays at the head. -/
theorem callback_ring_refines_fifo_wrapped :
    (serve (step 3) wrappedRing [.removeTimer (some 0), .dequeue]).2 =
      [.removed 2, .dequeued (some ⟨some 1, 7, 0, 2⟩)] ∧
    serve (BoundedFifo.step 3) (wrappedRing.fifo 3) [.removeTimer (some 0), .dequeue] =
      ((serve (step 3) wrappedRing [.removeTimer (some 0), .dequeue]).1.fifo 3,
        (serve (step 3) wrappedRing [.removeTimer (some 0), .dequeue]).2) :=
  ⟨by decide +kernel,
    (callback_ring_refines_fifo 3 wrappedRing (by decide +kernel) (by decide +kernel) _).1⟩

/-! ## Trace ring -/

/-- A count that stops at `UINT32_MAX`. -/
def saturated (n : Nat) : Tick := BitVec.ofNat 32 (min n (2 ^ 32 - 1))

theorem diagnosticCounterIncrement_saturated (n : Nat) :
    diagnosticCounterIncrement (saturated n) = saturated (n + 1) := by
  obtain hlt | hge := Nat.lt_or_ge n (2 ^ 32 - 1)
  · have hne : saturated n ≠ BitVec.allOnes 32 := by
      intro heq
      have hval := congrArg BitVec.toNat heq
      simp [saturated] at hval
      omega
    rw [diagnosticCounterIncrement, if_neg hne, saturated, saturated, min_eq_left hlt.le,
      min_eq_left hlt, BitVec.ofNat_add]
    rfl
  · rw [diagnosticCounterIncrement, saturated, saturated, min_eq_right hge,
      min_eq_right (by omega)]
    rfl

/-- An emission as event number `n` of the trace. -/
def Emission.entry {address : Type} (e : Emission address) (n : Nat) : TraceEntry address :=
  ⟨saturated n, e.tick, e.arg0, e.arg1, e.event⟩

namespace TraceRing

open Ring

variable {address : Type} {capacity : Nat} {r : TraceRing address}

/-- All events emitted, numbered from one. -/
def log (es : List (Emission address)) : List (TraceEntry address) :=
  es.mapIdx fun i e => e.entry (i + 1)

/-- The ring after the events `es`: full once there have been `capacity` of them, and showing the
latest from its head on. -/
structure After (capacity : Nat) (r : TraceRing address) (es : List (Emission address)) : Prop where
  head_lt : r.head < capacity
  used_eq : r.used = min es.length capacity
  sequence_eq : r.sequence = saturated es.length
  overwrites_eq : r.overwrites = saturated (es.length - r.used)
  shows : Shows capacity r.head r.buffer ((log es).drop (es.length - r.used))

theorem log_concat (es : List (Emission address)) (e : Emission address) :
    log (es ++ [e]) = log es ++ [e.entry (es.length + 1)] := by
  simp [log, List.mapIdx_append]

theorem After.emit {es : List (Emission address)} (h : After capacity r es)
    (e : Emission address) : After capacity (r.emit capacity e) (es ++ [e]) := by
  have hc : 0 < capacity := Nat.zero_lt_of_lt h.head_lt
  have hlog : (log es).length = es.length := by simp [log]
  have hused := h.used_eq
  have hseq : diagnosticCounterIncrement r.sequence = saturated (es.length + 1) := by
    rw [h.sequence_eq, diagnosticCounterIncrement_saturated]
  have hentry : (⟨diagnosticCounterIncrement r.sequence, e.tick, e.arg0, e.arg1, e.event⟩ :
      TraceEntry address) = e.entry (es.length + 1) := by rw [hseq]; rfl
  obtain hfill | hfull := Nat.lt_or_ge r.used capacity
  · -- filling: everything emitted so far is still there
    have hall : r.used = es.length := by omega
    have hshows : Shows capacity r.head r.buffer (log es) := by simpa [hall] using h.shows
    have hover : r.overwrites = saturated 0 := by simpa [hall] using h.overwrites_eq
    simp only [TraceRing.emit, if_pos hfill, hentry]
    refine ⟨h.head_lt, ?_, ?_, ?_, ?_⟩
    · simp only [List.length_append, List.length_singleton]
      omega
    · simpa using hseq
    · simpa [hall] using hover
    · rw [log_concat]
      have hpush := hshows.push (a := e.entry (es.length + 1)) (by omega)
      simpa [hall, hlog, slot] using hpush
  · -- full: the oldest event gives way
    have hcap : r.used = capacity := by omega
    have hlen : ((log es).drop (es.length - r.used)).length = capacity := by
      rw [List.length_drop, hlog]
      omega
    have hgone : es.length + 1 - r.used = es.length - r.used + 1 := by omega
    simp only [TraceRing.emit, if_neg (Nat.not_lt.2 hfull), hentry]
    refine ⟨Nat.mod_lt _ hc, ?_, ?_, ?_, ?_⟩
    · simp only [List.length_append, List.length_singleton]
      omega
    · simpa using hseq
    · simp only [List.length_append, List.length_singleton]
      rw [hgone, ← diagnosticCounterIncrement_saturated, ← h.overwrites_eq]
    · have hrot := h.shows.rotate (a := e.entry (es.length + 1)) hlen h.head_lt
      rw [log_concat]
      simp only [List.length_append, List.length_singleton]
      rw [hgone, List.drop_append_of_le_length (by omega)]
      simpa [slot] using hrot

theorem after_foldl (hc : 0 < capacity) (r : TraceRing address) (es : List (Emission address)) :
    After capacity (es.foldl (TraceRing.emit capacity) r.reset) es := by
  induction es using List.reverseRecOn with
  | nil =>
    exact ⟨hc, (Nat.zero_min _).symm, rfl, rfl, fun j hj => absurd hj (Nat.not_lt_zero j)⟩
  | append_singleton es e ih =>
    rw [List.foldl_append]
    exact ih.emit e

end TraceRing

/-- After any number `n` of events since the reset, the trace counts the latest `min n capacity`
of them, reads exactly those, oldest first, each with its own number, tick and arguments, and has
counted all the others as overwritten. -/
theorem trace_holds_latest {address : Type} (capacity : Nat) (hc : 1 ≤ capacity)
    (r : TraceRing address) (es : List (Emission address)) :
    let trace := es.foldl (TraceRing.emit capacity) r.reset
    let first := es.length - trace.count
    trace.count = min es.length capacity ∧
    (∀ i, (trace.read capacity i).isSome ↔ i < trace.count) ∧
    (∀ i < trace.count, ∃ e, es[first + i]? = some e ∧
      trace.read capacity i = some (e.entry (first + i + 1))) ∧
    trace.overwriteCount = saturated first := by
  intro trace first
  have hafter : TraceRing.After capacity trace es := TraceRing.after_foldl hc r es
  have hused : trace.used = min es.length capacity := hafter.used_eq
  refine ⟨hused, fun i => ?_, fun i hi => ?_, hafter.overwrites_eq⟩
  · grind [TraceRing.read, TraceRing.count]
  · have hi' : i < trace.used := hi
    have hfirst : first = es.length - trace.used := rfl
    have hlen : first + i < es.length := by omega
    refine ⟨es[first + i], List.getElem?_eq_getElem hlen, ?_⟩
    have hshow := hafter.shows i (by simp [TraceRing.log]; omega)
    rw [TraceRing.read, if_neg (Nat.not_le.2 hi')]
    simpa [TraceRing.log, Ring.slot, hfirst] using hshow

/-- Five events in a trace of two: the last two are read, and three were overwritten. -/
theorem trace_holds_latest_overwritten :
    (let trace := ([1, 2, 3, 4, 5].map fun t => (⟨t, .tick, (), ()⟩ : Emission Unit)).foldl
        (TraceRing.emit 2) (TraceRing.reset ⟨fun _ => ⟨0, 0, (), (), .fatal⟩, 1, 2, 9, 7⟩)
     trace.overwriteCount = 3 ∧ (trace.read 2 0).map (·.tick) = some 4 ∧
      trace.count = min 5 2) :=
  ⟨by decide +kernel, by decide +kernel, (trace_holds_latest 2 (by decide) _ _).1⟩

end RtsKernel
