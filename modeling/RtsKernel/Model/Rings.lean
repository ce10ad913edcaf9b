import RtsKernel.Library.Ring
import RtsKernel.Model.Types

/-!
# The callback ring and the trace ring

`timer_callback_queue.c` and `trace.c` at the level of their arrays and cursors. The kernel model
keeps the callback queue as a list; what follows is the array behind it. Pointers to the ring itself
and to a result are not NULL at any call, so only the NULL checks of data are modelled.
-/

namespace RtsKernel

/-! ## Callback ring -/

/-- `rts_timer_callback_work_t`, with the timer's pointer; `{}` is the zeroed slot. -/
structure RingWork where
  timer : Option Nat := none
  expirationTick : Tick := 0
  generation : Tick := 0
  sequence : Tick := 0
  deriving DecidableEq, Repr

/-- `rts_timer_callback_queue_t`. -/
structure CallbackRing where
  items : Nat → RingWork
  head : Nat
  tail : Nat
  count : Nat
  maximumDepth : Nat

namespace CallbackRing

variable (capacity : Nat)

/-- `rts_timer_callback_queue_next`. -/
def next (index : Nat) : Nat := if index + 1 = capacity then 0 else index + 1

/-- `rts_timer_callback_queue_initialize`. -/
def initialized : CallbackRing where
  items := fun _ => {}
  head := 0
  tail := 0
  count := 0
  maximumDepth := 0

/-- `rts_timer_callback_queue_enqueue`. -/
def enqueue (q : CallbackRing) (work : RingWork) : CallbackRing × Bool :=
  if work.timer = none ∨ capacity ≤ q.count then (q, false)
  else
    ({ items := Function.update q.items q.tail work
       head := q.head
       tail := next capacity q.tail
       count := q.count + 1
       maximumDepth := if q.maximumDepth < q.count + 1 then q.count + 1 else q.maximumDepth }, true)

/-- `rts_timer_callback_queue_dequeue`. -/
def dequeue (q : CallbackRing) : CallbackRing × Option RingWork :=
  if q.count = 0 then (q, none)
  else
    ({ q with
       items := Function.update q.items q.head {}
       head := next capacity q.head
       count := q.count - 1 }, some (q.items q.head))

/-- The variables of the first loop of `rts_timer_callback_queue_remove_timer`. -/
structure Compaction where
  items : Nat → RingWork
  readIndex : Nat
  writeIndex : Nat
  kept : Nat
  removed : Nat

/-- The first loop of `rts_timer_callback_queue_remove_timer`, for its remaining rounds. -/
def compact (timer : Nat) : Nat → Compaction → Compaction
  | 0, c => c
  | rounds + 1, c =>
    let work := c.items c.readIndex
    if work.timer = some timer then
      compact timer rounds
        { c with readIndex := next capacity c.readIndex, removed := c.removed + 1 }
    else
      compact timer rounds
        { c with
          items := Function.update c.items c.writeIndex work
          readIndex := next capacity c.readIndex
          writeIndex := next capacity c.writeIndex
          kept := c.kept + 1 }

/-- The second loop of `rts_timer_callback_queue_remove_timer`, for its remaining rounds. -/
def clear : Nat → (Nat → RingWork) → Nat → Nat → RingWork
  | 0, items, _ => items
  | rounds + 1, items, writeIndex =>
    clear rounds (Function.update items writeIndex {}) (next capacity writeIndex)

/-- `rts_timer_callback_queue_remove_timer`. -/
def removeTimer (q : CallbackRing) : Option Nat → CallbackRing × Nat
  | none => (q, 0)
  | some timer =>
    let c := compact capacity timer q.count ⟨q.items, q.head, q.head, 0, 0⟩
    ({ q with
       items := clear capacity (q.count - c.kept) c.items c.writeIndex
       tail := c.writeIndex
       count := c.kept }, c.removed)

/-- The loop of `rts_timer_callback_queue_count_for`. -/
def countFrom (q : CallbackRing) (timer : Nat) : Nat → Nat → Nat → Nat
  | 0, _, count => count
  | rounds + 1, index, count =>
    countFrom q timer rounds (next capacity index)
      (if (q.items index).timer = some timer then count + 1 else count)

/-- `rts_timer_callback_queue_count_for`. -/
def countFor (q : CallbackRing) : Option Nat → Nat
  | none => 0
  | some timer => countFrom capacity q timer q.count q.head 0

/-- The loop of `rts_timer_callback_queue_validate`; `none` when a live slot names no timer. -/
def walk (q : CallbackRing) : Nat → Nat → Option Nat
  | 0, index => some index
  | rounds + 1, index =>
    if (q.items index).timer = none then none else walk q rounds (next capacity index)

/-- `rts_timer_callback_queue_validate`. -/
def validate (q : CallbackRing) : Bool :=
  if capacity ≤ q.head ∨ capacity ≤ q.tail ∨ capacity < q.count ∨ q.maximumDepth < q.count ∨
      capacity < q.maximumDepth then false
  else walk capacity q q.count q.head = some q.tail

end CallbackRing

/-! ## Trace ring -/

/-- `rts_trace_event_t`. -/
inductive TraceEvent where
  | taskCreated | schedulerStarted | taskSwitched | taskBlocked | taskWoke | yield | semaphore
  | mutex | priority | tick | fatal | timerInitialized | timerStarted | timerStopped
  | timerRestarted | timerExpired | timerCallbackBegin | timerCallbackEnd | timerStaleCallback
  | timerOverrun | sleepEnter | sleepExit | sleepAbort
  deriving DecidableEq, Repr

/-- `rts_trace_entry_t`; `address` is the type of `uintptr_t`. -/
structure TraceEntry (address : Type) where
  sequence : Tick
  tick : Tick
  argument0 : address
  argument1 : address
  event : TraceEvent
  deriving DecidableEq, Repr

/-- The static variables of `trace.c`. -/
structure TraceRing (address : Type) where
  buffer : Nat → TraceEntry address
  head : Nat
  used : Nat
  sequence : Tick
  overwrites : Tick

/-- One call of `rts_trace_emit`, with the tick the kernel stands at. -/
structure Emission (address : Type) where
  tick : Tick
  event : TraceEvent
  arg0 : address
  arg1 : address
  deriving DecidableEq, Repr

namespace TraceRing

variable {address : Type} (capacity : Nat)

/-- `rts_trace_reset_for_test`: the buffer keeps what it held. -/
def reset (r : TraceRing address) : TraceRing address :=
  { r with head := 0, used := 0, sequence := 0, overwrites := 0 }

/-- `rts_trace_emit`. -/
def emit (r : TraceRing address) (e : Emission address) : TraceRing address :=
  let sequence := diagnosticCounterIncrement r.sequence
  let entry : TraceEntry address := ⟨sequence, e.tick, e.arg0, e.arg1, e.event⟩
  if r.used < capacity then
    { r with
      buffer := Function.update r.buffer ((r.head + r.used) % capacity) entry
      used := r.used + 1
      sequence := sequence }
  else
    { r with
      buffer := Function.update r.buffer r.head entry
      head := (r.head + 1) % capacity
      sequence := sequence
      overwrites := diagnosticCounterIncrement r.overwrites }

/-- `rts_trace_count`. -/
def count (r : TraceRing address) : Nat := r.used

/-- `rts_trace_overwrite_count`. -/
def overwriteCount (r : TraceRing address) : Tick := r.overwrites

/-- `rts_trace_read`. -/
def read (r : TraceRing address) (oldestIndex : Nat) : Option (TraceEntry address) :=
  if r.used ≤ oldestIndex then none
  else some (r.buffer ((r.head + oldestIndex) % capacity))

end TraceRing

end RtsKernel
