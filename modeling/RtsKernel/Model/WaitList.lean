import RtsKernel.Library.LinkedHeap
import RtsKernel.Model.Types

/-!
# Wait lists in memory

`wait_object.c` at the level of its pointers: the `wait_node` of each task and the head, tail and
count of each wait list. The kernel model keeps the wait lists as sequences. Priorities are read and
never written here, so they are a parameter.
-/

namespace RtsKernel

open Halting Prog DoublyLinked

/-- The wait lists of all semaphores and mutexes, and the wait nodes of all tasks. -/
abbrev WaitHeap := Heap WaitObject TaskId

namespace WaitHeap

variable (cfg : Config) (prio : TaskId → Nat)

/-- `RTS_ASSERT` in `wait_object.c`. -/
def rtsAssert (c : Prop) [Decidable c] : Prog Fatal WaitHeap Unit :=
  check (.assertion .waitObject) (cfg.enableAssertions = true → c)

/-- `RTS_FATAL_UNLESS` in `wait_object.c`. -/
def fatalUnless (c : Prop) [Decidable c] : Prog Fatal WaitHeap Unit :=
  check (.assertion .waitObject) c

/-- `rts_wait_object_initialize`. -/
def objectInitialize (o : WaitObject) : Prog Fatal WaitHeap Unit := modify fun h => h.clear o

/-- `rts_wait_node_is_unlinked`. -/
def NodeIsUnlinked (h : WaitHeap) (t : TaskId) : Prop :=
  (h.nodes t).previous = none ∧ (h.nodes t).next = none ∧ (h.nodes t).owner = none

instance (h : WaitHeap) (t : TaskId) : Decidable (NodeIsUnlinked h t) :=
  inferInstanceAs (Decidable (_ ∧ _ ∧ _))

/-- The loop of `rts_wait_object_validate`: `none` when a task is wrong, otherwise `task`,
`previous` and `count` as the loop leaves them. -/
def walk (h : WaitHeap) (o : WaitObject) (task previous : Option TaskId) (count : Nat) :
    Option (Option TaskId × Option TaskId × Nat) :=
  match task with
  | none => some (none, previous, count)
  | some t =>
    if count ≤ cfg.maxTasks then
      if (h.nodes t).owner ≠ some o ∨ (h.nodes t).previous ≠ previous ∨
          ∃ p ∈ previous, prio p < prio t then none
      else walk h o (h.nodes t).next (some t) (count + 1)
    else some (some t, previous, count)
termination_by cfg.maxTasks + 1 - count

/-- `rts_wait_object_validate`. -/
def Validate (h : WaitHeap) (o : WaitObject) : Prop :=
  ((h.lists o).head = none ↔ (h.lists o).tail = none) ∧
  ∃ result ∈ walk cfg prio h o (h.lists o).head none 0,
    result.1 = none ∧ result.2.1 = (h.lists o).tail ∧ result.2.2 = (h.lists o).count ∧
      result.2.2 ≤ cfg.maxTasks

instance (h : WaitHeap) (o : WaitObject) : Decidable (Validate cfg prio h o) :=
  inferInstanceAs (Decidable (_ ∧ _))

/-- The loop of `rts_wait_object_insert` that looks for the position. It runs on a list that has
been validated, so `RTS_MAX_TASKS` rounds are enough. -/
def position (h : WaitHeap) (priority : Nat) : Nat → Option TaskId → Option TaskId
  | 0, task => task
  | _ + 1, none => none
  | rounds + 1, some t =>
    if priority ≤ prio t then position h priority rounds (h.nodes t).next else some t

/-- `previous` in `rts_wait_object_insert`: the task in front of the position. -/
def predecessor (h : WaitHeap) (o : WaitObject) : Option TaskId → Option TaskId
  | none => (h.lists o).tail
  | some position => (h.nodes position).previous

/-- `rts_wait_object_insert`. -/
def insert (o : WaitObject) (t : TaskId) : Prog Fatal WaitHeap Unit := do
  let h ← get
  rtsAssert cfg (Validate cfg prio h o)
  rtsAssert cfg (NodeIsUnlinked h t)
  rtsAssert cfg ((h.lists o).count < cfg.maxTasks)
  if ¬ Validate cfg prio h o ∨ ¬ NodeIsUnlinked h t ∨ cfg.maxTasks ≤ (h.lists o).count then pure ()
  else do
    let next := position prio h (prio t) cfg.maxTasks (h.lists o).head
    modify fun h => h.link o (predecessor h o next) t next
    let h ← get
    fatalUnless (Validate cfg prio h o)

/-- `rts_wait_object_remove`. The source rewrites the links before it checks the count; a failure of
that check stops the system. -/
def remove (o : WaitObject) (t : TaskId) : Prog Fatal WaitHeap Unit := do
  let h ← get
  rtsAssert cfg ((h.nodes t).owner = some o)
  if (h.nodes t).owner ≠ some o then pure ()
  else do
    fatalUnless (0 < (h.lists o).count)
    modify fun h => h.unlink o t
    let h ← get
    fatalUnless (Validate cfg prio h o)

/-- `rts_wait_object_reprioritize`. -/
def reprioritize (o : WaitObject) (t : TaskId) : Prog Fatal WaitHeap Unit := do
  let h ← get
  rtsAssert cfg ((h.nodes t).owner = some o)
  if (h.nodes t).owner ≠ some o then pure ()
  else do
    remove cfg prio o t
    insert cfg prio o t

end WaitHeap

end RtsKernel
