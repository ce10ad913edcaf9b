import RtsKernel.Operation.Effect

/-!
# The outline of the state

The clock, the accounting of processor time, the time slices and the priority queues, the
identities, deadlines and release numbers of the tasks with the list of the deadline policy, and the
work of the timer service are written in few places. They are the outline of the state: an
assignment of the kernel lies outside it or is one of the moves below. A property of the outline is
a frame, and the classes say which of the moves it absorbs.

## Main definitions

* `Core`, `Roster`, `Errand`: the three parts of the `Outline`.
* `IgnoresCore`, `IgnoresRoster`, `IgnoresErrand`: the frames that concern the other parts only.
* `Absorbs`, `AbsorbsRemovals`, `AbsorbsReleases`, `AbsorbsStates`, `AbsorbsWork`,
  `AbsorbsAccounts`: the frames that survive a move.
* `Turns`: what a turn of the current task leads to.
-/

namespace RtsKernel

open Halting Prog

/-! ## Processor time and the priority queues -/

/-- The lifecycle, the clock and what the accounting of processor time reads. -/
structure Ledger where
  lifecycle : Lifecycle
  now : Tick
  current : Option TaskId
  elapsed : Tick
  credited : TaskId → Tick
  started : TaskId → Tick

def Kernel.ledger (k : Kernel) : Ledger where
  lifecycle := k.lifecycle
  now := k.currentTick
  current := k.currentTask
  elapsed := k.counters.schedulerTicks
  credited t := (k.tasks t).diagnosticRunningTicks
  started t := (k.tasks t).diagnosticLastStartTick

/-- The ledger, the time slices and the priority queues. -/
structure Core where
  ledger : Ledger
  slot : TaskId → SlotState
  slice : TaskId → Tick
  ready : Nat → List TaskId

def Kernel.core (k : Kernel) : Core where
  ledger := k.ledger
  slot t := (k.tasks t).slotState
  slice t := (k.tasks t).sliceRemaining
  ready := k.readySet

/-- The clock has moved. -/
def Ledger.advance (L : Ledger) (elapsed : Tick) : Ledger :=
  { L with now := L.now + elapsed, elapsed := diagnosticCounterAdd L.elapsed elapsed }

@[simp] theorem Ledger.advance_zero (L : Ledger) : L.advance 0#32 = L := by
  simp [Ledger.advance, diagnosticCounterAdd]

namespace Core

def setSlice (t : TaskId) (slice : Tick) (C : Core) : Core :=
  { C with slice := Function.update C.slice t slice }

def setQueue (p : Nat) (l : List TaskId) (C : Core) : Core :=
  { C with ready := Function.update C.ready p l }

end Core

/-! ## Identities, deadlines and release numbers -/

/-- What a task is created with and keeps. -/
structure Profile where
  slotState : SlotState
  entry : Nat
  stackLow : Nat
  stackHigh : Nat
  period : Tick
  relativeDeadline : Tick
  executionBudget : Tick

def Tcb.profile (task : Tcb) : Profile where
  slotState := task.slotState
  entry := task.entry
  stackLow := task.stackLow
  stackHigh := task.stackHigh
  period := task.period
  relativeDeadline := task.relativeDeadline
  executionBudget := task.executionBudget

/-- The identities of the tasks and what the deadline policy decides by. -/
structure Roster where
  profile : TaskId → Profile
  created : Nat
  now : Tick
  last : Tick
  idle : Option TaskId
  deadline : TaskId → Tick
  number : TaskId → Tick
  ready : List TaskId

def Kernel.roster (k : Kernel) : Roster where
  profile t := (k.tasks t).profile
  created := k.allocatedCount
  now := k.currentTick
  last := k.policyReleaseSequence
  idle := k.idleTask
  deadline t := (k.tasks t).absoluteDeadline
  number t := (k.tasks t).releaseSequence
  ready := k.edfReady

namespace Roster

/-- The order of `rts_policy_edf_is_before`. -/
def Before (R : Roster) (t u : TaskId) : Prop :=
  R.idle ≠ some t ∧
  (R.idle = some u ∨
    if R.deadline t ≠ R.deadline u then tickBefore (R.deadline t) (R.deadline u)
    else R.number t ≠ R.number u ∧ tickBefore (R.number t) (R.number u))

instance (R : Roster) : DecidableRel R.Before := fun a b => by
  delta Before
  infer_instance

/-- The deadline of a release at this time. -/
def due (R : Roster) (t : TaskId) : Tick :=
  if (R.profile t).relativeDeadline = 0 then R.now else R.now + (R.profile t).relativeDeadline

/-- The task gets the next release number. -/
def renumber (R : Roster) (t : TaskId) : Roster :=
  { R with
    last := nextReleaseSequence R.last
    number := Function.update R.number t (nextReleaseSequence R.last) }

/-- The task is released: a number and a deadline. -/
def record (R : Roster) (t : TaskId) : Roster :=
  { R.renumber t with deadline := Function.update R.deadline t (R.due t) }

/-- The task is put at its place. -/
def place (R : Roster) (t : TaskId) : Roster :=
  { R with ready := R.ready.orderedInsert R.Before t }

def remove (R : Roster) (t : TaskId) : Roster := { R with ready := R.ready.erase t }

/-- The task is taken out and put at its place with a new number. -/
def turn (R : Roster) (t : TaskId) : Roster :=
  let R' := (R.remove t).renumber t
  if t ∈ R'.ready then R' else R'.place t

end Roster

/-! ## The work of the timer service -/

/-- The state of the timer service and its work. -/
structure Errand where
  service : Option TaskId
  state : TaskState
  queue : List CallbackWork

def Kernel.errand (k : Kernel) : Errand where
  service := k.timerServiceTask
  state := (k.tasks .timerService).state
  queue := k.callbackQueue

namespace Errand

/-- The state of a task is assigned. -/
def setState (t : TaskId) (state : TaskState) (e : Errand) : Errand :=
  { e with state := if t = .timerService then state else e.state }

def setQueue (queue : List CallbackWork) (e : Errand) : Errand := { e with queue := queue }

end Errand

/-! ## Frames and moves -/

/-- What the frames speak of. -/
structure Outline where
  core : Core
  roster : Roster
  errand : Errand

def Kernel.outline (k : Kernel) : Outline where
  core := k.core
  roster := k.roster
  errand := k.errand

/-- The clock has moved. -/
def Outline.advance (O : Outline) (elapsed : Tick) : Outline :=
  { O with
    core := { O.core with ledger := O.core.ledger.advance elapsed }
    roster := { O.roster with now := O.roster.now + elapsed } }

theorem Outline.advance_zero (O : Outline) : O.advance 0 = O := by
  simp [Outline.advance]

section frames

variable (cfg : Config) (P Q : Outline → Prop)

/-- A frame that does not concern processor time and the priority queues. -/
class IgnoresCore : Prop where
  core : ∀ O C, P O → P { O with core := C }

/-- A frame that does not concern the records of the tasks. -/
class IgnoresRoster : Prop where
  roster : ∀ O R, P O → P { O with roster := R }

/-- A frame that does not concern the timer service. -/
class IgnoresErrand : Prop where
  errand : ∀ O e, P O → P { O with errand := e }

/-- A frame that survives the refill of a time slice and the moves of tasks between queues. -/
class Absorbs : Prop where
  refill : ∀ O t, P O → P { O with core := O.core.setSlice t cfg.timeSliceTicks }
  enqueue : ∀ O p t, P O → P { O with core := O.core.setQueue p (O.core.ready p ++ [t]) }
  dequeue : ∀ O p t, P O → P { O with core := O.core.setQueue p ((O.core.ready p).erase t) }

/-- A frame that survives the dispatch of tasks and its accounting. -/
class AbsorbsAccounts : Prop where
  account : ∀ O L, P O → P { O with core := { O.core with ledger := L } }

/-- A frame that survives the removal of a task from the list of the deadline policy. -/
class AbsorbsRemovals : Prop where
  remove : ∀ O t, P O → P { O with roster := O.roster.remove t }

/-- A frame that survives the release of a task. Only the deadline policy keeps the list. -/
class AbsorbsReleases : Prop where
  record : cfg.policy ≠ .edf → ∀ O t, P O → P { O with roster := O.roster.record t }
  release : cfg.policy = .edf → ∀ O t, t ∉ O.roster.ready → P O →
    P { O with roster := (O.roster.record t).place t }

/-- A frame that survives any change of a task's state. -/
class AbsorbsStates : Prop where
  state : ∀ O t s, P O → P { O with errand := O.errand.setState t s }

/-- A frame that survives any change of the callback queue. -/
class AbsorbsWork : Prop where
  work : ∀ O l, P O → P { O with errand := O.errand.setQueue l }

/-- What a turn of the current task leads to: it uses its time slice, or it goes behind its
equals. -/
structure Turns : Prop where
  same : ∀ O, P O → Q O
  consume : ∀ O t (elapsed : Tick), elapsed < O.core.slice t → P O →
    Q { O with core := O.core.setSlice t (O.core.slice t - elapsed) }
  rotate : ∀ O p t l, O.core.ready p = t :: l → P O →
    Q { O with core := O.core.setQueue p (l ++ [t]) }
  turn : ∀ O, ∀ t ∈ O.roster.ready, P O → Q { O with roster := O.roster.turn t }

end frames

section instances

variable {cfg : Config} {P : Outline → Prop}

instance [IgnoresCore P] : Absorbs cfg P where
  refill _ _ := IgnoresCore.core _ _
  enqueue _ _ _ := IgnoresCore.core _ _
  dequeue _ _ _ := IgnoresCore.core _ _

instance [IgnoresCore P] : AbsorbsAccounts P where
  account _ _ := IgnoresCore.core _ _

instance [IgnoresRoster P] : AbsorbsRemovals P where
  remove _ _ := IgnoresRoster.roster _ _

instance [IgnoresRoster P] : AbsorbsReleases cfg P where
  record _ _ _ := IgnoresRoster.roster _ _
  release _ _ _ _ := IgnoresRoster.roster _ _

instance [IgnoresErrand P] : AbsorbsStates P where
  state _ _ _ := IgnoresErrand.errand _ _

instance [IgnoresErrand P] : AbsorbsWork P where
  work _ _ := IgnoresErrand.errand _ _

end instances

/-- A frame over the ledger. -/
def OnLedger (P : Ledger → Prop) (O : Outline) : Prop := P O.core.ledger

/-- A frame over processor time and the priority queues. -/
def OnCore (P : Core → Prop) (O : Outline) : Prop := P O.core

/-- A frame over the records of the tasks. -/
def OnRoster (P : Roster → Prop) (O : Outline) : Prop := P O.roster

/-- A frame over the timer service. -/
def OnErrand (P : Errand → Prop) (O : Outline) : Prop := P O.errand

instance (P : Ledger → Prop) : IgnoresRoster (OnLedger P) := ⟨fun _ _ => id⟩

instance (P : Ledger → Prop) : IgnoresErrand (OnLedger P) := ⟨fun _ _ => id⟩

instance (cfg : Config) (P : Ledger → Prop) : Absorbs cfg (OnLedger P) :=
  ⟨fun _ _ => id, fun _ _ _ => id, fun _ _ _ => id⟩

theorem turns_onLedger (P : Ledger → Prop) : Turns (OnLedger P) (OnLedger P) :=
  ⟨fun _ => id, fun _ _ _ _ => id, fun _ _ _ _ _ => id, fun _ _ _ => id⟩

instance (P : Core → Prop) : IgnoresRoster (OnCore P) := ⟨fun _ _ => id⟩

instance (P : Core → Prop) : IgnoresErrand (OnCore P) := ⟨fun _ _ => id⟩

instance (P : Roster → Prop) : IgnoresCore (OnRoster P) := ⟨fun _ _ => id⟩

instance (P : Roster → Prop) : IgnoresErrand (OnRoster P) := ⟨fun _ _ => id⟩

/-- What a turn leads to in the list of the deadline policy. -/
theorem turns_onRoster {P Q : Roster → Prop} (hsame : ∀ R, P R → Q R)
    (hturn : ∀ R, ∀ t ∈ R.ready, P R → Q (R.turn t)) : Turns (OnRoster P) (OnRoster Q) :=
  ⟨fun O => hsame O.roster, fun O _ _ _ => hsame O.roster, fun O _ _ _ _ => hsame O.roster,
    fun O t ht => hturn O.roster t ht⟩

instance (P : Errand → Prop) : IgnoresCore (OnErrand P) := ⟨fun _ _ => id⟩

instance (P : Errand → Prop) : IgnoresRoster (OnErrand P) := ⟨fun _ _ => id⟩

/-- A frame over the timer service does not see whose turn it is. -/
theorem turns_onErrand (P : Errand → Prop) : Turns (OnErrand P) (OnErrand P) :=
  ⟨fun _ => id, fun _ _ _ _ => id, fun _ _ _ _ _ => id, fun _ _ _ => id⟩

/-! ## Assignments -/

/-- What the policy writes of a task, and what the task keeps. -/
def Tcb.record (task : Tcb) : Profile × Tick × Tick :=
  (task.profile, task.absoluteDeadline, task.releaseSequence)

/-- What the accounting of processor time writes of a task. -/
def Tcb.account (task : Tcb) : Tick × Tick :=
  (task.diagnosticRunningTicks, task.diagnosticLastStartTick)

@[simp] theorem Tcb.record_inj {task task' : Tcb} : task.record = task'.record ↔
    (task.slotState = task'.slotState ∧ task.entry = task'.entry ∧ task.stackLow = task'.stackLow ∧
      task.stackHigh = task'.stackHigh ∧ task.period = task'.period ∧
      task.relativeDeadline = task'.relativeDeadline ∧
      task.executionBudget = task'.executionBudget) ∧
    task.absoluteDeadline = task'.absoluteDeadline ∧
    task.releaseSequence = task'.releaseSequence := by
  simp only [Tcb.record, Tcb.profile, Prod.mk.injEq, Profile.mk.injEq]

@[simp] theorem Tcb.account_inj {task task' : Tcb} : task.account = task'.account ↔
    task.diagnosticRunningTicks = task'.diagnosticRunningTicks ∧
    task.diagnosticLastStartTick = task'.diagnosticLastStartTick := by
  simp only [Tcb.account, Prod.mk.injEq]

section assignments

variable (k : Kernel) {t : TaskId} {o : WaitObject}

/-- A task is written outside its profile. -/
theorem outline_assign {f : Tcb → Tcb} (hprofile : (f (k.tasks t)).profile = (k.tasks t).profile) :
    (k.updateTask t f).outline =
      { core := { k.core.setSlice t (f (k.tasks t)).sliceRemaining with
          ledger := (k.updateTask t f).ledger }
        roster := { k.roster with
          deadline := Function.update k.roster.deadline t (f (k.tasks t)).absoluteDeadline
          number := Function.update k.roster.number t (f (k.tasks t)).releaseSequence }
        errand := k.errand.setState t (f (k.tasks t)).state } := by
  have hslot : (f (k.tasks t)).slotState = (k.tasks t).slotState :=
    congrArg Profile.slotState hprofile
  simp only [Kernel.outline, Kernel.core, Kernel.roster, Kernel.errand, Core.setSlice,
    Errand.setState, Kernel.updateTask, Outline.mk.injEq, Core.mk.injEq, Roster.mk.injEq,
    Errand.mk.injEq, true_and, and_true]
  refine ⟨⟨?_, ?_⟩, ⟨?_, ?_, ?_⟩, ?state⟩
  case state =>
    rcases eq_or_ne t .timerService with rfl | ht
    · simp
    · simp [ht, ht.symm]
  all_goals
    funext u
    rcases eq_or_ne u t with rfl | hu
    · simp only [Function.update_self, *]
    · simp only [Function.update_of_ne hu]

@[simp] theorem Core.setSlice_self : k.core.setSlice t (k.tasks t).sliceRemaining = k.core := by
  have hsame : Function.update k.core.slice t (k.tasks t).sliceRemaining = k.core.slice :=
    Function.update_eq_self t k.core.slice
  rw [Core.setSlice, hsame]

@[simp] theorem Errand.setState_self : k.errand.setState t (k.tasks t).state = k.errand := by
  rcases eq_or_ne t .timerService with rfl | ht
  · simp [Errand.setState, Kernel.errand]
  · simp [Errand.setState, ht]

/-- A task is written outside its record. -/
theorem outline_writeTask {f : Tcb → Tcb} (hrecord : (f (k.tasks t)).record = (k.tasks t).record) :
    (k.updateTask t f).outline =
      { core := { k.core.setSlice t (f (k.tasks t)).sliceRemaining with
          ledger := (k.updateTask t f).ledger }
        roster := k.roster
        errand := k.errand.setState t (f (k.tasks t)).state } := by
  have hprofile : (f (k.tasks t)).profile = (k.tasks t).profile := congrArg (·.1) hrecord
  have hdeadline : (f (k.tasks t)).absoluteDeadline = (k.tasks t).absoluteDeadline :=
    congrArg (·.2.1) hrecord
  have hnumber : (f (k.tasks t)).releaseSequence = (k.tasks t).releaseSequence :=
    congrArg (·.2.2) hrecord
  have hdeadlines : Function.update k.roster.deadline t (k.tasks t).absoluteDeadline =
      k.roster.deadline := Function.update_eq_self t k.roster.deadline
  have hnumbers : Function.update k.roster.number t (k.tasks t).releaseSequence = k.roster.number :=
    Function.update_eq_self t k.roster.number
  rw [outline_assign k hprofile, hdeadline, hnumber, hdeadlines, hnumbers]

theorem ledger_updateTask {f : Tcb → Tcb}
    (haccount : (f (k.tasks t)).account = (k.tasks t).account) :
    (k.updateTask t f).ledger = k.ledger := by
  obtain ⟨hcredited, hstarted⟩ :
      (f (k.tasks t)).diagnosticRunningTicks = (k.tasks t).diagnosticRunningTicks ∧
      (f (k.tasks t)).diagnosticLastStartTick = (k.tasks t).diagnosticLastStartTick :=
    Tcb.account_inj.mp haccount
  simp only [Kernel.ledger, Kernel.updateTask, Ledger.mk.injEq, true_and]
  constructor
  iterate 2
    · funext u
      rcases eq_or_ne u t with rfl | hu
      · simp only [Function.update_self, *]
      · simp only [Function.update_of_ne hu]

/-- A task is written outside its record and its accounts. -/
theorem outline_updateTask {f : Tcb → Tcb} (hrecord : (f (k.tasks t)).record = (k.tasks t).record)
    (haccount : (f (k.tasks t)).account = (k.tasks t).account) :
    (k.updateTask t f).outline =
      { core := k.core.setSlice t (f (k.tasks t)).sliceRemaining
        roster := k.roster
        errand := k.errand.setState t (f (k.tasks t)).state } := by
  rw [outline_writeTask k hrecord, ledger_updateTask k haccount]
  rfl

/-- A task is written outside the outline. -/
@[simp] theorem outline_updateTask_same {f : Tcb → Tcb}
    (hrecord : (f (k.tasks t)).record = (k.tasks t).record)
    (haccount : (f (k.tasks t)).account = (k.tasks t).account)
    (hslice : (f (k.tasks t)).sliceRemaining = (k.tasks t).sliceRemaining)
    (hstate : (f (k.tasks t)).state = (k.tasks t).state) :
    (k.updateTask t f).outline = k.outline := by
  rw [outline_updateTask k hrecord haccount, hslice, hstate, Core.setSlice_self,
    Errand.setState_self]
  rfl

/-- A task gets a release number and a deadline. -/
theorem outline_number {f : Tcb → Tcb} (number : Tick)
    (hprofile : (f (k.tasks t)).profile = (k.tasks t).profile)
    (haccount : (f (k.tasks t)).account = (k.tasks t).account)
    (hslice : (f (k.tasks t)).sliceRemaining = (k.tasks t).sliceRemaining)
    (hstate : (f (k.tasks t)).state = (k.tasks t).state) :
    (({ k with policyReleaseSequence := number }).updateTask t f).outline =
      { k.outline with roster := { k.roster with
          last := number
          deadline := Function.update k.roster.deadline t (f (k.tasks t)).absoluteDeadline
          number := Function.update k.roster.number t (f (k.tasks t)).releaseSequence } } := by
  have hcore := Core.setSlice_self k (t := t)
  have herrand := Errand.setState_self k (t := t)
  have hledger := ledger_updateTask { k with policyReleaseSequence := number } haccount
  rw [outline_assign { k with policyReleaseSequence := number } hprofile, hledger, hslice, hstate]
  exact congrArg₂ (Outline.mk · _ ·) hcore herrand

@[simp] theorem outline_relink {l : List TaskId} {owner : Option WaitObject} :
    (k.relink o l t owner).outline = k.outline := by
  have hrelink : k.relink o l t owner =
      (k.setWaiters o l).updateTask t fun task => { task with waitOwner := owner } := rfl
  have hwaiters : (k.setWaiters o l).outline = k.outline := by cases o <;> rfl
  rw [hrelink, outline_updateTask_same _ rfl rfl rfl rfl, hwaiters]

@[simp] theorem outline_count {f : RuntimeCounters → RuntimeCounters}
    (h : (f k.counters).schedulerTicks = k.counters.schedulerTicks) :
    (k.count f).outline = k.outline := by
  simp only [Kernel.outline, Kernel.core, Kernel.roster, Kernel.errand, Kernel.ledger,
    Kernel.count, h]

@[simp] theorem outline_updateSemaphore {i : Nat} {f : Semaphore → Semaphore} :
    (k.updateSemaphore i f).outline = k.outline := by
  simp only [Kernel.outline, Kernel.core, Kernel.ledger, Kernel.roster, Kernel.errand,
    Kernel.updateSemaphore]

@[simp] theorem outline_updateMutex {m : Nat} {f : Mutex → Mutex} :
    (k.updateMutex m f).outline = k.outline := by
  simp only [Kernel.outline, Kernel.core, Kernel.ledger, Kernel.roster, Kernel.errand,
    Kernel.updateMutex]

@[simp] theorem outline_updateTimer {i : Nat} {f : Timer → Timer} :
    (k.updateTimer i f).outline = k.outline := by
  simp only [Kernel.outline, Kernel.core, Kernel.ledger, Kernel.roster, Kernel.errand,
    Kernel.updateTimer]

@[simp] theorem outline_countStale {i removed : Nat} :
    (countStale i removed k).outline = k.outline := outline_count _ rfl

@[simp] theorem outline_setPlan {plan : SwitchPlan} : (k.setPlan plan).outline = k.outline := by
  simp only [Kernel.outline, Kernel.core, Kernel.ledger, Kernel.roster, Kernel.errand,
    Kernel.setPlan]

end assignments

/-! ## Assignments that are moves -/

section writes

variable {cfg : Config} {P : Outline → Prop} {t : TaskId} {f : Kernel → Tcb → Tcb}

/-- The state of a task is written, beside what lies outside the outline. -/
theorem leads_setState [AbsorbsStates P]
    (h : ∀ k, (f k (k.tasks t)).record = (k.tasks t).record ∧
      (f k (k.tasks t)).account = (k.tasks t).account ∧
      (f k (k.tasks t)).sliceRemaining = (k.tasks t).sliceRemaining) :
    Leads Kernel.outline P P (modify fun k => k.updateTask t (f k) : KernelM Unit) := by
  refine leads_modify fun k hk => ?_
  obtain ⟨hrecord, haccount, hslice⟩ := h k
  rw [outline_updateTask k hrecord haccount, hslice, Core.setSlice_self]
  exact AbsorbsStates.state k.outline t _ hk

/-- A task gets a new time slice. -/
theorem leads_refill [Absorbs cfg P]
    (h : ∀ k, (f k (k.tasks t)).record = (k.tasks t).record ∧
      (f k (k.tasks t)).account = (k.tasks t).account ∧
      (f k (k.tasks t)).sliceRemaining = cfg.timeSliceTicks ∧
      (f k (k.tasks t)).state = (k.tasks t).state) :
    Leads Kernel.outline P P (modify fun k => k.updateTask t (f k) : KernelM Unit) := by
  refine leads_modify fun k hk => ?_
  obtain ⟨hrecord, haccount, hslice, hstate⟩ := h k
  rw [outline_updateTask k hrecord haccount, hslice, hstate, Errand.setState_self]
  exact Absorbs.refill k.outline t hk

/-- A task gets a new time slice and a state. -/
theorem leads_restart [Absorbs cfg P] [AbsorbsStates P]
    (h : ∀ k, (f k (k.tasks t)).record = (k.tasks t).record ∧
      (f k (k.tasks t)).account = (k.tasks t).account ∧
      (f k (k.tasks t)).sliceRemaining = cfg.timeSliceTicks) :
    Leads Kernel.outline P P (modify fun k => k.updateTask t (f k) : KernelM Unit) := by
  refine leads_modify fun k hk => ?_
  obtain ⟨hrecord, haccount, hslice⟩ := h k
  rw [outline_updateTask k hrecord haccount, hslice]
  exact AbsorbsStates.state _ t _ (Absorbs.refill k.outline t hk)

/-- The lifecycle or the current task is written. -/
theorem leads_account [AbsorbsAccounts P] {g : Kernel → Kernel}
    (h : ∀ k, (g k).outline = { k.outline with core := { k.core with ledger := (g k).ledger } }) :
    Leads Kernel.outline P P (modify g : KernelM Unit) := by
  refine leads_modify fun k hk => ?_
  rw [h k]
  exact AbsorbsAccounts.account k.outline _ hk

/-- A task is dispatched or stopped. -/
theorem leads_dispatch (cfg : Config) [Absorbs cfg P] [AbsorbsStates P] [AbsorbsAccounts P]
    {g : Kernel → Kernel}
    (hg : ∀ k, (g k).outline = { k.outline with core := { k.core with ledger := (g k).ledger } })
    (h : ∀ k, (f k ((g k).tasks t)).record = ((g k).tasks t).record ∧
      ((f k ((g k).tasks t)).sliceRemaining = cfg.timeSliceTicks ∨
        (f k ((g k).tasks t)).sliceRemaining = ((g k).tasks t).sliceRemaining)) :
    Leads Kernel.outline P P (modify fun k => (g k).updateTask t (f k) : KernelM Unit) := by
  refine leads_modify fun k hk => ?_
  obtain ⟨hrecord, hslice⟩ := h k
  have hgk : P (g k).outline := by
    rw [hg k]
    exact AbsorbsAccounts.account k.outline _ hk
  have hsliced : P { (g k).outline with
      core := (g k).core.setSlice t (f k ((g k).tasks t)).sliceRemaining } := by
    obtain hfull | hsame := hslice
    · rw [hfull]
      exact Absorbs.refill (g k).outline t hgk
    · rw [hsame, Core.setSlice_self]
      exact hgk
  rw [outline_writeTask (g k) hrecord]
  exact AbsorbsStates.state _ t _ (AbsorbsAccounts.account _ _ hsliced)

/-- The callback queue is written. -/
theorem leads_setWork [AbsorbsWork P] {g : Kernel → Kernel}
    (h : ∀ k, (g k).outline = { k.outline with errand := k.errand.setQueue (g k).callbackQueue }) :
    Leads Kernel.outline P P (modify g : KernelM Unit) :=
  leads_modify fun k hk => h k ▸ AbsorbsWork.work k.outline _ hk

end writes

end RtsKernel
