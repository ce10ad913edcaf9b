import RtsKernel.Library.Transition
import RtsKernel.Model.Startup
import RtsKernel.Model.Task
import RtsKernel.Model.Time

/-!
# The kernel as a transition system

One step is one kernel critical section: a public call, a step of the timer service, a time
entry, or a part of the context switch. Calls are made in thread context by the running task
(by the startup code before the scheduler runs), or in interrupt context at any time; the
switch parts belong to the port.
-/

namespace RtsKernel

open Halting Prog

inductive Event where
  | init (isr : Bool) (port : InitAnswers)
  | taskCreate (isr : Bool) (config : Option TaskConfig) (outHandle : Bool) (stack : StackAnswer)
  | timerInit (isr : Bool) (config : Option TimerConfig)
  | semaphoreInit (isr : Bool) (semaphore : Option Nat) (initialCount maximumCount : Nat)
  | mutexInit (isr : Bool) (mutex : Option Nat)
  | start (isr tickOk firstTaskOk : Bool)
  | yield (isr : Bool)
  | delay (isr : Bool) (ticks : Tick)
  | take (isr : Bool) (semaphore : Option Nat) (timeout : Tick)
  | give (isr : Bool) (semaphore : Option Nat)
  | giveFromIsr (isr : Bool) (semaphore : Option Nat)
  | lock (isr : Bool) (mutex : Option Nat) (timeout : Tick)
  | unlock (isr : Bool) (mutex : Option Nat)
  | consume
  | timerStart (isr : Bool) (timer : Nat)
  | timerRestart (isr : Bool) (timer : Nat)
  | timerStop (isr : Bool) (timer : Nat)
  | serviceBegin
  | serviceEnd
  | serviceRest
  | tick (isr : Bool) (elapsed : Tick)
  | skip (isr : Bool) (elapsed : Tick)
  | powerIdle (isr : Bool) (result : SleepResult)
  | acquire
  | complete (snapshot : SwitchSnapshot) (stacksIntact : Bool)
  | reselect

/-- The execution context of a call. -/
def Event.isr : Event → Bool
  | .init isr _ | .taskCreate isr _ _ _ | .timerInit isr _ | .semaphoreInit isr _ _ _
  | .mutexInit isr _ | .start isr _ _ | .yield isr | .delay isr _ | .take isr _ _
  | .give isr _ | .giveFromIsr isr _ | .lock isr _ _ | .unlock isr _ | .timerStart isr _
  | .timerRestart isr _ | .timerStop isr _ | .tick isr _ | .skip isr _
  | .powerIdle isr _ => isr
  | .consume | .serviceBegin | .serviceEnd | .serviceRest | .acquire | .complete _ _
  | .reselect => false

/-- The critical section an event runs, and the notification of the port that follows it. -/
def runEvent (cfg : Config) : Event → KernelM Unit
  | .init isr port => do let _ ← init cfg isr port
  | .taskCreate isr config outHandle stack => do
    let _ ← taskCreate cfg isr config outHandle stack
  | .timerInit isr config => do let _ ← timerInit cfg isr config
  | .semaphoreInit isr s n m => do let _ ← semaphoreInit cfg isr s n m
  | .mutexInit isr m => do let _ ← mutexInit cfg isr m
  | .start isr tickOk firstTaskOk => do let _ ← start cfg isr tickOk firstTaskOk
  | .yield isr => do let _ ← taskYield cfg isr
  | .delay isr d => do let _ ← taskDelay cfg isr d
  | .take isr s timeout => do let _ ← semaphoreTake cfg isr s timeout
  | .give isr s => do let _ ← semaphoreGive cfg isr s
  | .giveFromIsr isr s => do let _ ← semaphoreGiveFromIsr cfg isr s
  | .lock isr m timeout => do let _ ← mutexLock cfg isr m timeout
  | .unlock isr m => do let _ ← mutexUnlock cfg isr m
  | .consume => do
    let k ← get
    match k.currentTask with
    | none => pure ()
    | some c => do let _ ← waitResultConsume c
  | .timerStart isr i => do let _ ← timerStart cfg isr i
  | .timerRestart isr i => do let _ ← timerRestart cfg isr i
  | .timerStop isr i => do let _ ← timerStop cfg isr i
  | .serviceBegin => do let _ ← timerServiceBegin cfg
  | .serviceEnd => do
    let k ← get
    match k.serviceWork with
    | none => pure ()
    | some work => timerServiceEnd cfg work
  | .serviceRest => timerServiceRest cfg
  | .tick isr elapsed => do
    let notify ← kernelTickAdvance cfg isr elapsed
    notifyPort notify
  | .skip isr elapsed => do
    let notify ← kernelTimeSkip cfg isr elapsed
    notifyPort notify
  | .powerIdle isr result => powerIdle cfg isr result
  | .acquire => do let _ ← schedulerSwitchAcquire cfg
  | .complete snapshot stacksIntact => schedulerSwitchComplete cfg snapshot stacksIntact
  | .reselect => do
    let notify ← schedulerReselectAfterSwitch cfg
    notifyPort notify

/-- Thread code runs before the scheduler does, and afterwards in the running task; the timer
service leaves its loop only inside a callback. -/
def ThreadMayCall (k : Kernel) : Prop :=
  k.lifecycle ≠ .running ∨
  ∃ c ∈ k.currentTask, (k.tasks c).state = .running ∧
    (c = .timerService → k.serviceWork ≠ none)

instance (k : Kernel) : Decidable (ThreadMayCall k) := by
  delta ThreadMayCall
  infer_instance

/-- The timer service is the running task. -/
def ServiceIsRunning (k : Kernel) : Prop :=
  k.lifecycle = .running ∧ k.currentTask = some .timerService ∧
  (k.tasks .timerService).state = .running

instance (k : Kernel) : Decidable (ServiceIsRunning k) :=
  inferInstanceAs (Decidable (_ ∧ _ ∧ _))

/-- When an event can occur. -/
def Event.Enabled (k : Kernel) : Event → Prop
  | .consume => k.lifecycle = .running ∧
      ∃ c ∈ k.currentTask, (k.tasks c).state = .running ∧ (k.tasks c).wait.result ≠ .none
  | .serviceBegin | .serviceRest => ServiceIsRunning k ∧ k.serviceWork = none
  | .serviceEnd => ServiceIsRunning k ∧ k.serviceWork ≠ none
  | .acquire | .complete _ _ => k.lifecycle = .running
  | .reselect => k.lifecycle = .running ∧ k.switchPlan.active = false
  | ev => ev.isr = true ∨ ThreadMayCall k

instance (k : Kernel) (ev : Event) : Decidable (ev.Enabled k) := by
  cases ev <;> dsimp only [Event.Enabled] <;> infer_instance

/-- One critical section that runs to its end. -/
def Step (cfg : Config) (k : Kernel) (ev : Event) (k' : Kernel) : Prop :=
  ev.Enabled k ∧ runEvent cfg ev k = .ret () k'

/-- The kernel before `rts_init`, with no synchronization object initialised. -/
def resetKernel : Kernel := {}

/-- Reachable from reset by steps that all satisfy a condition. -/
def ReachableWhen (cfg : Config) (allowed : Kernel → Event → Prop) : Kernel → Prop :=
  Transition.ReachableFrom (Step cfg) allowed resetKernel

/-- Reachable from reset by any interleaving of events. -/
def Reachable (cfg : Config) : Kernel → Prop := ReachableWhen cfg fun _ _ => True

end RtsKernel
