import RtsKernel.Operation.Preservation

/-!
# Runs with their history

A `Timeline` is a kernel together with what an observer of the run has written down: how many
critical sections have run, the time as an unbounded number, and for every task when it last
blocked, until when it asked to wait, when it took its place among equal waiters, and how many
results it has been given since it last blocked. The history never influences the kernel.

## Main results

* `Recorded.reachable`, `Reachable.recorded`: the kernels of timelines are the reachable ones.
* `Recorded.invariant`: induction over a run with its history.
-/

namespace RtsKernel

variable {cfg : Config} {k k' : Kernel} {ev : Event}

structure Timeline where
  kernel : Kernel := resetKernel
  steps : Nat := 0
  clock : Nat := 0
  blockedAt : TaskId → Nat := fun _ => 0
  deadline : TaskId → Nat := fun _ => 0
  queuedAt : TaskId → Nat := fun _ => 0
  results : TaskId → Nat := fun _ => 0

/-- The ticks a blocking call asks to wait at most. -/
def Event.allowance : Event → Nat
  | .delay _ ticks => ticks.toNat
  | .take _ _ timeout => timeout.toNat
  | .lock _ _ timeout => timeout.toNat
  | _ => 0

/-- The task has blocked in this step. -/
def Suspended (k k' : Kernel) (t : TaskId) : Prop :=
  (k.tasks t).state ≠ .blocked ∧ (k'.tasks t).state = .blocked

instance (k k' : Kernel) (t : TaskId) : Decidable (Suspended k k' t) :=
  inferInstanceAs (Decidable (_ ∧ _))

/-- The task has taken a place in a wait list in this step: it began to wait there, or moved because
its priority changed. -/
def Requeues (k k' : Kernel) (t : TaskId) : Prop :=
  (k'.tasks t).waitOwner ≠ (k.tasks t).waitOwner ∨ (k'.tasks t).priority ≠ (k.tasks t).priority

instance (k k' : Kernel) (t : TaskId) : Decidable (Requeues k k' t) :=
  inferInstanceAs (Decidable (_ ∨ _))

/-- The task has been given a result in this step. -/
def Answered (k k' : Kernel) (t : TaskId) : Prop :=
  (k'.tasks t).wait.result ≠ .none ∧ (k'.tasks t).wait.result ≠ (k.tasks t).wait.result

instance (k k' : Kernel) (t : TaskId) : Decidable (Answered k k' t) :=
  inferInstanceAs (Decidable (_ ∧ _))

namespace Timeline

/-- The history after one more step. -/
def record (cfg : Config) (T : Timeline) (ev : Event) (k' : Kernel) : Timeline where
  kernel := k'
  steps := T.steps + 1
  clock := T.clock + (ev.elapsed cfg T.kernel).toNat
  blockedAt t := if Suspended T.kernel k' t then T.steps + 1 else T.blockedAt t
  deadline t := if Suspended T.kernel k' t then T.clock + ev.allowance else T.deadline t
  queuedAt t := if Requeues T.kernel k' t then T.steps + 1 else T.queuedAt t
  results t := (if Suspended T.kernel k' t then 0 else T.results t) +
    if Answered T.kernel k' t then 1 else 0

/-- One step of the kernel, written down. -/
def Step (cfg : Config) (T : Timeline) (ev : Event) (T' : Timeline) : Prop :=
  RtsKernel.Step cfg T.kernel ev T'.kernel ∧ T' = T.record cfg ev T'.kernel

end Timeline

/-- A run from reset with its history. -/
def Recorded (cfg : Config) : Timeline → Prop :=
  Transition.ReachableFrom (Timeline.Step cfg) (fun _ _ => True) {}

theorem Recorded.step {T : Timeline} (h : Recorded cfg T) (hs : Step cfg T.kernel ev k') :
    Recorded cfg (T.record cfg ev k') :=
  Transition.ReachableFrom.tail h trivial ⟨hs, rfl⟩

theorem Recorded.reachable {T : Timeline} (h : Recorded cfg T) : Reachable cfg T.kernel := by
  have h0 : Reachable cfg resetKernel := .refl _
  exact Transition.ReachableFrom.invariant (P := fun T => Reachable cfg T.kernel) h h0
    fun _ _ _ hT _ hs => .tail hT trivial hs.1

theorem Recorded.sound {T : Timeline} (h : Recorded cfg T) : Sound cfg T.kernel := h.reachable.sound

/-- Every run can be written down. -/
theorem Reachable.recorded (h : Reachable cfg k) : ∃ T, Recorded cfg T ∧ T.kernel = k := by
  refine Transition.ReachableFrom.invariant (P := fun k => ∃ T, Recorded cfg T ∧ T.kernel = k) h
    ⟨{}, .refl _, rfl⟩ ?_
  rintro _ ev k' ⟨T, hT, rfl⟩ - hs
  exact ⟨T.record cfg ev k', hT.step hs, rfl⟩

/-- A property of the history that steps from sound states preserve holds in every run. -/
theorem Recorded.invariant {P : Timeline → Prop} {T : Timeline} (h : Recorded cfg T) (h0 : P {})
    (hstep : ∀ T ev k', Recorded cfg T → Step cfg T.kernel ev k' →
      Stepped cfg T.kernel ev k' → P T → P (T.record cfg ev k')) : P T := by
  refine (Transition.ReachableFrom.invariant (P := fun T => Recorded cfg T ∧ P T) h
    ⟨.refl _, h0⟩ ?_).2
  rintro T ev T' ⟨hT, hP⟩ - ⟨hs, hT'⟩
  rw [hT']
  exact ⟨hT.step hs, hstep T ev _ hT hs (hs.stepped hT.sound) hP⟩

end RtsKernel
