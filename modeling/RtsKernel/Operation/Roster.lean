import RtsKernel.Operation.Frame
import RtsKernel.Operation.Startup

/-!
# The records of the tasks

The identity of the tasks, their deadlines and release numbers and the list of the ready tasks in
the order of their deadlines change in few ways: the policy numbers a release and puts the task at
its place, takes a task out, or gives a new number to a task that yields; a creation commits one
more task.

## Main results

* `runEvent_roster`: what an event that creates no task makes of the records.
* `Created.enrols`: what a creation makes of them.
-/

namespace RtsKernel

open Halting Prog

variable {cfg : Config} {k k' : Kernel}

/-- An event takes tasks out, releases tasks once the clock has moved, or gives the current task its
turn. -/
theorem runEvent_roster {P M Q : Roster → Prop} [AbsorbsRemovals (OnRoster P)]
    [AbsorbsReleases cfg (OnRoster M)] {ev : Event} (hev : ¬ ev.Populates)
    (h : runEvent cfg ev k = .ret () k') (hP : P k.roster)
    (hM : M { k.roster with now := k.currentTick + ev.elapsed cfg k })
    (hPQ : Turns (OnRoster P) (OnRoster Q)) (hMQ : Turns (OnRoster M) (OnRoster Q)) : Q k'.roster :=
  runEvent_outline hev h hP hM hPQ hMQ

/-! ## Creation -/

/-- The task in the slot is committed. -/
def Roster.enrol (R : Roster) (n : Nat) : Roster :=
  { R with
    profile := Function.update R.profile (.slot n)
      { R.profile (.slot n) with slotState := .allocated }
    created := n + 1 }

/-- A task has been put into the next slot, inserted and committed. -/
structure Enrols (cfg : Config) (k : Kernel) (config : TaskConfig) (k' : Kernel) : Prop where
  initialized : k.lifecycle = .initialized
  dormant : (k.tasks (.slot k.allocatedCount)).state = .dormant
  inserted : ∃ stackPointer k₁, policyInsert cfg (.slot k.allocatedCount)
      (k.reserve cfg k.allocatedCount (config.object cfg stackPointer)) = .ret true k₁ ∧
    k'.roster = k₁.roster.enrol k.allocatedCount

theorem Created.enrols {config : TaskConfig} {stackPointer : Nat} {k₁ : Kernel}
    (h : Created cfg k config stackPointer k₁ k') (hp : Pool cfg k) : Enrols cfg k config k' := by
  refine ⟨h.initialized, hp.dormant, stackPointer, k₁, h.insertion, ?_⟩
  rw [h.frame]
  simp only [Kernel.roster, Roster.enrol, Roster.mk.injEq, true_and, and_true]
  refine ⟨?_, ?_, ?_⟩ <;> funext u <;> by_cases hu : u = .slot k.allocatedCount <;>
    simp [Tcb.profile, Tcb.committed, hu]

end RtsKernel
