import RtsKernel.Model.System

/-!
# Executable runs

A list of events is run from a state as long as each event is enabled and allowed and its critical
section returns. What such a run ends in is reachable.
-/

namespace RtsKernel

open Halting Prog

def execute (cfg : Config) (allowed : Kernel → Event → Prop) [∀ k ev, Decidable (allowed k ev)] :
    List Event → Kernel → Option Kernel
  | [], k => some k
  | ev :: evs, k =>
    if ev.Enabled k ∧ allowed k ev then
      match runEvent cfg ev k with
      | .ret _ k' => execute cfg allowed evs k'
      | .halt _ _ => none
    else none

variable {cfg : Config} {allowed : Kernel → Event → Prop} [∀ k ev, Decidable (allowed k ev)]
  {evs : List Event} {k k' : Kernel}

theorem execute_reachable (h : execute cfg allowed evs k = some k') :
    Transition.ReachableFrom (Step cfg) allowed k k' := by
  induction evs generalizing k with
  | nil =>
    obtain rfl : k = k' := Option.some.inj h
    exact .refl k
  | cons ev evs ih =>
    simp only [execute] at h
    split at h <;> rename_i hen
    · split at h <;> rename_i hret
      · exact .trans (.tail (.refl k) hen.2 ⟨hen.1, hret⟩) (ih h)
      · simp at h
    · simp at h

/-- A check of the state that a run from reset ends in. -/
theorem exists_reachable {P : Kernel → Prop} [DecidablePred P]
    (h : (execute cfg allowed evs resetKernel).any (fun k => decide (P k)) = true) :
    ∃ k, ReachableWhen cfg allowed k ∧ P k := by
  cases hk : execute cfg allowed evs resetKernel with
  | none => simp [hk] at h
  | some k =>
    rw [hk] at h
    exact ⟨k, execute_reachable hk, of_decide_eq_true h⟩

/-- A check of the state that one more step leads to. -/
theorem exists_step {ev : Event} {P : Kernel → Prop} [DecidablePred P]
    (h : (execute cfg allowed [ev] k).any (fun k' => decide (P k')) = true) :
    ∃ k', Step cfg k ev k' ∧ P k' := by
  simp only [execute] at h
  split at h <;> rename_i hen
  · split at h <;> rename_i hret
    · exact ⟨_, ⟨hen.1, hret⟩, of_decide_eq_true h⟩
    · simp at h
  · simp at h

section Observed

variable {ω : Type} {note : ω → Kernel → Event → Kernel → ω} {notes notes' : ω}

/-- A list of events run from a state, with the notes of an observer. -/
def observe (cfg : Config) (allowed : Kernel → Event → Prop) [∀ k ev, Decidable (allowed k ev)]
    (note : ω → Kernel → Event → Kernel → ω) : List Event → Kernel → ω → Option (Kernel × ω)
  | [], k, notes => some (k, notes)
  | ev :: evs, k, notes =>
    if ev.Enabled k ∧ allowed k ev then
      match runEvent cfg ev k with
      | .ret _ k' => observe cfg allowed note evs k' (note notes k ev k')
      | .halt _ _ => none
    else none

theorem observe_observed {k₀ : Kernel} {notes₀ : ω}
    (h₀ : Transition.Observed (Step cfg) allowed note k₀ notes₀ k notes)
    (h : observe cfg allowed note evs k notes = some (k', notes')) :
    Transition.Observed (Step cfg) allowed note k₀ notes₀ k' notes' := by
  induction evs generalizing k notes with
  | nil =>
    obtain ⟨rfl, rfl⟩ : k = k' ∧ notes = notes' := Prod.mk.inj (Option.some.inj h)
    exact h₀
  | cons ev evs ih =>
    simp only [observe] at h
    split at h <;> rename_i hen
    · split at h <;> rename_i hret
      · exact ih (h₀.step hen.2 ⟨hen.1, hret⟩) h
      · simp at h
    · simp at h

/-- A check of what a run from reset ends in, and of its notes. -/
theorem exists_observed {P : Kernel × ω → Prop} [DecidablePred P]
    (h : (observe cfg allowed note evs resetKernel notes).any (fun r => decide (P r)) = true) :
    ∃ k notes', Transition.Observed (Step cfg) allowed note resetKernel notes k notes' ∧
      P (k, notes') := by
  cases hr : observe cfg allowed note evs resetKernel notes with
  | none => simp [hr] at h
  | some r =>
    rw [hr] at h
    exact ⟨r.1, r.2, observe_observed .start hr, of_decide_eq_true h⟩

end Observed

/-- A small configuration: two application tasks and two timers under fixed priorities, with the
timer service at the highest priority. -/
def sampleConfig : Config where
  maxTasks := 2
  maxTimers := 2
  priorityCount := 4
  timerServicePriority := 3
  timerCallbackQueueCapacity := 2
  maxMutexesPerTask := 2
  timeSliceTicks := 5
  ticklessMaxSleepTicks := 100
  enableTimeSlicing := true
  enableTicklessIdle := true
  enableAssertions := false
  enableInvariantChecks := false
  policy := .fixedPriority
  maxTasks_pos := by decide
  maxTimers_pos := by decide
  priorityCount_range := by decide
  servicePriority_range := by decide
  capacity_le := by decide
  maxMutexes_pos := by decide
  slice_pos := by decide
  sleep_range := by decide
  rms_ranks := by decide

/-- The sample configuration with room for four application tasks. -/
def crowdConfig : Config :=
  { sampleConfig with maxTasks := 4, maxTasks_pos := by decide, rms_ranks := by decide }

/-- The creation of an application task of the given priority. -/
def createEvent (priority : Nat) : Event :=
  .taskCreate false (some ⟨1, 1, 2, true, priority, 0, 0, 0⟩) true ⟨.ok, 8⟩

/-- Initialisation and one application task of the given priority. -/
def bootEvents (priority : Nat) : List Event :=
  [.init false ⟨true, some 8, some 8⟩, createEvent priority]

/-- The switch handler acquires and completes the pending switch. -/
def switchEvents (outgoing incoming : TaskId) (generation : Tick) : List Event :=
  [.acquire, .complete ⟨outgoing, incoming, generation⟩ true]

end RtsKernel
