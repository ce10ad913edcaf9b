import RtsKernel.Model.Types

/-!
# Diagnostics snapshot

`rts_diagnostics_snapshot_read` of `runtime_stats.c`, with diagnostics and runtime statistics
compiled in. The fatal reason is not part of it: a kernel that runs has none.
-/

namespace RtsKernel

/-- `rts_diagnostics_snapshot_t`. -/
structure DiagnosticsSnapshot where
  tick : Tick
  contextSwitches : Tick
  taskCount : Tick
  idleTicks : Tick
  nonIdleTicks : Tick
  ticklessSleepEntries : Tick
  ticklessSuppressedTicks : Tick
  ticklessLongestSleep : Tick
  deriving DecidableEq, Repr

/-- The ticks of the idle task: those it is credited with and, while it executes, its present
run. -/
def diagnosticsIdleTicks (k : Kernel) : Tick :=
  match k.idleTask with
  | none => 0
  | some task =>
    if k.currentTask = some task ∧ k.lifecycle = .running then
      (k.tasks task).diagnosticRunningTicks +
        (k.currentTick - (k.tasks task).diagnosticLastStartTick)
    else (k.tasks task).diagnosticRunningTicks

/-- `rts_diagnostics_snapshot_read`. -/
def diagnosticsSnapshotRead (k : Kernel) : DiagnosticsSnapshot :=
  let totalTicks := k.counters.schedulerTicks
  let idleTicks :=
    if totalTicks < diagnosticsIdleTicks k then totalTicks else diagnosticsIdleTicks k
  { tick := k.currentTick
    contextSwitches := k.counters.contextSwitches
    taskCount := BitVec.ofNat 32 k.allocatedCount
    idleTicks := idleTicks
    nonIdleTicks := totalTicks - idleTicks
    ticklessSleepEntries := k.counters.ticklessSleepEntries
    ticklessSuppressedTicks := k.counters.ticklessSuppressedTicks
    ticklessLongestSleep := k.counters.ticklessLongestSleep }

end RtsKernel
