import Mathlib.Data.BitVec
import RtsKernel.Model.Diagnostics
import RtsKernel.Model.Run
import RtsKernel.Operation.Ledger
import RtsKernel.Property.Timeline

/-!
# Processor time is accounted for

A task is credited with its run when it is switched out, by a subtraction modulo `2 ^ 32`, while the
ticks arrive in chunks of any size, also between the plan of a switch and its completion. Nothing is
lost or counted twice: what is credited and the present run add up to the time since the start.

## Main results

* `Ledger.Balanced.advance`, `Ledger.Balanced.switch`: the two ways the books move.
* `cpu_time_accounted`: the books of every run, and what the diagnostics report of them.
-/

namespace RtsKernel

open Halting Prog

variable {cfg : Config} {k k' : Kernel} {ev : Event} {L : Ledger}

/-! ## Balanced books -/

/-- The ledger of a system started at the tick `start`, after `elapsed` ticks, `idle` of them while
the idle task was current. -/
structure Ledger.Balanced (cfg : Config) (L : Ledger) (start : Tick) (elapsed idle : Nat) :
    Prop where
  known : ∃ c ∈ knownTasks cfg, L.current = some c
  total : ∀ c, L.current = some c →
    (∑ t ∈ knownTasks cfg, L.credited t) + (L.now - L.started c) = L.now - start
  counted : L.elapsed.toNat = min elapsed 4294967295
  idleRun : BitVec.ofNat 32 idle =
    L.credited .idle + if L.current = some .idle then L.now - L.started .idle else 0
  idle_le : idle ≤ elapsed

namespace Ledger

/-- The books are opened with the first run. -/
theorem Blank.balanced (h : L.Blank) {c : TaskId} (hc : c ∈ knownTasks cfg)
    (hcur : L.current = some c) (hstart : L.started c = L.now) : L.Balanced cfg L.now 0 0 where
  known := ⟨c, hc, hcur⟩
  total d hd := by
    obtain rfl : c = d := Option.some.inj (hcur.symm.trans hd)
    rw [Finset.sum_eq_zero fun t _ => h.credited t, hstart]
    simp
  counted := by simp [h.elapsed]
  idleRun := by
    rw [h.credited]
    split <;> rename_i hidle
    · obtain rfl : c = .idle := Option.some.inj (hcur.symm.trans hidle)
      simp [hstart]
    · rfl
  idle_le := le_rfl

variable {start : Tick} {n idle : Nat}

theorem Balanced.advance (h : L.Balanced cfg start n idle) (e : Tick) :
    (L.advance e).Balanced cfg start (n + e.toNat)
      (idle + if L.current = some .idle then e.toNat else 0) where
  known := h.known
  total c hc := by
    have htotal := h.total c hc
    simp only [Ledger.advance]
    generalize ∑ t ∈ knownTasks cfg, L.credited t = credited at htotal ⊢
    bv_omega
  counted := by
    have hcounted := h.counted
    simp only [Ledger.advance, toNat_diagnosticCounterAdd]
    omega
  idleRun := by
    have hidle := h.idleRun
    simp only [Ledger.advance]
    by_cases hcur : L.current = some .idle
    · simp only [hcur, if_true] at hidle ⊢
      rw [BitVec.ofNat_add, hidle, BitVec.ofNat_toNat, BitVec.setWidth_eq]
      ring
    · simp only [hcur, if_false, add_zero] at hidle ⊢
      exact hidle
  idle_le := by
    have hle := h.idle_le
    split <;> omega

theorem Balanced.switch (h : L.Balanced cfg start n idle) {src dst : TaskId}
    (hsrc : L.current = some src) (hdst : dst ∈ knownTasks cfg) (hne : src ≠ dst) :
    ((L.stop src).start dst).Balanced cfg start n idle where
  known := ⟨dst, hdst, rfl⟩
  total c hc := by
    obtain rfl : dst = c := Option.some.inj hc
    obtain ⟨c, hknown, hcur⟩ := h.known
    obtain rfl : src = c := Option.some.inj (hsrc.symm.trans hcur)
    have htotal := h.total src hsrc
    have hsplit := Finset.add_sum_erase (knownTasks cfg) L.credited hknown
    simp only [Ledger.stop, Ledger.start, Function.update_self, sub_self, add_zero]
    rw [Finset.sum_update_of_mem hknown, Finset.sdiff_singleton_eq_erase]
    rw [← hsplit] at htotal
    rw [← htotal]
    ring
  counted := h.counted
  idleRun := by
    have hidle := h.idleRun
    rw [hidle]
    simp only [Ledger.stop, Ledger.start, hsrc, Option.some.injEq]
    obtain rfl | hsrc := eq_or_ne src .idle
    · simp [hne.symm]
    · obtain rfl | hdst := eq_or_ne dst .idle
      · simp [hsrc, hsrc.symm]
      · simp [hsrc, hsrc.symm, hdst]
  idle_le := h.idle_le

end Ledger

/-! ## Runs and their books -/

/-- A run with what its time amounts to: the tick at the start, the ticks that have elapsed, and
those that elapsed while the idle task was current. -/
structure Meter where
  kernel : Kernel := resetKernel
  startTick : Tick := 0
  elapsed : Nat := 0
  idle : Nat := 0

namespace Meter

/-- The reading after one more step. -/
def record (cfg : Config) (M : Meter) (ev : Event) (k' : Kernel) : Meter where
  kernel := k'
  startTick := if M.kernel.lifecycle ≠ .running ∧ k'.lifecycle = .running then k'.currentTick
    else M.startTick
  elapsed := M.elapsed + (ev.elapsed cfg M.kernel).toNat
  idle := M.idle + if M.kernel.currentTask = some .idle then (ev.elapsed cfg M.kernel).toNat else 0

/-- One step of the kernel, metered. -/
def Step (cfg : Config) (M : Meter) (ev : Event) (M' : Meter) : Prop :=
  RtsKernel.Step cfg M.kernel ev M'.kernel ∧ M' = M.record cfg ev M'.kernel

/-- What the books say of a run so far. -/
structure Accounts (cfg : Config) (M : Meter) : Prop where
  blank : M.kernel.lifecycle ≠ .running → M.kernel.ledger.Blank ∧ M.elapsed = 0 ∧ M.idle = 0
  balanced : M.kernel.lifecycle = .running →
    M.kernel.ledger.Balanced cfg M.startTick M.elapsed M.idle

end Meter

/-- A metered run from reset. -/
def Metered (cfg : Config) : Meter → Prop :=
  Transition.ReachableFrom (Meter.Step cfg) (fun _ _ => True) {}

theorem Metered.reachable {M : Meter} (h : Metered cfg M) : Reachable cfg M.kernel := by
  have h0 : Reachable cfg resetKernel := .refl _
  exact Transition.ReachableFrom.invariant (P := fun M => Reachable cfg M.kernel) h h0
    fun _ _ _ hM _ hs => .tail hM trivial hs.1

/-- A list of events, metered, as long as each is enabled and its critical section returns. -/
def Meter.follow (cfg : Config) : List Event → Meter → Option Meter
  | [], M => some M
  | ev :: evs, M =>
    if ev.Enabled M.kernel then
      match runEvent cfg ev M.kernel with
      | .ret _ k' => follow cfg evs (M.record cfg ev k')
      | .halt _ _ => none
    else none

theorem Meter.follow_metered {evs : List Event} {M M' : Meter} (hM : Metered cfg M)
    (h : Meter.follow cfg evs M = some M') : Metered cfg M' := by
  induction evs generalizing M with
  | nil =>
    obtain rfl : M = M' := Option.some.inj h
    exact hM
  | cons ev evs ih =>
    simp only [follow] at h
    split at h <;> rename_i hen
    · split at h <;> rename_i hret
      · exact ih (Transition.ReachableFrom.tail hM trivial ⟨⟨hen, hret⟩, rfl⟩) h
      · simp at h
    · simp at h

/-- A check of the reading that a run from reset ends with. -/
theorem exists_metered {evs : List Event} {P : Meter → Prop} [DecidablePred P]
    (h : (Meter.follow cfg evs {}).any (fun M => decide (P M)) = true) :
    ∃ M, Metered cfg M ∧ P M := by
  cases hM : Meter.follow cfg evs {} with
  | none =>
    rw [hM] at h
    exact absurd h nofun
  | some M =>
    rw [hM] at h
    exact ⟨M, Meter.follow_metered (.refl _) hM, of_decide_eq_true h⟩

/-- No time passes before the scheduler runs. -/
theorem Event.elapsed_eq_zero (ev : Event) (hl : k.lifecycle ≠ .running) :
    ev.elapsed cfg k = 0 := by
  have hnot (contextOk : Bool) (elapsed : Tick) : ¬ AdvanceIsValid k contextOk elapsed :=
    fun hvalid => hl hvalid.1
  unfold Event.elapsed
  split
  · exact if_neg (hnot _ _)
  · exact if_neg (hnot _ _)
  · split
    · exact if_neg fun hall => hnot _ _ hall.2.2.2
    · rfl
  · rfl

theorem mem_knownTasks_of_runnable {t : TaskId} (h : TaskIsRunnable cfg k t) :
    t ∈ knownTasks cfg := by
  apply mem_knownTasks
  have hident : IdentityIsValid cfg k t := h.2.2.2.2.2.2.2.2.2.1
  unfold IdentityIsValid at hident
  split at hident
  · exact .inr (.inl hident.2)
  · exact hident.2.imp id fun hservice => .inr hservice.2

namespace Meter.Accounts

variable {M : Meter}

/-- A step of the running system that moves the clock, or leaves the books alone. -/
theorem advance (h : M.Accounts cfg) (hl : M.kernel.lifecycle = .running)
    (hk' : k'.ledger = M.kernel.ledger.advance (ev.elapsed cfg M.kernel)) :
    (M.record cfg ev k').Accounts cfg := by
  have hl' : k'.lifecycle = .running := (congrArg Ledger.lifecycle hk').trans hl
  refine ⟨fun hne => absurd hl' hne, fun _ => ?_⟩
  have hstart : (M.record cfg ev k').startTick = M.startTick := if_neg fun hnew => hnew.1 hl
  rw [hstart]
  change k'.ledger.Balanced ..
  rw [hk']
  exact (h.balanced hl).advance _

theorem switch (h : M.Accounts cfg) (hl : M.kernel.lifecycle = .running) {src dst : TaskId}
    (hev : ev.elapsed cfg M.kernel = 0) (hsrc : M.kernel.currentTask = some src)
    (hdst : dst ∈ knownTasks cfg) (hne : src ≠ dst)
    (hk' : k'.ledger = (M.kernel.ledger.stop src).start dst) :
    (M.record cfg ev k').Accounts cfg := by
  have hl' : k'.lifecycle = .running := (congrArg Ledger.lifecycle hk').trans hl
  refine ⟨fun hnot => absurd hl' hnot, fun _ => ?_⟩
  have hstart : (M.record cfg ev k').startTick = M.startTick := if_neg fun hnew => hnew.1 hl
  have helapsed : (M.record cfg ev k').elapsed = M.elapsed := by simp [record, hev]
  have hidle : (M.record cfg ev k').idle = M.idle := by simp [record, hev]
  rw [hstart, helapsed, hidle]
  change k'.ledger.Balanced ..
  rw [hk']
  exact (h.balanced hl).switch hsrc hdst hne

/-- A step before the scheduler runs, or the start of it. -/
theorem startup (h : M.Accounts cfg) (hl : M.kernel.lifecycle ≠ .running)
    (hblank : k'.ledger.Blank)
    (hbegun : k'.lifecycle = .running → ∃ c, k'.Begun cfg c) :
    (M.record cfg ev k').Accounts cfg := by
  obtain ⟨-, hzero, hidle⟩ := h.blank hl
  have hev : ev.elapsed cfg M.kernel = 0 := ev.elapsed_eq_zero hl
  have helapsed : (M.record cfg ev k').elapsed = 0 := by simp [record, hev, hzero]
  have hidle : (M.record cfg ev k').idle = 0 := by simp [record, hev, hidle]
  refine ⟨fun _ => ⟨hblank, helapsed, hidle⟩, fun hl' => ?_⟩
  obtain ⟨c, hc⟩ := hbegun hl'
  have hstart : (M.record cfg ev k').startTick = k'.currentTick := if_pos ⟨hl, hl'⟩
  rw [helapsed, hidle, hstart]
  exact hblank.balanced (mem_knownTasks_of_runnable hc.runnable) hc.current hc.started

theorem step (h : M.Accounts cfg) (hs : RtsKernel.Step cfg M.kernel ev k') :
    (M.record cfg ev k').Accounts cfg := by
  obtain ⟨henabled, hrun⟩ := hs
  by_cases hl : M.kernel.lifecycle = .running
  · by_cases hstart : ev.Startup
    · obtain rfl := runEvent_startup_running hstart hl hrun
      refine h.advance hl ?_
      cases ev <;> first | exact hstart.elim | exact (Ledger.advance_zero _).symm
    · cases ev with
      | complete snapshot intact =>
        have hledger := schedulerSwitchComplete_ledger hrun
        split at hledger <;> rename_i hvalid
        · obtain ⟨⟨-, -, -, -, -, -, hne, hsrc, -, hrunnable⟩, -⟩ := hvalid
          exact h.switch hl rfl hsrc (mem_knownTasks_of_runnable hrunnable) hne hledger
        · exact h.advance hl (hledger.trans (Ledger.advance_zero _).symm)
      | _ => exact h.advance hl (runEvent_ledger hrun hstart nofun)
  · have hblank := (h.blank hl).1
    cases ev with
    | init isr port =>
      obtain ⟨_, hret⟩ := exists_ret_of_discard hrun
      exact h.startup hl (leads_blank_init.ret hret hblank)
        fun hl' => absurd hl' (leads_unstarted_init.ret hret hl)
    | taskCreate isr config outHandle stack =>
      obtain ⟨_, hret⟩ := exists_ret_of_discard hrun
      exact h.startup hl (leads_blank_taskCreate.ret hret hblank)
        fun hl' => absurd hl' (leads_unstarted_taskCreate.ret hret hl)
    | start isr tickOk firstTaskOk =>
      obtain ⟨_, hret⟩ := exists_ret_of_discard hrun
      exact h.startup hl (leads_blank_start.ret hret hblank) (start_begun hl hret)
    | complete snapshot intact => exact absurd henabled hl
    | _ =>
      have hledger := runEvent_ledger hrun nofun nofun
      rw [Event.elapsed_eq_zero _ hl] at hledger
      have hsame : k'.ledger = M.kernel.ledger := hledger.trans (Ledger.advance_zero _)
      refine h.startup hl (hsame ▸ hblank) fun hl' => absurd ?_ hl
      exact (congrArg Ledger.lifecycle hsame).symm.trans hl'

end Meter.Accounts

theorem Metered.accounts {M : Meter} (h : Metered cfg M) : M.Accounts cfg := by
  refine Transition.ReachableFrom.invariant (P := Meter.Accounts cfg) h ?_ ?_
  · exact ⟨fun _ => ⟨⟨rfl, rfl, fun _ => rfl⟩, rfl, rfl⟩, nofun⟩
  · rintro M ev M' hM - ⟨hs, hM'⟩
    rw [hM']
    exact hM.step hs

/-! ## The accounting theorem -/

theorem sum_knownTasks (f : TaskId → Tick) :
    ∑ t ∈ knownTasks cfg, f t =
      (∑ i ∈ Finset.range cfg.maxTasks, f (.slot i)) + f .idle + f .timerService := by
  unfold knownTasks
  rw [Finset.sum_union, Finset.sum_image, Finset.sum_pair, add_assoc]
  · exact nofun
  · intro i _ j _ hij
    exact TaskId.slot.inj hij
  · rw [Finset.disjoint_left]
    intro t ht
    obtain ⟨i, -, rfl⟩ := Finset.mem_image.1 ht
    simp

/-- In every run, while the scheduler runs: what all tasks are credited with and the run of the
current task add up to the time since the start; and as long as fewer than `2 ^ 32` ticks have
elapsed, the diagnostics report the ticks that elapsed while the idle task was current, and all the
others as not idle. -/
theorem cpu_time_accounted {M : Meter} (h : Metered cfg M)
    (hrun : M.kernel.lifecycle = .running) :
    (∃ c, M.kernel.currentTask = some c ∧
      (∑ i ∈ Finset.range cfg.maxTasks, (M.kernel.tasks (.slot i)).diagnosticRunningTicks) +
          (M.kernel.tasks .idle).diagnosticRunningTicks +
          (M.kernel.tasks .timerService).diagnosticRunningTicks +
          (M.kernel.currentTick - (M.kernel.tasks c).diagnosticLastStartTick) =
        M.kernel.currentTick - M.startTick) ∧
    (M.elapsed < 2 ^ 32 →
      (diagnosticsSnapshotRead M.kernel).idleTicks.toNat = M.idle ∧
      (diagnosticsSnapshotRead M.kernel).idleTicks.toNat +
        (diagnosticsSnapshotRead M.kernel).nonIdleTicks.toNat = M.elapsed) := by
  have hb := h.accounts.balanced hrun
  obtain ⟨c, -, hc⟩ := hb.known
  refine ⟨⟨c, hc, ?_⟩, fun hlt => ?_⟩
  · have htotal := hb.total c hc
    rw [sum_knownTasks] at htotal
    exact htotal
  · have hidle : diagnosticsIdleTicks M.kernel = BitVec.ofNat 32 M.idle := by
      have htask : M.kernel.idleTask = some .idle :=
        h.reachable.sound.ok.inv.phase.idleTask (by simp [hrun])
      have hidleRun := hb.idleRun
      simp only [diagnosticsIdleTicks, htask, hrun, and_true]
      rw [hidleRun]
      change (if M.kernel.currentTask = some .idle then _ else _) =
        _ + if M.kernel.currentTask = some .idle then _ else _
      split
      · rfl
      · exact (add_zero _).symm
    have hle := hb.idle_le
    have hcounted : M.kernel.counters.schedulerTicks.toNat = min M.elapsed 4294967295 := hb.counted
    have hidleNat : (BitVec.ofNat 32 M.idle).toNat = M.idle := by
      rw [BitVec.toNat_ofNat]
      omega
    have hnot : ¬ M.kernel.counters.schedulerTicks < BitVec.ofNat 32 M.idle := by
      rw [BitVec.lt_def]
      omega
    simp only [diagnosticsSnapshotRead, hidle, if_neg hnot]
    refine ⟨hidleNat, ?_⟩
    rw [BitVec.toNat_sub, hidleNat, hcounted]
    omega

/-- A start that the port refuses first, a task that delays itself, a tick before its switch is
complete, and an idle task that ticks once and sleeps once. -/
def meteredEvents : List Event :=
  bootEvents 1 ++ [.start false false true, .start false true true, .tick true 2, .delay false 3,
    .tick true 1, .acquire, .complete ⟨.slot 0, .idle, 1⟩ true, .tick true 1, .skip false 1]

theorem cpu_time_accounted_idle : ∃ M, Metered sampleConfig M ∧ M.elapsed = 5 ∧ M.idle = 2 ∧
    (diagnosticsSnapshotRead M.kernel).idleTicks.toNat = 2 ∧
    (diagnosticsSnapshotRead M.kernel).idleTicks.toNat +
      (diagnosticsSnapshotRead M.kernel).nonIdleTicks.toNat = 5 := by
  have hrun : (Meter.follow sampleConfig meteredEvents {}).any (fun M =>
      decide (M.kernel.lifecycle = .running ∧ M.elapsed = 5 ∧ M.idle = 2)) = true := by
    decide +kernel
  obtain ⟨M, hM, hl, helapsed, hidle⟩ := exists_metered hrun
  have hreport := (cpu_time_accounted hM hl).2 (by omega)
  rw [helapsed, hidle] at hreport
  exact ⟨M, hM, helapsed, hidle, hreport⟩

end RtsKernel
