import RtsKernel.Model.Run
import RtsKernel.Operation.Preservation

/-!
# The books of a timer

## Main results

* `timer_expirations_accounted`: every expiration of a timer is accounted for, and the deadlines of
  a periodic timer lie on the grid that its last start or restart has fixed.
* `periodic_reload_exact`: the arithmetic of one reload.
-/

namespace RtsKernel

open Halting Prog

variable {cfg : Config} {k k' : Kernel} {ev : Event} {i : Nat}

/-! ## What a step does to one timer -/

/-- The event arms the timer: a start or a restart of it that succeeds. -/
def Event.Arms (cfg : Config) (k : Kernel) (i : Nat) (ev : Event) : Prop :=
  ∃ isr k', ev = .timerStart isr i ∧ RtsKernel.timerStart cfg isr i k = .ret .ok k' ∨
    ev = .timerRestart isr i ∧ RtsKernel.timerRestart cfg isr i k = .ret .ok k'

/-- The event disarms the timer: a stop of it that succeeds. -/
def Event.Disarms (cfg : Config) (k : Kernel) (i : Nat) (ev : Event) : Prop :=
  ∃ isr k', ev = .timerStop isr i ∧ RtsKernel.timerStop cfg isr i k = .ret .ok k'

/-- What a step that does not arm a timer does to it. -/
inductive TimerStep (cfg : Config) (k : Kernel) (ev : Event) (now : Tick) (i : Nat)
    (timer : Timer) : Timer → Prop where
  | same : TimerStep cfg k ev now i timer timer
  | initialised (config : TimerConfig) (free : timer.slotState = .free) :
      TimerStep cfg k ev now i timer (config.timer cfg i)
  | stopped (disarms : ev.Disarms cfg k i) : TimerStep cfg k ev now i timer timer.stopped
  | expired (moved : ev.elapsed cfg k ≠ 0) (active : timer.state = .active)
      (reached : tickReached now timer.expirationTick) :
      TimerStep cfg k ev now i timer (timer.expired now)
  | begun (pending : timer.callbackState = .pending) : TimerStep cfg k ev now i timer timer.begun
  | ended : TimerStep cfg k ev now i timer timer.ended

theorem timerStep_update {now : Tick} {timers : Nat → Timer} {j : Nat} {timer : Timer}
    (h : i = j → TimerStep cfg k ev now i (timers i) timer) :
    TimerStep cfg k ev now i (timers i) (Function.update timers j timer i) := by
  rcases eq_or_ne i j with rfl | hij
  · rw [Function.update_self]
    exact h rfl
  · rw [Function.update_of_ne hij]
    exact .same

theorem Step.timerStep (hs : Step cfg k ev k') (h : Sound cfg k) (hev : ¬ ev.Arms cfg k i) :
    TimerStep cfg k ev k'.currentTick i (k.timers i) (k'.timers i) := by
  have hthread : ev.isr = true ∨ ThreadMayCall k → ev.isr = false → ∀ c, k.currentTask = some c →
      (k.tasks c).state = .running := fun hcall hisr c hc =>
    ThreadMayCall.running h.ok (hcall.resolve_left (by simp [hisr])) hc
  have hother :
      ¬ ev.ControlsTimer → TimerStep cfg k ev k'.currentTick i (k.timers i) (k'.timers i) := by
    intro hctl
    have hrest :
        k'.rest = k.rest → TimerStep cfg k ev k'.currentTick i (k.timers i) (k'.timers i) := by
      intro hrest
      have htimers : k'.timers = k.timers := Kernel.of_rest Kernel.timers hrest
      rw [htimers]
      exact .same
    cases hs.stepped h with
    | starts _ hst =>
      rw [hst.timers]
      exact .same
    | serves _ hsch _ _ => exact hrest hsch.rest
    | gives hg => exact hrest hg.scheduled.rest
    | calls hev _ => exact absurd hev hctl
    | rests hr _ => exact hrest hr.rest
    | advances hmoved _ hadv =>
      obtain hsame | ⟨hact, hreached, hexp⟩ := hadv.timer i
      · rw [hsame]
        exact .same
      · rw [hexp, hadv.tick]
        exact .expired hmoved hact hreached
    | acquires ha => exact hrest ha.rest
    | completes _ hsw => exact hrest hsw.rest
  cases ev with
  | timerInit isr config =>
    obtain ⟨r, hret⟩ := exists_ret_of_discard hs.2
    have hinit := (wp_ret (timerInit_spec h.ok h.timersOk) hret :)
    by_cases hok : r.1 = .ok
    · obtain ⟨j, config', -, -, hfree, htimers⟩ := hinit.done hok
      rw [htimers]
      exact timerStep_update fun hi => hi ▸ .initialised config' (hi ▸ hfree)
    · rw [hinit.failed hok]
      exact .same
  | timerStart isr j =>
    obtain ⟨status, hret⟩ := exists_ret_of_discard hs.2
    have hserved := (wp_ret (timerStart_spec h.ok h.timersOk) hret :)
    by_cases hok : status = .ok
    · rw [hserved.timers hok]
      refine timerStep_update fun hij => absurd ?_ hev
      subst hij hok
      exact ⟨isr, k', .inl ⟨rfl, hret⟩⟩
    · rw [hserved.failed hok]
      exact .same
  | timerRestart isr j =>
    obtain ⟨status, hret⟩ := exists_ret_of_discard hs.2
    have hserved := (wp_ret (timerRestart_spec h.ok h.timersOk (hthread hs.1)) hret :)
    by_cases hok : status = .ok
    · rw [hserved.timers hok]
      refine timerStep_update fun hij => absurd ?_ hev
      subst hij hok
      exact ⟨isr, k', .inr ⟨rfl, hret⟩⟩
    · rw [hserved.failed hok]
      exact .same
  | timerStop isr j =>
    obtain ⟨status, hret⟩ := exists_ret_of_discard hs.2
    have hserved := (wp_ret (timerStop_spec h.ok h.timersOk (hthread hs.1)) hret :)
    by_cases hok : status = .ok
    · rw [hserved.timers hok]
      refine timerStep_update fun hij => ?_
      subst hij hok
      exact .stopped ⟨isr, k', rfl, hret⟩
    · rw [hserved.failed hok]
      exact .same
  | serviceBegin =>
    obtain ⟨_, hret⟩ := exists_ret_of_discard hs.2
    have hbegins := (wp_ret (timerServiceBegin_spec h.ok h.timersOk hs.1.1 hs.1.2) hret :)
    cases hqueue : k.callbackQueue with
    | nil =>
      rw [hbegins.idle hqueue]
      exact .same
    | cons work rest =>
      have hpend := h.timersOk.pending_of_mem (show work ∈ k.callbackQueue by simp [hqueue])
      rw [(hbegins.begun work rest hqueue).2.2.2]
      exact timerStep_update fun hi => hi ▸ .begun (hi ▸ hpend)
  | serviceEnd =>
    obtain ⟨work, hwork⟩ := Option.ne_none_iff_exists'.mp hs.1.2
    have hspec : wp (runEvent cfg .serviceEnd) (fun _ => Ends cfg k work)
        (Tolerated k.CurrentReady k.IdleOwns) k := by
      unfold runEvent
      rw [wp_bind, wp_get, hwork]
      exact timerServiceEnd_spec h.ok h.timersOk hs.1.1 hwork
    rw [(wp_ret hspec hs.2 :).timers]
    exact timerStep_update fun hi => hi ▸ .ended
  | _ => exact hother id

/-! ## Armings -/

/-- The clock and the counters of a timer at the moment it is armed. -/
structure Arming where
  tick : Tick
  expirations : Nat
  missed : Nat
  overruns : Nat

def Timer.arming (timer : Timer) (now : Tick) : Arming where
  tick := now
  expirations := timer.diagnosticExpirationCount.toNat
  missed := timer.diagnosticMissedPeriodCount.toNat
  overruns := timer.diagnosticOverrunCount.toNat

/-- A run, with the last arming of the timer. -/
inductive LastArmed (cfg : Config) (i : Nat) : Kernel → Arming → Prop where
  | arm {k k' : Kernel} {ev : Event} (before : Reachable cfg k) (step : Step cfg k ev k')
      (arms : ev.Arms cfg k i) : LastArmed cfg i k' ((k'.timers i).arming k'.currentTick)
  | step {k k' : Kernel} {ev : Event} {arming : Arming} (before : LastArmed cfg i k arming)
      (step : Step cfg k ev k') (other : ¬ ev.Arms cfg k i) : LastArmed cfg i k' arming

theorem LastArmed.reachable {arming : Arming} (h : LastArmed cfg i k arming) : Reachable cfg k := by
  induction h with
  | arm hk hs _ => exact .tail hk trivial hs
  | step _ hs _ ih => exact .tail ih trivial hs

/-- No counter has reached its limit. -/
structure Timer.Unsaturated (timer : Timer) : Prop where
  expirations : timer.diagnosticExpirationCount ≠ BitVec.allOnes 32
  callbacks : timer.diagnosticCallbackCount ≠ BitVec.allOnes 32
  stale : timer.diagnosticStaleCount ≠ BitVec.allOnes 32
  overruns : timer.diagnosticOverrunCount ≠ BitVec.allOnes 32
  missed : timer.diagnosticMissedPeriodCount ≠ BitVec.allOnes 32

instance (timer : Timer) : Decidable timer.Unsaturated :=
  decidable_of_iff
    (timer.diagnosticExpirationCount ≠ BitVec.allOnes 32 ∧
      timer.diagnosticCallbackCount ≠ BitVec.allOnes 32 ∧
      timer.diagnosticStaleCount ≠ BitVec.allOnes 32 ∧
      timer.diagnosticOverrunCount ≠ BitVec.allOnes 32 ∧
      timer.diagnosticMissedPeriodCount ≠ BitVec.allOnes 32)
    ⟨fun ⟨h1, h2, h3, h4, h5⟩ => ⟨h1, h2, h3, h4, h5⟩,
      fun ⟨h1, h2, h3, h4, h5⟩ => ⟨h1, h2, h3, h4, h5⟩⟩

/-- The deadline of a timer, by its last arming: one period for each expiration since, and one for
each period skipped. -/
def Arming.Fixes (arming : Arming) (timer : Timer) : Prop :=
  ∃ fired skipped : Nat,
    timer.diagnosticExpirationCount.toNat = arming.expirations + fired ∧
    timer.diagnosticMissedPeriodCount.toNat + arming.overruns =
      arming.missed + timer.diagnosticOverrunCount.toNat + skipped ∧
    timer.expirationTick = arming.tick + timer.period * BitVec.ofNat 32 (1 + fired + skipped)

theorem Timer.arming_fixes {timer : Timer} {now : Tick}
    (h : timer.expirationTick = now + timer.period) : (timer.arming now).Fixes timer := by
  refine ⟨0, 0, rfl, ?_, ?_⟩
  · simp only [Timer.arming]
    omega
  · rw [h]
    simp [Timer.arming]

/-- Skipping and expiring move the deadline along the grid. -/
theorem grid_next (tick period skip : Tick) (n : Nat) :
    tick + period * BitVec.ofNat 32 n + (skip + 1) * period =
      tick + period * BitVec.ofNat 32 (n + 1 + skip.toNat) := by
  have hsum : BitVec.ofNat 32 (n + 1 + skip.toNat) = BitVec.ofNat 32 n + (skip + 1) := by
    rw [BitVec.ofNat_add, BitVec.ofNat_add, BitVec.ofNat_toNat, BitVec.setWidth_eq,
      BitVec.add_assoc, BitVec.add_comm skip]
    rfl
  rw [hsum, BitVec.mul_add, BitVec.mul_comm (skip + 1), BitVec.add_assoc]

theorem toNat_increment_of_ne {value : Tick}
    (h : diagnosticCounterIncrement value ≠ BitVec.allOnes 32) :
    (diagnosticCounterIncrement value).toNat = value.toNat + 1 := by
  rw [ne_allOnes_iff] at h
  rw [toNat_diagnosticCounterIncrement] at h ⊢
  omega

theorem toNat_add_of_ne {value increment : Tick}
    (h : diagnosticCounterAdd value increment ≠ BitVec.allOnes 32) :
    (diagnosticCounterAdd value increment).toNat = value.toNat + increment.toNat := by
  rw [ne_allOnes_iff] at h
  rw [toNat_diagnosticCounterAdd] at h ⊢
  omega

/-- A counter that has not saturated now had not saturated before. -/
theorem ne_allOnes_of_increment {value : Tick}
    (h : diagnosticCounterIncrement value ≠ BitVec.allOnes 32) : value ≠ BitVec.allOnes 32 := by
  rintro rfl
  exact h (if_pos rfl)

/-- An expiry moves the deadline by one period, and by one more for each period it skips. -/
theorem Arming.Fixes.expired {arming : Arming} {timer : Timer} {now : Tick} (h : arming.Fixes timer)
    (hmode : timer.mode = .periodic) (hs : (timer.expired now).Unsaturated) :
    arming.Fixes (timer.expired now) := by
  obtain ⟨fired, skipped, hexp, hmissed, htick⟩ := h
  have hnext : timerPeriodicNext timer now = arming.tick + timer.period *
      BitVec.ofNat 32 (1 + (fired + 1) + (skipped + (periodsSkipped timer now).toNat)) := by
    rw [timerPeriodicNext, htick, grid_next]
    congr 3
    omega
  obtain ⟨hs1, -, -, hs4, hs5⟩ := hs
  refine ⟨fired + 1, skipped + (periodsSkipped timer now).toNat, ?_⟩
  by_cases hidle : timer.callbackState = .idle
  · simp only [Timer.expired, Timer.published, Timer.consumed, hidle, if_true, hmode]
      at hs1 hs4 hs5 ⊢
    rw [toNat_increment_of_ne hs1, toNat_add_of_ne hs5]
    exact ⟨by omega, by omega, hnext⟩
  · simp only [Timer.expired, Timer.published, Timer.consumed, hidle, if_false, if_true, hmode]
      at hs1 hs4 hs5 ⊢
    rw [toNat_increment_of_ne hs1, toNat_increment_of_ne hs5, toNat_increment_of_ne hs4,
      toNat_add_of_ne (ne_allOnes_of_increment hs5)]
    exact ⟨by omega, by omega, hnext⟩

theorem ne_allOnes_of_add {value increment : Tick}
    (h : diagnosticCounterAdd value increment ≠ BitVec.allOnes 32) :
    value ≠ BitVec.allOnes 32 := by
  rw [ne_allOnes_iff] at h ⊢
  rw [toNat_diagnosticCounterAdd] at h
  omega

theorem Timer.Unsaturated.of_expired {timer : Timer} {now : Tick}
    (h : (timer.expired now).Unsaturated) : timer.Unsaturated := by
  obtain ⟨h1, h2, h3, h4, h5⟩ := h
  by_cases hidle : timer.callbackState = .idle
  · simp only [Timer.expired, Timer.published, Timer.consumed, hidle, if_true] at h1 h2 h3 h4 h5
    exact ⟨ne_allOnes_of_increment h1, h2, h3, h4, ne_allOnes_of_add h5⟩
  · simp only [Timer.expired, Timer.published, Timer.consumed, hidle, if_false] at h1 h2 h3 h4 h5
    exact ⟨ne_allOnes_of_increment h1, h2, h3, ne_allOnes_of_increment h4,
      ne_allOnes_of_add (ne_allOnes_of_increment h5)⟩

theorem Timer.Unsaturated.of_ended {timer : Timer} (h : timer.ended.Unsaturated) :
    timer.Unsaturated :=
  ⟨h.expirations, ne_allOnes_of_increment h.callbacks, h.stale, h.overruns, h.missed⟩

/-- The record of a timer that has just been armed. -/
theorem Event.Arms.record (ha : ev.Arms cfg k i) (hs : Step cfg k ev k') (h : Sound cfg k) :
    k'.currentTick = k.currentTick ∧ (k'.timers i = (k.timers i).started k.currentTick ∨
      k'.timers i = (k.timers i).restarted k.currentTick) := by
  obtain ⟨isr, k₁, ⟨rfl, hret⟩ | ⟨rfl, hret⟩⟩ := ha
  · obtain ⟨status, hret'⟩ := exists_ret_of_discard hs.2
    obtain ⟨rfl, rfl⟩ : Status.ok = status ∧ k₁ = k' := by
      rw [hret] at hret'
      cases hret'
      exact ⟨rfl, rfl⟩
    have hserved := (wp_ret (timerStart_spec h.ok h.timersOk) hret :)
    refine ⟨hserved.call.tick, .inl ?_⟩
    rw [hserved.timers rfl, Function.update_self]
  · obtain ⟨status, hret'⟩ := exists_ret_of_discard hs.2
    obtain ⟨rfl, rfl⟩ : Status.ok = status ∧ k₁ = k' := by
      rw [hret] at hret'
      cases hret'
      exact ⟨rfl, rfl⟩
    have hthread : isr = false → ∀ c, k.currentTask = some c → (k.tasks c).state = .running :=
      fun hisr c hc => ThreadMayCall.running h.ok (hs.1.resolve_left (by simp [Event.isr, hisr])) hc
    have hserved := (wp_ret (timerRestart_spec h.ok h.timersOk hthread) hret :)
    refine ⟨hserved.call.tick, .inr ?_⟩
    rw [hserved.timers rfl, Function.update_self]

/-- A timer that has just been armed is active and due after one period. -/
theorem Event.Arms.armed (ha : ev.Arms cfg k i) (hs : Step cfg k ev k') (h : Sound cfg k) :
    (k'.timers i).state = .active ∧
      (k'.timers i).expirationTick = k'.currentTick + (k'.timers i).period := by
  obtain ⟨htick, hrec | hrec⟩ := ha.record hs h
  · rw [htick, hrec]
    exact ⟨rfl, rfl⟩
  · have hperiod : ((k.timers i).restarted k.currentTick).period = (k.timers i).period := by
      simp only [Timer.restarted, Timer.purge]
      split <;> rfl
    rw [htick, hrec, hperiod]
    exact ⟨rfl, rfl⟩

theorem LastArmed.fixes {arming : Arming} (h : LastArmed cfg i k arming)
    (hact : (k.timers i).state = .active) (hmode : (k.timers i).mode = .periodic)
    (hs : (k.timers i).Unsaturated) : arming.Fixes (k.timers i) := by
  induction h with
  | arm hk hstep harms => exact Timer.arming_fixes (harms.armed hstep hk.sound).2
  | @step k k' ev arming hk hstep hother ih =>
    have hmove := hstep.timerStep hk.reachable.sound hother
    generalize k'.timers i = timer' at hmove hact hmode hs
    cases hmove with
    | same => exact ih hact hmode hs
    | initialised config _ => exact absurd hact (by simp [TimerConfig.timer])
    | stopped _ => exact absurd hact (by simp [Timer.stopped])
    | expired _ hold _ =>
      have hmode' : (k.timers i).mode = .periodic := by
        rw [← hmode]
        simp only [Timer.expired, Timer.published]
        split <;> rfl
      exact (ih hold hmode' hs.of_expired).expired hmode' hs
    | begun _ =>
      exact ih hact hmode ⟨hs.expirations, hs.callbacks, hs.stale, hs.overruns, hs.missed⟩
    | ended => exact ih hact hmode hs.of_ended

/-- Every expiration was called back, dropped as stale, coalesced into a callback that was due, or
its callback is due or under way; and the deadline of an active periodic timer is its last arming
plus one period for the next expiration, for each expiration since and for each period skipped. -/
theorem timer_expirations_accounted (h : Reachable cfg k) (i : Nat)
    (hs : (k.timers i).Unsaturated) :
    (k.timers i).diagnosticExpirationCount.toNat = (k.timers i).diagnosticCallbackCount.toNat +
      (k.timers i).diagnosticStaleCount.toNat + (k.timers i).diagnosticOverrunCount.toNat +
      (if (k.timers i).callbackState = .idle then 0 else 1) ∧
    ∀ arming, LastArmed cfg i k arming → (k.timers i).state = .active →
      (k.timers i).mode = .periodic → arming.Fixes (k.timers i) := by
  refine ⟨?_, fun arming harmed hact hmode => harmed.fixes hact hmode hs⟩
  cases h.sound.timersOk.slot i with
  | unused hfresh => simp [hfresh]
  | used _ hbal => exact hbal hs.expirations

/-- A periodic timer of five ticks that has been armed by the running task and has expired in time,
then late by two periods with its callback still due. -/
theorem timer_expirations_accounted_late : ∃ (k : Kernel) (arming : Arming),
    LastArmed sampleConfig 0 k arming ∧ (k.timers 0).diagnosticExpirationCount = 2 ∧
    (k.timers 0).diagnosticMissedPeriodCount = 3 ∧ arming.Fixes (k.timers 0) ∧
    (k.timers 0).diagnosticExpirationCount.toNat = (k.timers 0).diagnosticCallbackCount.toNat +
      (k.timers 0).diagnosticStaleCount.toNat + (k.timers 0).diagnosticOverrunCount.toNat +
      (if (k.timers 0).callbackState = .idle then 0 else 1) := by
  have hrun : (execute sampleConfig (fun _ _ => True)
      (bootEvents 1 ++ [.timerInit false (some ⟨1, 5, .periodic⟩), .start false true true])
      resetKernel).any (fun k => decide (
        (RtsKernel.timerStart sampleConfig false 0 k).value? = some .ok ∧
        (execute sampleConfig (fun _ _ => True) [.timerStart false 0] k).any (fun k₁ => decide (
          (execute sampleConfig (fun _ _ => True) [.tick true 5] k₁).any (fun k₂ => decide (
            (execute sampleConfig (fun _ _ => True) [.tick true 16] k₂).any (fun k₃ => decide (
              (k₃.timers 0).Unsaturated ∧ (k₃.timers 0).diagnosticExpirationCount = 2 ∧
              (k₃.timers 0).diagnosticMissedPeriodCount = 3 ∧ (k₃.timers 0).state = .active ∧
              (k₃.timers 0).mode = .periodic)) = true)) = true)) = true)) = true := by
    decide +kernel
  obtain ⟨k, hreach, hok, h₁⟩ := exists_reachable hrun
  obtain ⟨k₁, hstart, h₂⟩ := exists_step h₁
  obtain ⟨k₂, htick, h₃⟩ := exists_step h₂
  obtain ⟨k₃, hlate, hs, hexp, hmissed, hact, hmode⟩ := exists_step h₃
  have hother : ∀ (k : Kernel) elapsed, ¬ (Event.tick true elapsed).Arms sampleConfig k 0 := by
    rintro k elapsed ⟨isr, k', ⟨hev, -⟩ | ⟨hev, -⟩⟩ <;> cases hev
  have harmed : LastArmed sampleConfig 0 k₁ ((k₁.timers 0).arming k₁.currentTick) :=
    .arm hreach hstart ⟨false, _, .inl ⟨rfl, Outcome.eq_ret hok⟩⟩
  have hlast := (harmed.step htick (hother k₁ 5)).step hlate (hother k₂ 16)
  obtain ⟨hbalance, hfixes⟩ := timer_expirations_accounted hlast.reachable 0 hs
  exact ⟨k₃, _, hlast, hexp, hmissed, hfixes _ hlast hact hmode, hbalance⟩

/-! ## The reload of a periodic timer -/

/-- The reload of a periodic timer that is late by less than half a range: the number of periods
skipped is the number of whole periods since the deadline, nothing overflows, and the next deadline
is the first multiple of the period strictly after now, at most one period away. -/
theorem periodic_reload_exact (timer : Timer) (now : Tick)
    (hlate : distance timer.expirationTick now < 2 ^ 31) (hp : 1 ≤ timer.period.toNat)
    (hmax : timer.period.toNat ≤ 0x7fffffff) :
    (periodsSkipped timer now).toNat =
      distance timer.expirationTick now / timer.period.toNat ∧
    ((periodsSkipped timer now).toNat + 1) * timer.period.toNat < 2 ^ 32 ∧
    timerPeriodicNext timer now = timer.expirationTick +
      BitVec.ofNat 32 (((periodsSkipped timer now).toNat + 1) * timer.period.toNat) ∧
    1 ≤ distance now (timerPeriodicNext timer now) ∧
    distance now (timerPeriodicNext timer now) ≤ timer.period.toNat ∧
    ∀ n : Nat, distance timer.expirationTick now < n * timer.period.toNat ↔
      (periodsSkipped timer now).toNat + 1 ≤ n := by
  have hmax' : timer.period ≤ delayMax := BitVec.le_def.mpr hmax
  have hne : timer.period ≠ 0 := by
    intro hz
    simp [hz] at hp
  obtain ⟨hreload, hbound⟩ := toNat_reload hlate hp (by omega)
  obtain ⟨hpos, hle⟩ := distance_timerPeriodicNext ((tickReached_iff _ _).mpr hlate) hne hmax'
  refine ⟨toNat_periodsSkipped timer now, by omega, ?_, hpos, hle, late_lt_iff hp⟩
  rw [← hreload, BitVec.ofNat_toNat, BitVec.setWidth_eq]
  rfl

/-- A timer of three ticks that is seven ticks late, across the wrap of the tick. -/
theorem periodic_reload_exact_wrapped :
    distance 0xfffffffe 5 = 7 ∧
    timerPeriodicNext { period := 3, expirationTick := 0xfffffffe } 5 = 7 ∧
    1 ≤ distance 5 (timerPeriodicNext { period := 3, expirationTick := 0xfffffffe } 5) := by
  refine ⟨by decide, by decide, ?_⟩
  exact (periodic_reload_exact { period := 3, expirationTick := 0xfffffffe } 5 (by decide)
    (by decide) (by decide)).2.2.2.1

end RtsKernel
