import RtsKernel.Invariant.State
import RtsKernel.Model.Timer

/-!
# The software timers

`TimersOk` is kept by every operation. That the active queue is ordered and that no active timer is
overdue (`Kernel.Ahead`) is a separate property: the expiry of several timers in one advance can
break it.
-/

namespace RtsKernel

variable {cfg : Config} {base now : Tick} {k k' : Kernel} {i j : Nat}

/-! ## Periodic deadlines -/

theorem toNat_periodsSkipped (timer : Timer) (now : Tick) : (periodsSkipped timer now).toNat =
    distance timer.expirationTick now / timer.period.toNat := BitVec.toNat_udiv

/-- The reload of a timer that is late by less than half a range does not overflow. -/
theorem toNat_reload {timer : Timer} (hlate : distance timer.expirationTick now < 2 ^ 31)
    (hp : 1 ≤ timer.period.toNat) (hmax : timer.period.toNat < 2 ^ 31) :
    ((periodsSkipped timer now + 1) * timer.period).toNat =
      ((periodsSkipped timer now).toNat + 1) * timer.period.toNat ∧
    ((periodsSkipped timer now).toNat + 1) * timer.period.toNat ≤
      distance timer.expirationTick now + timer.period.toNat := by
  have hquot := toNat_periodsSkipped timer now
  have hle := Nat.div_le_self (distance timer.expirationTick now) timer.period.toNat
  have hmul := Nat.div_mul_le_self (distance timer.expirationTick now) timer.period.toNat
  rw [← hquot] at hle hmul
  have hskip : (periodsSkipped timer now + 1).toNat = (periodsSkipped timer now).toNat + 1 := by
    bv_omega
  have hbound : ((periodsSkipped timer now).toNat + 1) * timer.period.toNat ≤
      distance timer.expirationTick now + timer.period.toNat := by
    rw [Nat.succ_mul]
    omega
  refine ⟨?_, hbound⟩
  rw [BitVec.toNat_mul, hskip]
  exact Nat.mod_eq_of_lt (by omega)

/-- The reload is the first multiple of the period that is not reached yet. -/
theorem late_lt_iff {timer : Timer} (hp : 1 ≤ timer.period.toNat) (n : Nat) :
    distance timer.expirationTick now < n * timer.period.toNat ↔
      (periodsSkipped timer now).toNat + 1 ≤ n := by
  rw [Nat.succ_le_iff, toNat_periodsSkipped, Nat.div_lt_iff_lt_mul hp]

/-- The next deadline of a periodic timer is ahead by at most one period. -/
theorem distance_timerPeriodicNext {timer : Timer} (hreached : tickReached now timer.expirationTick)
    (hp : timer.period ≠ 0) (hmax : timer.period ≤ delayMax) :
    1 ≤ distance now (timerPeriodicNext timer now) ∧
    distance now (timerPeriodicNext timer now) ≤ timer.period.toNat := by
  rw [tickReached_iff] at hreached
  have hpos : 0 < timer.period.toNat :=
    Nat.pos_of_ne_zero fun hz => hp (BitVec.eq_of_toNat_eq (by simpa using hz))
  have hlt := toNat_le_of_le_delayMax hmax
  obtain ⟨hadd, hbound⟩ := toNat_reload hreached hpos hlt
  have hlate : distance timer.expirationTick now <
      ((periodsSkipped timer now).toNat + 1) * timer.period.toNat := (late_lt_iff hpos _).mpr le_rfl
  have hdist : distance now (timerPeriodicNext timer now) =
      ((periodsSkipped timer now + 1) * timer.period).toNat -
        distance timer.expirationTick now := by
    unfold timerPeriodicNext
    generalize (periodsSkipped timer now + 1) * timer.period = d at hadd
    unfold distance at *
    bv_omega
  omega

theorem not_tickReached_of_inWindow {deadline : Tick} (h : InWindow now deadline) :
    ¬ tickReached now deadline := by
  obtain ⟨hpos, hlt⟩ := h
  rw [tickReached_iff]
  unfold distance at *
  bv_omega

/-! ## One timer -/

/-- A timer that `rts_timer_init` has set up in its slot. -/
structure TimerSet (cfg : Config) (i : Nat) (timer : Timer) : Prop where
  slotState : timer.slotState = .allocated
  index_lt : i < cfg.maxTimers
  slotIndex : timer.slotIndex = i
  callback : timer.callback ≠ 0
  period : timer.period ≠ 0 ∧ timer.period ≤ delayMax
  state : timer.state ≠ .uninitialized
  magic : cfg.enableAssertions = true → timer.validationMagic = timerValidationMagic

/-- Every counted expiration was called back, dropped or coalesced, or its callback is due or under
way. -/
def Timer.Balanced (timer : Timer) : Prop :=
  timer.diagnosticExpirationCount ≠ BitVec.allOnes 32 →
    timer.diagnosticExpirationCount.toNat = timer.diagnosticCallbackCount.toNat +
      timer.diagnosticStaleCount.toNat + timer.diagnosticOverrunCount.toNat +
      if timer.callbackState = .idle then 0 else 1

/-- A slot is as the manager initialised it, or holds a timer whose books balance. -/
inductive TimerOk (cfg : Config) (i : Nat) (timer : Timer) : Prop where
  | unused (fresh : timer = { slotIndex := i })
  | used (set : TimerSet cfg i timer) (balanced : timer.Balanced)

theorem TimerOk.set {timer : Timer} (h : TimerOk cfg i timer) (hne : timer ≠ { slotIndex := i }) :
    TimerSet cfg i timer := by
  cases h with
  | unused fresh => exact absurd fresh hne
  | used set _ => exact set

theorem TimerOk.set_of_allocated {timer : Timer} (h : TimerOk cfg i timer)
    (hs : timer.slotState = .allocated) : TimerSet cfg i timer := by
  refine h.set ?_
  rintro rfl
  simp at hs

theorem TimerOk.set_of_active {timer : Timer} (h : TimerOk cfg i timer)
    (hs : timer.state = .active) : TimerSet cfg i timer := by
  refine h.set ?_
  rintro rfl
  simp at hs

theorem TimerOk.set_of_callback {timer : Timer} (h : TimerOk cfg i timer)
    (hs : timer.callbackState ≠ .idle) : TimerSet cfg i timer := by
  refine h.set ?_
  rintro rfl
  simp at hs

theorem TimerOk.unused_of_free {timer : Timer} (h : TimerOk cfg i timer)
    (hs : timer.slotState ≠ .allocated) : timer = { slotIndex := i } := by
  cases h with
  | unused fresh => exact fresh
  | used set _ => exact absurd set.slotState hs

/-! ## The invariant -/

/-- The timer service is inside the callback of a timer. -/
def Kernel.Serves (k : Kernel) (i : Nat) : Prop :=
  ∃ work, k.serviceWork = some work ∧ work.timer = i

/-- The number of slots in use. -/
def Kernel.timersInUse (cfg : Config) (k : Kernel) : Nat :=
  (List.range cfg.maxTimers).countP fun i => (k.timers i).slotState = .allocated

/-- The active queue holds the active timers, and the callback queue one work item, of the current
generation, for every timer whose callback is pending; the running callback is the one in service,
and a blocked service has no work. -/
structure TimersOk (cfg : Config) (k : Kernel) : Prop where
  slot : ∀ i, TimerOk cfg i (k.timers i)
  fresh : k.lifecycle = .reset → ∀ i, k.timers i = { slotIndex := i }
  nodup : k.activeQueue.Nodup
  mem : ∀ i, i ∈ k.activeQueue ↔ (k.timers i).state = .active
  pending : ∀ i, timerCallbackQueueCountFor k i =
    if (k.timers i).callbackState = .pending then 1 else 0
  generation : ∀ work ∈ k.callbackQueue, work.generation = (k.timers work.timer).generation
  running : ∀ i, (k.timers i).callbackState = .running ↔ k.Serves i
  work : (k.tasks .timerService).state = .blocked → k.callbackQueue = []
  depth : k.callbackQueue.length ≤ k.callbackQueueMaximumDepth ∧
    k.callbackQueueMaximumDepth ≤ cfg.timerCallbackQueueCapacity
  hint : k.timerNextFreeHint < cfg.maxTimers
  inUse : k.timerAllocatedCount = k.timersInUse cfg

theorem TimersOk.pending_of_mem (h : TimersOk cfg k) {work : CallbackWork}
    (hw : work ∈ k.callbackQueue) : (k.timers work.timer).callbackState = .pending := by
  by_contra hne
  have hcount := h.pending work.timer
  rw [if_neg hne, timerCallbackQueueCountFor, List.countP_eq_zero] at hcount
  simpa using hcount work hw

theorem TimersOk.nodup_timers (h : TimersOk cfg k) :
    (k.callbackQueue.map CallbackWork.timer).Nodup := by
  rw [List.nodup_iff_count_le_one]
  intro i
  have hcount := h.pending i
  have heq : (k.callbackQueue.map CallbackWork.timer).count i = timerCallbackQueueCountFor k i := by
    unfold timerCallbackQueueCountFor
    rw [List.count, List.countP_map]
    refine List.countP_congr fun work _ => ?_
    simp
  rw [heq, hcount]
  split <;> omega

/-- There is room for the work of a timer that has none. -/
theorem TimersOk.room (h : TimersOk cfg k) (hi : TimerSet cfg i (k.timers i))
    (hidle : (k.timers i).callbackState ≠ .pending) :
    k.callbackQueue.length < cfg.timerCallbackQueueCapacity := by
  have hsub :
      (k.callbackQueue.map CallbackWork.timer).Subperm ((List.range cfg.maxTimers).erase i) := by
    refine List.subperm_of_subset h.nodup_timers fun j hj => ?_
    obtain ⟨work, hw, rfl⟩ := List.mem_map.mp hj
    have hpend := h.pending_of_mem hw
    have hset := (h.slot work.timer).set_of_callback (by simp [hpend])
    refine (List.nodup_range.mem_erase_iff).mpr ⟨?_, List.mem_range.mpr hset.index_lt⟩
    rintro rfl
    exact hidle hpend
  have hlen := hsub.length_le
  have hmem : i ∈ List.range cfg.maxTimers := List.mem_range.mpr hi.index_lt
  rw [List.length_map, List.length_erase_of_mem hmem, List.length_range] at hlen
  have hpos := hi.index_lt
  have hcap := cfg.capacity_le
  omega

theorem TimersOk.activeQueue_length (h : TimersOk cfg k) :
    k.activeQueue.length ≤ cfg.maxTimers := by
  have hsub : k.activeQueue.Subperm (List.range cfg.maxTimers) := by
    refine List.subperm_of_subset h.nodup fun j hj => ?_
    exact List.mem_range.mpr ((h.slot j).set_of_active ((h.mem j).mp hj)).index_lt
  simpa using hsub.length_le

/-- The stored expiration ticks. -/
abbrev Kernel.expiration (k : Kernel) : Nat → Tick := fun i => (k.timers i).expirationTick

/-- Every active timer expires in the future, by less than a half range, and the active queue is
ordered by what remains. -/
structure Kernel.Ahead (k : Kernel) : Prop where
  window : ∀ i ∈ k.activeQueue, InWindow k.currentTick (k.expiration i)
  sorted : k.activeQueue.Pairwise fun i j =>
    distance k.currentTick (k.expiration i) ≤ distance k.currentTick (k.expiration j)

/-- The service holds no callback while it is blocked. -/
def Kernel.Unsuspended (k : Kernel) : Prop :=
  (k.tasks .timerService).state = .blocked → ∀ i, (k.timers i).callbackState ≠ .running

theorem TimersOk.congr (h : TimersOk cfg k) (hrest : k'.rest = k.rest)
    (hservice : (k'.tasks .timerService).state = .blocked →
      (k.tasks .timerService).state = .blocked ∨ k.callbackQueue = []) : TimersOk cfg k' := by
  have hlife : k'.lifecycle = k.lifecycle := Kernel.of_rest Kernel.lifecycle hrest
  have htimers : k'.timers = k.timers := Kernel.of_rest Kernel.timers hrest
  have hactive : k'.activeQueue = k.activeQueue := Kernel.of_rest Kernel.activeQueue hrest
  have hqueue : k'.callbackQueue = k.callbackQueue := Kernel.of_rest Kernel.callbackQueue hrest
  have hwork : k'.serviceWork = k.serviceWork := Kernel.of_rest Kernel.serviceWork hrest
  have hdepth : k'.callbackQueueMaximumDepth = k.callbackQueueMaximumDepth :=
    Kernel.of_rest Kernel.callbackQueueMaximumDepth hrest
  have hhint : k'.timerNextFreeHint = k.timerNextFreeHint :=
    Kernel.of_rest Kernel.timerNextFreeHint hrest
  have hcount : k'.timerAllocatedCount = k.timerAllocatedCount :=
    Kernel.of_rest Kernel.timerAllocatedCount hrest
  constructor
  · simpa only [htimers] using h.slot
  · simpa only [htimers, hlife] using h.fresh
  · simpa only [hactive] using h.nodup
  · simpa only [hactive, htimers] using h.mem
  · simpa only [timerCallbackQueueCountFor, hqueue, htimers] using h.pending
  · simpa only [hqueue, htimers] using h.generation
  · simpa only [htimers, Kernel.Serves, hwork] using h.running
  · rw [hqueue]
    exact fun hb => (hservice hb).elim h.work id
  · simpa only [hqueue, hdepth] using h.depth
  · simpa only [hhint] using h.hint
  · simpa only [hcount, Kernel.timersInUse, htimers] using h.inUse

theorem Kernel.Ahead.congr (h : k.Ahead) (hrest : k'.rest = k.rest) : k'.Ahead := by
  have htimers : k'.timers = k.timers := Kernel.of_rest Kernel.timers hrest
  have hactive : k'.activeQueue = k.activeQueue := Kernel.of_rest Kernel.activeQueue hrest
  have htick : k'.currentTick = k.currentTick := Kernel.of_rest Kernel.currentTick hrest
  obtain ⟨h1, h2⟩ := h
  refine ⟨?_, ?_⟩
  · simpa only [Kernel.expiration, htimers, hactive, htick] using h1
  · simpa only [Kernel.expiration, htimers, hactive, htick] using h2

/-- The validator of the timer manager accepts the invariant as long as the active queue is
ordered. -/
theorem TimersOk.validate (h : TimersOk cfg k) (ha : k.Ahead) : TimerManagerValidate cfg k := by
  intro _
  have hcap := cfg.capacity_le
  obtain ⟨hlen, hdepth⟩ := h.depth
  have hcount : k.timerAllocatedCount ≤ cfg.maxTimers := by
    rw [h.inUse]
    exact List.countP_le_length.trans_eq List.length_range
  refine ⟨h.hint, hcount, ⟨fun i hi => (h.mem i).mp hi, ?_, h.activeQueue_length⟩,
    ⟨hlen.trans hdepth, hlen, hdepth⟩, fun work hw => ?_, fun i _ => ?_, h.inUse.symm⟩
  · refine (ha.sorted.imp_of_mem fun {i j} hi hj hle => ?_).isChain
    rw [tickBefore_iff_of_window (ha.window j hj).2 (ha.window i hi).2]
    exact not_lt.mpr hle
  · have hpend := h.pending_of_mem hw
    have hset := (h.slot work.timer).set_of_callback (by simp [hpend])
    refine ⟨⟨hset.index_lt, hset.slotState⟩, hpend, h.generation work hw, ?_⟩
    rw [h.pending, if_pos hpend]
  · have hmem := h.mem i
    have hpend := h.pending i
    unfold TimerSlotIsValid
    cases h.slot i with
    | unused fresh =>
      rw [fresh] at hmem hpend ⊢
      exact ⟨rfl, by simpa using hmem, by simpa using hpend⟩
    | used set _ =>
      rw [set.slotState]
      exact ⟨set.slotIndex, set.callback, set.period.1, set.period.2, set.state, hmem, hpend,
        set.magic⟩

/-! ## What an event does to one timer -/

theorem ne_allOnes_iff {value : Tick} : value ≠ BitVec.allOnes 32 ↔ value.toNat < 4294967295 := by
  rw [ne_eq, BitVec.toNat_inj.symm, BitVec.toNat_allOnes]
  omega

theorem toNat_diagnosticCounterIncrement (value : Tick) :
    (diagnosticCounterIncrement value).toNat = min (value.toNat + 1) 4294967295 := by
  unfold diagnosticCounterIncrement
  split <;> rename_i hv
  · simp [hv]
  · have hlt := ne_allOnes_iff.mp hv
    rw [BitVec.toNat_add]
    simp only [BitVec.reduceToNat]
    omega

theorem toNat_diagnosticCounterAdd (value increment : Tick) :
    (diagnosticCounterAdd value increment).toNat =
      min (value.toNat + increment.toNat) 4294967295 := by
  have hsub : (BitVec.allOnes 32 - value).toNat = 4294967295 - value.toNat := by
    rw [BitVec.toNat_sub, BitVec.toNat_allOnes]
    omega
  have hlt := value.isLt
  have hlt' := increment.isLt
  unfold diagnosticCounterAdd
  split <;> rename_i hv
  · rw [BitVec.lt_def, hsub] at hv
    rw [BitVec.toNat_allOnes]
    omega
  · rw [BitVec.lt_def, hsub] at hv
    rw [BitVec.toNat_add]
    omega

namespace Timer

/-- A pending callback is dropped. -/
def purge (timer : Timer) : Timer :=
  if timer.callbackState = .pending then
    { timer with
      callbackState := .idle
      diagnosticStaleCount := diagnosticCounterIncrement timer.diagnosticStaleCount }
  else timer

/-- A timer that `rts_timer_start` has armed. -/
def started (now : Tick) (timer : Timer) : Timer :=
  { timer with
    expirationTick := now + timer.period
    state := .active
    diagnosticStartCount := diagnosticCounterIncrement timer.diagnosticStartCount }

/-- A timer that `rts_timer_restart` has armed. -/
def restarted (now : Tick) (timer : Timer) : Timer :=
  { timer.purge with
    generation := timer.generation + 1
    expirationTick := now + timer.period
    state := .active
    diagnosticRestartCount := diagnosticCounterIncrement timer.diagnosticRestartCount }

/-- A timer that `rts_timer_stop` has stopped. -/
def stopped (timer : Timer) : Timer :=
  { timer.purge with
    generation := timer.generation + 1
    state := .stopped
    diagnosticStopCount := diagnosticCounterIncrement timer.diagnosticStopCount }

/-- The deadline of a timer is consumed. -/
def consumed (now : Tick) (timer : Timer) : Timer :=
  { timer with
    lastExpirationTick := timer.expirationTick
    expirationTick :=
      if timer.mode = .periodic then timerPeriodicNext timer now else timer.expirationTick
    state := if timer.mode = .periodic then .active else .stopped
    diagnosticExpirationCount := diagnosticCounterIncrement timer.diagnosticExpirationCount
    diagnosticMissedPeriodCount := diagnosticCounterAdd timer.diagnosticMissedPeriodCount
      (if timer.mode = .periodic then periodsSkipped timer now else 0) }

/-- The expiration of a timer is published, or coalesced with the one before. -/
def published (timer : Timer) : Timer :=
  if timer.callbackState = .idle then
    { timer with expirationSequence := timer.expirationSequence + 1, callbackState := .pending }
  else
    { timer with
      diagnosticOverrunCount := diagnosticCounterIncrement timer.diagnosticOverrunCount
      diagnosticMissedPeriodCount :=
        diagnosticCounterIncrement timer.diagnosticMissedPeriodCount }

/-- The callback of a timer has begun. -/
def begun (timer : Timer) : Timer := { timer with callbackState := .running }

/-- The callback of a timer has returned. -/
def ended (timer : Timer) : Timer :=
  { timer with
    callbackState := .idle
    diagnosticCallbackCount := diagnosticCounterIncrement timer.diagnosticCallbackCount }

end Timer

/-- The timer `rts_timer_init` sets up. -/
def TimerConfig.timer (cfg : Config) (config : TimerConfig) (i : Nat) : Timer where
  slotIndex := i
  period := config.period
  callback := config.callback
  mode := config.mode
  state := .stopped
  generation := 1
  slotState := .allocated
  validationMagic := if cfg.enableAssertions = true then timerValidationMagic else 0

/-- What one event may do to the timer in slot `i`, with the clock at `now` after it. -/
inductive TimerMove (cfg : Config) (now : Tick) (i : Nat) (timer : Timer) : Timer → Prop where
  | same : TimerMove cfg now i timer timer
  | initialised (config : TimerConfig) (valid : config.IsValid) (index_lt : i < cfg.maxTimers)
      (fresh : timer = { slotIndex := i }) : TimerMove cfg now i timer (config.timer cfg i)
  | started (set : TimerSet cfg i timer) (stopped : timer.state = .stopped)
      (idle : timer.callbackState = .idle) : TimerMove cfg now i timer (timer.started now)
  | restarted (set : TimerSet cfg i timer) : TimerMove cfg now i timer (timer.restarted now)
  | stopped (set : TimerSet cfg i timer) : TimerMove cfg now i timer timer.stopped
  | expired (set : TimerSet cfg i timer) (active : timer.state = .active)
      (reached : tickReached now timer.expirationTick) :
      TimerMove cfg now i timer (timer.consumed now).published
  | begun (set : TimerSet cfg i timer) (pending : timer.callbackState = .pending) :
      TimerMove cfg now i timer timer.begun
  | ended (set : TimerSet cfg i timer) (running : timer.callbackState = .running) :
      TimerMove cfg now i timer timer.ended

/-- The fields `rts_timer_init` sets for good. -/
structure Timer.SameSetup (a b : Timer) : Prop where
  slotState : b.slotState = a.slotState
  slotIndex : b.slotIndex = a.slotIndex
  callback : b.callback = a.callback
  period : b.period = a.period
  mode : b.mode = a.mode
  validationMagic : b.validationMagic = a.validationMagic

theorem TimerSet.of_sameSetup {a b : Timer} (h : TimerSet cfg i a) (hab : a.SameSetup b)
    (hs : b.state ≠ .uninitialized) : TimerSet cfg i b where
  slotState := hab.slotState.trans h.slotState
  index_lt := h.index_lt
  slotIndex := hab.slotIndex.trans h.slotIndex
  callback := hab.callback ▸ h.callback
  period := hab.period ▸ h.period
  state := hs
  magic ha := hab.validationMagic.trans (h.magic ha)

theorem Timer.purge_sameSetup (timer : Timer) : timer.SameSetup timer.purge := by
  unfold Timer.purge
  split <;> exact ⟨rfl, rfl, rfl, rfl, rfl, rfl⟩

theorem Timer.published_sameSetup (timer : Timer) : timer.SameSetup timer.published := by
  unfold Timer.published
  split <;> exact ⟨rfl, rfl, rfl, rfl, rfl, rfl⟩

theorem Timer.published_state (timer : Timer) : timer.published.state = timer.state := by
  unfold Timer.published
  split <;> rfl

theorem Timer.Balanced.purge {timer : Timer} (h : timer.Balanced) : timer.purge.Balanced := by
  unfold Timer.purge
  split <;> rename_i hpend
  · intro hne
    have hold := h hne
    simp only [hpend, reduceCtorEq, if_false] at hold
    have hlt := ne_allOnes_iff.mp hne
    simp only [toNat_diagnosticCounterIncrement, if_true] at hlt ⊢
    omega
  · exact h

/-- An expiration is counted once, whether it is published or coalesced. -/
theorem Timer.Balanced.expired {timer : Timer} (h : timer.Balanced) :
    (timer.consumed now).published.Balanced := by
  intro hne
  have hexp : (timer.consumed now).published.diagnosticExpirationCount =
      diagnosticCounterIncrement timer.diagnosticExpirationCount := by
    unfold Timer.published
    split <;> rfl
  have hlt := ne_allOnes_iff.mp hne
  rw [hexp, toNat_diagnosticCounterIncrement] at hlt ⊢
  have hold := h (ne_allOnes_iff.mpr (by omega))
  unfold Timer.published
  by_cases hidle : timer.callbackState = .idle
  · simp only [Timer.consumed, hidle, if_true] at hold ⊢
    simp only [reduceCtorEq, if_false]
    omega
  · simp only [Timer.consumed, hidle, if_false] at hold ⊢
    simp only [toNat_diagnosticCounterIncrement]
    omega

theorem Timer.Balanced.ended {timer : Timer} (h : timer.Balanced)
    (hrun : timer.callbackState = .running) : timer.ended.Balanced := by
  intro hne
  have hold := h hne
  simp only [hrun, reduceCtorEq, if_false] at hold
  have hlt : timer.diagnosticExpirationCount.toNat < 4294967295 := ne_allOnes_iff.mp hne
  simp only [Timer.ended, toNat_diagnosticCounterIncrement, if_true]
  omega

theorem TimerMove.ok {a b : Timer} (h : TimerMove cfg now i a b) (ha : TimerOk cfg i a) :
    TimerOk cfg i b := by
  have hbal : TimerSet cfg i a → a.Balanced := fun hs => by
    cases ha with
    | unused fresh => simp [fresh, Timer.Balanced]
    | used _ balanced => exact balanced
  cases h with
  | same => exact ha
  | initialised config valid index_lt fresh =>
    refine .used ⟨rfl, index_lt, rfl, valid.1, valid.2, by simp [TimerConfig.timer],
      fun he => ?_⟩ ?_
    · simp [TimerConfig.timer, he]
    · simp [Timer.Balanced, TimerConfig.timer]
  | started set _ idle =>
    exact .used (set.of_sameSetup ⟨rfl, rfl, rfl, rfl, rfl, rfl⟩ (by simp [Timer.started]))
      (hbal set)
  | restarted set =>
    have hp := a.purge_sameSetup
    refine .used (set.of_sameSetup ?_ (by simp [Timer.restarted])) (hbal set).purge
    exact ⟨hp.slotState, hp.slotIndex, hp.callback, hp.period, hp.mode, hp.validationMagic⟩
  | stopped set =>
    have hp := a.purge_sameSetup
    refine .used (set.of_sameSetup ?_ (by simp [Timer.stopped])) (hbal set).purge
    exact ⟨hp.slotState, hp.slotIndex, hp.callback, hp.period, hp.mode, hp.validationMagic⟩
  | expired set _ _ =>
    have hp := (a.consumed now).published_sameSetup
    refine .used (set.of_sameSetup ?_ ?_) (hbal set).expired
    · exact ⟨hp.slotState, hp.slotIndex, hp.callback, hp.period, hp.mode, hp.validationMagic⟩
    · rw [Timer.published_state]
      simp only [Timer.consumed]
      split <;> simp
  | begun set pending =>
    refine .used (set.of_sameSetup ⟨rfl, rfl, rfl, rfl, rfl, rfl⟩ set.state) fun hne => ?_
    simpa [Timer.begun, pending] using hbal set hne
  | ended set running =>
    exact .used (set.of_sameSetup ⟨rfl, rfl, rfl, rfl, rfl, rfl⟩ set.state)
      ((hbal set).ended running)

theorem TimerMove.slotState {a b : Timer} (h : TimerMove cfg now i a b)
    (ha : a.slotState = .allocated) : b.slotState = .allocated := by
  cases h with
  | same => exact ha
  | initialised => rfl
  | started => exact ha
  | restarted => exact a.purge_sameSetup.slotState.trans ha
  | stopped => exact a.purge_sameSetup.slotState.trans ha
  | expired => exact (a.consumed now).published_sameSetup.slotState.trans ha
  | begun => exact ha
  | ended => exact ha

/-! ## Moving one timer -/

/-- The work items of one timer. -/
def Kernel.workFor (k : Kernel) (i : Nat) : List CallbackWork :=
  k.callbackQueue.filter fun work => work.timer = i

theorem Kernel.length_workFor (k : Kernel) (i : Nat) :
    (k.workFor i).length = timerCallbackQueueCountFor k i := List.countP_eq_length_filter.symm

theorem Kernel.mem_workFor {work : CallbackWork} :
    work ∈ k.workFor i ↔ work ∈ k.callbackQueue ∧ work.timer = i := by
  simp [Kernel.workFor]

/-- One timer has moved, with its work and the callback in service. -/
structure Moved (cfg : Config) (now : Tick) (k k' : Kernel) (i : Nat) : Prop where
  move : TimerMove cfg now i (k.timers i) (k'.timers i)
  others : ∀ j, j ≠ i → k'.timers j = k.timers j
  work : ∀ j, j ≠ i → k'.workFor j = k.workFor j
  pending : (k'.workFor i).length = if (k'.timers i).callbackState = .pending then 1 else 0
  generation : ∀ work ∈ k'.workFor i, work.generation = (k'.timers i).generation
  serves : ∀ j, j ≠ i → (k'.Serves j ↔ k.Serves j)
  running : (k'.timers i).callbackState = .running ↔ k'.Serves i

namespace Moved

theorem moves (h : Moved cfg now k k' i) (j : Nat) :
    TimerMove cfg now j (k.timers j) (k'.timers j) := by
  by_cases hj : j = i
  · exact hj ▸ h.move
  · rw [h.others j hj]
    exact .same

theorem slotState (h : Moved cfg now k k' i)
    (hs : (k'.timers i).slotState = (k.timers i).slotState) (j : Nat) :
    (k'.timers j).slotState = (k.timers j).slotState := by
  by_cases hj : j = i
  · exact hj ▸ hs
  · rw [h.others j hj]

theorem timersInUse (h : Moved cfg now k k' i)
    (hs : (k'.timers i).slotState = (k.timers i).slotState) :
    k'.timersInUse cfg = k.timersInUse cfg := by
  unfold Kernel.timersInUse
  simp only [h.slotState hs]

theorem timersOk (h : Moved cfg now k k' i) (hk : TimersOk cfg k) (hl : k'.lifecycle ≠ .reset)
    (hnodup : k'.activeQueue.Nodup)
    (hmem : ∀ j, j ∈ k'.activeQueue ↔ (k'.timers j).state = .active)
    (hwork : (k'.tasks .timerService).state = .blocked → k'.callbackQueue = [])
    (hdepth : k'.callbackQueue.length ≤ k'.callbackQueueMaximumDepth ∧
      k'.callbackQueueMaximumDepth ≤ cfg.timerCallbackQueueCapacity)
    (hhint : k'.timerNextFreeHint < cfg.maxTimers)
    (hinUse : k'.timerAllocatedCount = k'.timersInUse cfg) : TimersOk cfg k' := by
  refine ⟨fun j => (h.moves j).ok (hk.slot j), fun hc => absurd hc hl, hnodup, hmem, fun j => ?_,
    fun work hw => ?_, fun j => ?_, hwork, hdepth, hhint, hinUse⟩
  · rw [← Kernel.length_workFor]
    by_cases hj : j = i
    · exact hj ▸ h.pending
    · rw [h.work j hj, h.others j hj, Kernel.length_workFor]
      exact hk.pending j
  · by_cases hj : work.timer = i
    · rw [hj]
      exact h.generation work (Kernel.mem_workFor.mpr ⟨hw, hj⟩)
    · have hin : work ∈ k.workFor work.timer := by
        rw [← h.work _ hj]
        exact Kernel.mem_workFor.mpr ⟨hw, rfl⟩
      rw [h.others _ hj]
      exact hk.generation work (Kernel.mem_workFor.mp hin).1
  · by_cases hj : j = i
    · exact hj ▸ h.running
    · rw [h.others j hj, h.serves j hj]
      exact hk.running j

end Moved

theorem pairwise_orderedInsert_earlier {expiration : Nat → Tick} {l : List Nat}
    (hi : InWindow base (expiration i)) (hl : ∀ j ∈ l, InWindow base (expiration j))
    (hsorted : l.Pairwise fun a b => distance base (expiration a) ≤ distance base (expiration b)) :
    (l.orderedInsert (Earlier expiration) i).Pairwise fun a b =>
      distance base (expiration a) ≤ distance base (expiration b) := by
  have hearlier : ∀ j ∈ l, (Earlier expiration i j ↔
      distance base (expiration i) < distance base (expiration j)) := fun j hj =>
    tickBefore_iff_of_window hi.2 (hl j hj).2
  apply Ordered.pairwise_orderedInsert hsorted
  · intro j hj hlt
    exact le_of_lt ((hearlier j hj).mp hlt)
  · intro j hj hnot
    exact not_lt.mp fun hlt => hnot ((hearlier j hj).mpr hlt)
  · intro a _ b _ hia hab
    exact hia.trans hab

/-- One timer has been taken off the active queue, and queued again if it is active. -/
structure Retimed (k k' : Kernel) (i : Nat) : Prop where
  others : ∀ j, j ≠ i → k'.timers j = k.timers j
  queue : k'.activeQueue = if (k'.timers i).state = .active then
    (k.activeQueue.erase i).orderedInsert (Earlier k'.expiration) i else k.activeQueue.erase i

namespace Retimed

theorem expiration_eq (h : Retimed k k' i) (hj : j ≠ i) : k'.expiration j = k.expiration j := by
  rw [Kernel.expiration, h.others j hj]

theorem mem_activeQueue (h : Retimed k k' i) (hk : TimersOk cfg k) (j : Nat) :
    j ∈ k'.activeQueue ↔ (k'.timers j).state = .active := by
  have herase := hk.nodup.mem_erase_iff (a := j) (b := i)
  have hold := hk.mem j
  rw [h.queue]
  by_cases hj : j = i
  · subst hj
    split <;> simp_all
  · rw [h.others j hj]
    split <;> simp_all

theorem nodup (h : Retimed k k' i) (hk : TimersOk cfg k) : k'.activeQueue.Nodup := by
  have herase := hk.nodup.erase i
  rw [h.queue]
  split
  · exact Ordered.nodup_orderedInsert herase hk.nodup.not_mem_erase
  · exact herase

theorem ahead (h : Retimed k k' i) (hk : TimersOk cfg k) (ha : k.Ahead)
    (htick : k'.currentTick = k.currentTick)
    (hw : (k'.timers i).state = .active → InWindow k.currentTick (k'.expiration i)) : k'.Ahead := by
  have hne : ∀ j ∈ k.activeQueue.erase i, j ≠ i := fun j hj => (hk.nodup.mem_erase_iff.mp hj).1
  have hin : ∀ j ∈ k.activeQueue.erase i, InWindow k.currentTick (k'.expiration j) := by
    intro j hj
    rw [h.expiration_eq (hne j hj)]
    exact ha.window j (List.mem_of_mem_erase hj)
  have hsorted : (k.activeQueue.erase i).Pairwise fun a b =>
      distance k.currentTick (k'.expiration a) ≤ distance k.currentTick (k'.expiration b) := by
    refine (ha.sorted.sublist List.erase_sublist).imp_of_mem fun {a b} ha hb hab => ?_
    rw [h.expiration_eq (hne a ha), h.expiration_eq (hne b hb)]
    exact hab
  constructor
  · rw [h.queue, htick]
    split <;> rename_i hact
    · intro j hj
      obtain rfl | hj := Ordered.mem_orderedInsert.mp hj
      · exact hw hact
      · exact hin j hj
    · exact hin
  · rw [h.queue, htick]
    split <;> rename_i hact
    · exact pairwise_orderedInsert_earlier (hw hact) hin hsorted
    · exact hsorted

end Retimed

end RtsKernel
