import Mathlib.Order.Bounds.Defs
import RtsKernel.Operation.Frame
import RtsKernel.Operation.Preservation
import RtsKernel.Model.Run

/-!
# Tickless idle

The plan of a sleep is the least of the ticks that remain to any delayed task, timed waiter and
active timer, and of the configured maximum; and a skip within the plan is as many single ticks.
Only the last of these ticks can find anything due, and no tick uses up a time slice, since the idle
task has none.

## Main results

* `ReachableWhen.ahead_of_shipped`: with the advances that the shipped callers make, no timer falls
  behind.
* `powerPlanCompute_isLeast`: the plan of a sleep.
* `tickless_sleep_is_ticking`: a skip within the plan is as many ticks.
-/

namespace RtsKernel

open Halting Prog

variable {cfg : Config} {k : Kernel} {ev : Event} {elapsed sleep now : Tick} {isr : Bool}
    {n : Nat}

/-! ## Shipped advances -/

/-- SysTick advances by one tick, and a tickless sleep by at most what was planned. -/
def Event.ShippedAdvance (cfg : Config) (k : Kernel) : Event → Prop
  | .tick _ elapsed => elapsed = 1
  | .skip isr elapsed => ∃ sleep ∈ powerPlanCompute cfg k isr, elapsed ≤ sleep
  | _ => True

instance (cfg : Config) (k : Kernel) (ev : Event) : Decidable (ev.ShippedAdvance cfg k) := by
  induction ev using Event.casesOn <;> dsimp only [Event.ShippedAdvance] <;> infer_instance

/-- The ticks that remain to a delayed task, a timed waiter or an active timer. -/
def Kernel.Remains (k : Kernel) (n : Nat) : Prop :=
  (∃ t, (k.tasks t).Timed ∧ n = distance k.currentTick (k.wake t)) ∨
  ∃ i, (k.timers i).state = .active ∧ n = distance k.currentTick (k.expiration i)

/-! ## The plan -/

/-- A deadline ahead of the clock shortens the plan to what remains to it. -/
theorem powerConsiderDeadline_of_inWindow {candidate : Tick} (h : InWindow now candidate) :
    (powerConsiderDeadline now candidate sleep).toNat =
      min sleep.toNat (distance now candidate) := by
  have hnot := not_tickReached_of_inWindow h
  have hmax : candidate - now ≤ delayMax := by
    have := h.2
    unfold distance at this
    rw [BitVec.le_def]
    change (candidate - now).toNat ≤ 2 ^ 31 - 1
    omega
  unfold powerConsiderDeadline distance
  rw [if_neg hnot]
  split <;> rename_i hlt
  · have := BitVec.lt_def.mp hlt.2
    omega
  · have hle : sleep.toNat ≤ (candidate - now).toNat := by
      by_contra hgt
      exact hlt ⟨hmax, BitVec.lt_def.mpr (by omega)⟩
    omega

/-- `rts_power_plan_compute` looks at the first deadline of a queue. -/
def powerConsiderFirst (now : Tick) (deadline : Option Tick) (sleep : Tick) : Tick :=
  match deadline with
  | none => sleep
  | some deadline => powerConsiderDeadline now deadline sleep

theorem powerPlanCompute_eq : powerPlanCompute cfg k isr =
    if PowerSleepIsAllowed cfg k isr ∧ powerConsiderFirst k.currentTick (timerQueueNextDeadline k)
        (powerConsiderFirst k.currentTick (delayNextDeadline k) cfg.ticklessMaxSleepTicks) ≠ 0 then
      some (powerConsiderFirst k.currentTick (timerQueueNextDeadline k)
        (powerConsiderFirst k.currentTick (delayNextDeadline k) cfg.ticklessMaxSleepTicks))
    else none := by
  rw [ite_and]
  rfl

/-- The first deadline of a queue in order stands for all of them. -/
theorem isLeast_powerConsiderFirst {α : Type} {queue : List α} {deadline : α → Tick} (sleep : Tick)
    (hwindow : ∀ a ∈ queue, InWindow now (deadline a))
    (hsorted : queue.Pairwise fun a b => distance now (deadline a) ≤ distance now (deadline b)) :
    IsLeast {n | n = sleep.toNat ∨ ∃ a ∈ queue, n = distance now (deadline a)}
      (powerConsiderFirst now (queue.head?.map deadline) sleep).toNat := by
  cases queue with
  | nil => exact ⟨.inl rfl, by rintro n (rfl | ⟨a, ha, -⟩) <;> simp_all [powerConsiderFirst]⟩
  | cons a queue =>
    have hfirst : (powerConsiderFirst now (some (deadline a)) sleep).toNat =
        min sleep.toNat (distance now (deadline a)) :=
      powerConsiderDeadline_of_inWindow (hwindow a List.mem_cons_self)
    rw [List.head?_cons, Option.map_some, hfirst]
    constructor
    · rcases min_choice sleep.toNat (distance now (deadline a)) with hmin | hmin
      · exact .inl hmin
      · exact .inr ⟨a, List.mem_cons_self, hmin⟩
    · rintro n (rfl | ⟨b, hb, rfl⟩)
      · exact min_le_left _ _
      · refine (min_le_right _ _).trans ?_
        rcases List.mem_cons.mp hb with rfl | hb
        · exact le_rfl
        · exact (List.pairwise_cons.mp hsorted).1 b hb

/-- The plan is the least of the configured maximum and of all that remains. -/
theorem powerPlanCompute_isLeast (h : Sound cfg k) (ha : k.Ahead)
    (hplan : powerPlanCompute cfg k isr = some sleep) :
    IsLeast {n | n = cfg.ticklessMaxSleepTicks.toNat ∨ k.Remains n} sleep.toNat := by
  have hdelay := h.ok.inv.delay
  have hwaits := isLeast_powerConsiderFirst cfg.ticklessMaxSleepTicks
    (fun t ht => hdelay.window t ((hdelay.mem t).mp ht)) hdelay.sorted
  set afterDelay := powerConsiderFirst k.currentTick (delayNextDeadline k) cfg.ticklessMaxSleepTicks
  have htimers := isLeast_powerConsiderFirst afterDelay ha.window ha.sorted
  have hsleep : sleep = powerConsiderFirst k.currentTick (timerQueueNextDeadline k) afterDelay := by
    rw [powerPlanCompute_eq] at hplan
    split at hplan
    · exact (Option.some.inj hplan).symm
    · simp at hplan
  rw [hsleep]
  constructor
  · rcases htimers.1 with hmin | ⟨i, hi, hmin⟩
    · rw [timerQueueNextDeadline, hmin]
      rcases hwaits.1 with hmax | ⟨t, ht, hmin⟩
      · exact .inl hmax
      · exact .inr (.inl ⟨t, (hdelay.mem t).mp ht, hmin⟩)
    · exact .inr (.inr ⟨i, (h.timersOk.mem i).mp hi, hmin⟩)
  · have hle : (powerConsiderFirst k.currentTick (timerQueueNextDeadline k) afterDelay).toNat ≤
        afterDelay.toNat := htimers.2 (.inl rfl)
    rintro n (rfl | ⟨t, ht, rfl⟩ | ⟨i, hi, rfl⟩)
    · exact hle.trans (hwaits.2 (.inl rfl))
    · exact hle.trans (hwaits.2 (.inr ⟨t, (hdelay.mem t).mpr ht, rfl⟩))
    · exact htimers.2 (.inr ⟨i, (h.timersOk.mem i).mpr hi, rfl⟩)

theorem powerPlanCompute_allowed (hplan : powerPlanCompute cfg k isr = some sleep) :
    PowerSleepIsAllowed cfg k isr ∧ sleep ≠ 0 := by
  rw [powerPlanCompute_eq] at hplan
  split at hplan <;> rename_i hif
  · exact ⟨hif.1, Option.some.inj hplan ▸ hif.2⟩
  · simp at hplan

theorem powerPlanCompute_le (h : Sound cfg k) (ha : k.Ahead)
    (hplan : powerPlanCompute cfg k isr = some sleep) :
    sleep ≤ delayMax ∧ (∀ t ∈ k.delayQueue, sleep.toNat ≤ distance k.currentTick (k.wake t)) ∧
    ∀ i ∈ k.activeQueue, sleep.toNat ≤ distance k.currentTick (k.expiration i) := by
  obtain ⟨-, hleast⟩ := powerPlanCompute_isLeast h ha hplan
  refine ⟨?_, fun t ht => ?_, fun i hi => ?_⟩
  · have hmax : sleep.toNat ≤ cfg.ticklessMaxSleepTicks.toNat := hleast (.inl rfl)
    exact BitVec.le_def.mpr (hmax.trans (BitVec.le_def.mp cfg.sleep_range.2))
  · exact hleast (.inr (.inl ⟨t, (h.ok.inv.delay.mem t).mp ht, rfl⟩))
  · exact hleast (.inr (.inr ⟨i, (h.timersOk.mem i).mp hi, rfl⟩))

/-- No advance of a shipped caller makes a timer that is queued again overtake one that is due. -/
theorem Event.ShippedAdvance.spread (hev : ev.ShippedAdvance cfg k) (h : Sound cfg k)
    (ha : k.Ahead) : k.Spread (k.currentTick + ev.elapsed cfg k) := by
  have hwithin : ∀ {d sleep : Tick} {isr : Bool}, powerPlanCompute cfg k isr = some sleep →
      d ≤ sleep → k.Spread (k.currentTick + d) := by
    intro d sleep isr hplan hd
    obtain ⟨hmax, -, hle⟩ := powerPlanCompute_le h ha hplan
    have hd' : d.toNat ≤ sleep.toNat := BitVec.le_def.mp hd
    have hmax' : sleep.toNat ≤ delayMax.toNat := BitVec.le_def.mp hmax
    exact ha.spread h.timersOk (BitVec.le_def.mpr (by omega)) fun i hi => hd'.trans (hle i hi)
  have hone : ∀ {d : Tick}, d.toNat ≤ 1 → k.Spread (k.currentTick + d) := ha.spread_one h.timersOk
  cases ev with
  | tick isr elapsed =>
    obtain rfl : elapsed = 1 := hev
    simp only [Event.elapsed]
    split <;> exact hone (by decide)
  | skip isr elapsed =>
    obtain ⟨sleep, hplan, hle⟩ := hev
    simp only [Event.elapsed]
    split
    · exact hwithin hplan hle
    · exact hone (by decide)
  | powerIdle isr result =>
    simp only [Event.elapsed]
    split <;> rename_i hplan
    · split <;> rename_i hvalid
      · exact hwithin hplan hvalid.2.1
      · exact hone (by decide)
    · exact hone (by decide)
  | _ => exact hone (Nat.zero_le 1)

theorem ReachableWhen.ahead_of_shipped
    (h : ReachableWhen cfg (fun k ev => ev.ShippedAdvance cfg k) k) : k.Ahead :=
  h.invariant (by constructor <;> simp [resetKernel]) fun _ _ _ hk _ hst hev ha =>
    hst.ahead ha (hev.spread hk ha)

/-! ## Ticks that find nothing due -/

theorem toNat_ofNat_tick (hn : n < 2 ^ 31) : (BitVec.ofNat 32 n).toNat = n := by
  rw [BitVec.toNat_ofNat]
  exact Nat.mod_eq_of_lt (by omega)

theorem ofNat_le_delayMax (hn : n < 2 ^ 31) : BitVec.ofNat 32 n ≤ delayMax := by
  rw [BitVec.le_def, toNat_ofNat_tick hn]
  change n ≤ 2 ^ 31 - 1
  omega

/-- The kernel after `n` ticks that find nothing due. -/
def Kernel.passed (k : Kernel) (n : Nat) : Kernel :=
  (k.elapse (.ofNat 32 n)).count fun c =>
    { c with schedulerTicks := diagnosticCounterAdd c.schedulerTicks (.ofNat 32 n) }

theorem diagnosticCounterAdd_assoc (value : Tick) {m : Nat} (hmn : m + n < 2 ^ 32) :
    diagnosticCounterAdd (diagnosticCounterAdd value (.ofNat 32 m)) (.ofNat 32 n) =
      diagnosticCounterAdd value (.ofNat 32 (m + n)) := by
  refine BitVec.eq_of_toNat_eq ?_
  simp only [toNat_diagnosticCounterAdd, BitVec.toNat_ofNat]
  rw [Nat.mod_eq_of_lt (by omega : m < 2 ^ 32), Nat.mod_eq_of_lt (by omega : n < 2 ^ 32),
    Nat.mod_eq_of_lt hmn]
  omega

theorem Kernel.passed_zero : k.passed 0 = k := by
  have htick : k.currentTick + .ofNat 32 0 = k.currentTick := BitVec.add_zero _
  have hadd :
      diagnosticCounterAdd k.counters.schedulerTicks (.ofNat 32 0) = k.counters.schedulerTicks := by
    have hlt := k.counters.schedulerTicks.isLt
    refine BitVec.eq_of_toNat_eq ?_
    rw [toNat_diagnosticCounterAdd]
    change min (k.counters.schedulerTicks.toNat + 0) _ = _
    omega
  simp only [Kernel.passed, Kernel.elapse, Kernel.count, htick, hadd]

theorem Kernel.passed_passed {m : Nat} (hmn : m + n < 2 ^ 32) :
    (k.passed m).passed n = k.passed (m + n) := by
  have htick : k.currentTick + .ofNat 32 m + .ofNat 32 n = k.currentTick + .ofNat 32 (m + n) := by
    bv_omega
  simp only [Kernel.passed, Kernel.elapse, Kernel.count, htick, diagnosticCounterAdd_assoc _ hmn]

/-- The advance of the clock, up to what it finds due. -/
def advanceFound (cfg : Config) (elapsed : Tick) : KernelM Bool := do
  let k ← get
  let woken ← delayLoop cfg k.delayQueue.length
  match woken with
  | none => pure false
  | some woken => do
    let k ← get
    let serviceWoken ← timerManagerProcessExpired cfg k.currentTick
    let sliceRotated ←
      if (∃ c ∈ k.currentTask, c ∈ woken) then pure false else policyTick cfg elapsed
    if woken = [] ∧ serviceWoken = false ∧ sliceRotated = false then pure false
    else planAfterTick cfg

theorem kernelTimeAdvanceCommon_apply :
    kernelTimeAdvanceCommon cfg (.ofNat 32 n) k = advanceFound cfg (.ofNat 32 n) (k.passed n) := rfl

/-- The idle task has no time slice. -/
theorem policyTick_idle {c : TaskId} (hc : k.currentTask = some c) (hidle : k.idleTask = some c) :
    policyTick cfg elapsed k = .ret false k := by
  have hfp : policyFpTick cfg elapsed k = .ret false k := by
    rw [policyFpTick, get_bind_apply]
    simp only [hc]
    rw [if_pos (.inr (.inr (.inl hidle)))]
    rfl
  have hedf : policyEdfTick cfg elapsed k = .ret false k := by
    rw [policyEdfTick, get_bind_apply]
    simp only [hc]
    rw [if_pos (.inr (.inr (.inl hidle)))]
    rfl
  unfold policyTick
  cases cfg.policy with
  | fixedPriority => exact hfp
  | rms => exact hfp
  | edf => exact hedf

/-- An advance of the idle system that finds nothing due. -/
theorem advanceFound_quiet {c : TaskId} (hc : k.currentTask = some c) (hidle : k.idleTask = some c)
    (hdelay : delayPeekExpired k k.currentTick = none)
    (htimer : timerQueuePeekExpired k k.currentTick = none) (hvalid : TimerManagerValidate cfg k) :
    advanceFound cfg elapsed k = .ret false k := by
  have hprocess : timerManagerProcessExpired cfg k.currentTick k = .ret false k := by
    rw [timerManagerProcessExpired_quiet htimer, fatalUnless, check, if_pos hvalid]
    rfl
  unfold advanceFound
  rw [get_bind_apply, bind_apply_of_ret (delayLoop_quiet hdelay _)]
  simp only
  rw [get_bind_apply, bind_apply_of_ret hprocess, if_neg (by simp),
    bind_apply_of_ret (policyTick_idle hc hidle)]
  rfl

/-! ## A skip is as many ticks -/

/-- The state in which a sleep is planned. -/
structure Kernel.Sleeps (cfg : Config) (k : Kernel) : Prop where
  sound : Sound cfg k
  ahead : k.Ahead
  running : k.lifecycle = .running
  current : k.currentTask = some .idle

theorem Kernel.Sleeps.idle (h : k.Sleeps cfg) : k.idleTask = some .idle :=
  h.sound.ok.inv.phase.idleTask (by simp [h.running])

/-- Fewer ticks than remain to anything find nothing due. -/
theorem Kernel.Sleeps.peek (h : k.Sleeps cfg) (hn : n < 2 ^ 31)
    (hdelay : ∀ t ∈ k.delayQueue, n < distance k.currentTick (k.wake t))
    (htimer : ∀ i ∈ k.activeQueue, n < distance k.currentTick (k.expiration i)) :
    delayPeekExpired (k.passed n) (k.passed n).currentTick = none ∧
    timerQueuePeekExpired (k.passed n) (k.passed n).currentTick = none := by
  have htoNat := toNat_ofNat_tick hn
  have hmax := ofNat_le_delayMax hn
  have hinv := h.sound.ok.inv.delay
  constructor
  · cases hq : k.delayQueue with
    | nil => simp [delayPeekExpired, Kernel.passed, Kernel.elapse, hq]
    | cons t l =>
      have ht : t ∈ k.delayQueue := by simp [hq]
      have hnot : ¬ tickReached (k.currentTick + .ofNat 32 n) (k.wake t) := by
        rw [tickReached_add_iff hmax (hinv.window t ((hinv.mem t).mp ht)).2, htoNat, not_le]
        exact hdelay t ht
      simp [delayPeekExpired, Kernel.passed, Kernel.elapse, hq, hnot]
  · cases hq : k.activeQueue with
    | nil => simp [timerQueuePeekExpired, Kernel.passed, Kernel.elapse, hq]
    | cons i l =>
      have hi : i ∈ k.activeQueue := by simp [hq]
      have hnot : ¬ tickReached (k.currentTick + .ofNat 32 n) (k.expiration i) := by
        rw [tickReached_add_iff hmax (h.ahead.window i hi).2, htoNat, not_le]
        exact htimer i hi
      simp [timerQueuePeekExpired, Kernel.passed, Kernel.elapse, hq, hnot]

theorem Kernel.Sleeps.advance_quiet (h : k.Sleeps cfg) (hn : n < 2 ^ 31)
    (hdelay : ∀ t ∈ k.delayQueue, n < distance k.currentTick (k.wake t))
    (htimer : ∀ i ∈ k.activeQueue, n < distance k.currentTick (k.expiration i)) :
    advanceFound cfg elapsed (k.passed n) = .ret false (k.passed n) := by
  obtain ⟨hpeek, hpeek'⟩ := h.peek hn hdelay htimer
  exact advanceFound_quiet h.current h.idle hpeek hpeek' (h.sound.timersOk.validate h.ahead)

/-- The loops of an advance leave the idle task current. -/
theorem Kernel.Sleeps.loops (h : k.Sleeps cfg) (hn : n < 2 ^ 31) {k₁ k₂ : Kernel} {b : Bool}
    {woken : Option (List TaskId)}
    (h₁ : delayLoop cfg (k.passed n).delayQueue.length (k.passed n) = .ret woken k₁)
    (h₂ : timerManagerProcessExpired cfg k₁.currentTick k₁ = .ret b k₂) :
    k₂.currentTask = some .idle ∧ k₂.idleTask = some .idle := by
  have hle := ofNat_le_delayMax hn
  have hsame : SameTasks k (k.passed n) := rfl
  have hinv₀ : Inv cfg k.currentTick noneStale (k.passed n) := h.sound.ok.inv.sameTasks hsame
  have hrest₀ : (k.passed n).rest = (k.elapse (.ofNat 32 n)).rest :=
    Kernel.rest_count _ _
  have ht₀ : TimersOk cfg (k.passed n) :=
    (h.sound.timersOk.elapse (.ofNat 32 n)).congr hrest₀ fun hb => .inl hb
  have hloop : wp (delayLoop cfg (k.passed n).delayQueue.length) (fun _ k₁ =>
      Inv cfg (k.currentTick + .ofNat 32 n) noneStale k₁ ∧ TimersOk cfg k₁ ∧
      k₁.lifecycle = .running) (fun _ _ => True) (k.passed n) := by
    refine wp_delayLoop hinv₀ le_rfl (fun k₁ woken hexp _ hend _ hinv₁ => ?_) fun _ _ => trivial
    refine ⟨hinv₁.rebase hle hend, ht₀.congr hexp.rest fun hb => .inl (hexp.service hinv₀ ▸ hb), ?_⟩
    exact (Kernel.of_rest Kernel.lifecycle hexp.rest :).trans h.running
  obtain ⟨hinv₁, ht₁, hl₁⟩ := wp_ret hloop h₁
  have hprocess : wp (timerManagerProcessExpired cfg k₁.currentTick) (fun _ k₂ =>
      Inv cfg (k.currentTick + .ofNat 32 n) noneStale k₂) (fun _ _ => True) k₁ :=
    wp_timerManagerProcessExpired hinv₁ ht₁ hl₁ (fun _ _ _ hinv₂ _ _ => hinv₂)
      fun _ _ _ _ _ _ _ => trivial
  have hinv₂ : Inv cfg (k.currentTick + .ofNat 32 n) noneStale k₂ :=
    (wp_ret hprocess h₂ :)
  have hledger₁ : k₁.ledger = (k.passed n).ledger :=
    (leads_delayLoop (P := OnLedger (· = (k.passed n).ledger)) _).ret h₁ rfl
  have hkeeps : Prog.Leads Kernel.outline (OnLedger (· = k₁.ledger)) (OnLedger (· = k₁.ledger))
      (timerManagerProcessExpired cfg k₁.currentTick) := by simp
  have hledger₂ : k₂.ledger = k₁.ledger := hkeeps.ret h₂ rfl
  have hledger := hledger₂.trans hledger₁
  have hl₂ : k₂.lifecycle = .running := (congrArg Ledger.lifecycle hledger).trans h.running
  exact ⟨(congrArg Ledger.current hledger).trans h.current, hinv₂.phase.idleTask (by simp [hl₂])⟩

/-- What an advance of the idle system does depends on where the clock ends, not on how far it
came. -/
theorem Kernel.Sleeps.advance_congr (h : k.Sleeps cfg) (hn : n < 2 ^ 31) (d e : Tick) :
    advanceFound cfg d (k.passed n) = advanceFound cfg e (k.passed n) := by
  unfold advanceFound
  rw [get_bind_apply, get_bind_apply]
  refine bind_apply_congr fun woken k₁ h₁ => ?_
  cases woken with
  | none => rfl
  | some woken =>
    simp only
    rw [get_bind_apply, get_bind_apply]
    refine bind_apply_congr fun b k₂ h₂ => ?_
    obtain ⟨hc, hidle⟩ := h.loops hn h₁ h₂
    split
    · rfl
    · rw [bind_apply_of_ret (policyTick_idle hc hidle),
        bind_apply_of_ret (policyTick_idle hc hidle)]

/-- The answers of successive one-tick advances of `rts_kernel_tick_advance`. -/
def tickAdvances (cfg : Config) : Nat → KernelM (List Bool)
  | 0 => pure []
  | n + 1 => do
    let b ← kernelTickAdvance cfg true 1
    let bs ← tickAdvances cfg n
    pure (b :: bs)

theorem kernelAdvance_apply (hl : k.lifecycle = .running) (h0 : n ≠ 0) (hn : n < 2 ^ 31) :
    kernelAdvance cfg true (.ofNat 32 n) k = advanceFound cfg (.ofNat 32 n) (k.passed n) := by
  have hvalid : AdvanceIsValid k true (.ofNat 32 n) := by
    refine ⟨hl, rfl, fun hz => h0 ?_, ofNat_le_delayMax hn⟩
    rw [← toNat_ofNat_tick hn, hz]
    rfl
  unfold kernelAdvance rtsAssert check
  rw [get_bind_apply, if_pos fun _ => hvalid, if_pos hvalid]
  exact kernelTimeAdvanceCommon_apply

/-- All but the last of the ticks find nothing due. -/
theorem Kernel.Sleeps.tickAdvances_apply (h : k.Sleeps cfg) {m : Nat} (hn : m + n < 2 ^ 31)
    (hdelay : ∀ t ∈ k.delayQueue, m + n < distance k.currentTick (k.wake t))
    (htimer : ∀ i ∈ k.activeQueue, m + n < distance k.currentTick (k.expiration i)) :
    tickAdvances cfg (n + 1) (k.passed m) = (do
      let b ← kernelTickAdvance cfg true 1
      pure (List.replicate n false ++ [b])) (k.passed (m + n)) := by
  induction n generalizing m with
  | zero => rfl
  | succ n ih =>
    have hquiet : kernelTickAdvance cfg true 1 (k.passed m) = .ret false (k.passed (m + 1)) := by
      have happly : kernelTickAdvance cfg true 1 (k.passed m) =
          advanceFound cfg 1 ((k.passed m).passed 1) :=
        kernelAdvance_apply h.running (by decide) (by decide)
      rw [happly, Kernel.passed_passed (by omega)]
      refine h.advance_quiet (by omega) (fun t ht => ?_) fun i hi => ?_
      · have := hdelay t ht
        omega
      · have := htimer i hi
        omega
    have hindex : m + 1 + n = m + (n + 1) := by omega
    have hrest := ih (m := m + 1) (hindex ▸ hn) (hindex ▸ hdelay) (hindex ▸ htimer)
    rw [hindex] at hrest
    rw [tickAdvances, bind_apply_of_ret hquiet]
    exact bind_apply_of_map hrest _

/-- In the states that the advances of the shipped callers lead to, the plan of a sleep is the least
of the configured maximum and of the ticks that remain to any delayed task, timed waiter or active
timer; and a skip by `n` ticks within the plan does what `n` successive one-tick advances do, of
which only the last can ask for a switch. -/
theorem tickless_sleep_is_ticking
    (h : ReachableWhen cfg (fun k ev => ev.ShippedAdvance cfg k) k)
    (hplan : powerPlanCompute cfg k isr = some sleep) :
    IsLeast {n | n = cfg.ticklessMaxSleepTicks.toNat ∨ k.Remains n} sleep.toNat ∧
    ∀ n, n + 1 ≤ sleep.toNat → tickAdvances cfg (n + 1) k = (do
      let b ← kernelTimeSkip cfg isr (.ofNat 32 (n + 1))
      pure (List.replicate n false ++ [b])) k := by
  have hs := h.sound
  have ha := h.ahead_of_shipped
  refine ⟨powerPlanCompute_isLeast hs ha hplan, fun n hn => ?_⟩
  obtain ⟨hmax, hdelay, htimer⟩ := powerPlanCompute_le hs ha hplan
  obtain ⟨⟨-, hl, rfl, -, hcurrent, -⟩, -⟩ := powerPlanCompute_allowed hplan
  have hidle := hs.ok.inv.phase.idleTask (by simp [hl])
  have hsleeps : k.Sleeps cfg := ⟨hs, ha, hl, hcurrent.trans hidle⟩
  have hlt : sleep.toNat < 2 ^ 31 := toNat_le_of_le_delayMax hmax
  have hticks := hsleeps.tickAdvances_apply (m := 0) (n := n) (by omega)
    (fun t ht => by have := hdelay t ht; omega) fun i hi => by have := htimer i hi; omega
  -- the last tick and the skip leave the clock at the same place
  have hlast : kernelTickAdvance cfg true 1 (k.passed n) =
      kernelTimeSkip cfg false (.ofNat 32 (n + 1)) k := by
    have htick :
        kernelTickAdvance cfg true 1 (k.passed n) = advanceFound cfg 1 ((k.passed n).passed 1) :=
      kernelAdvance_apply hl (by decide) (by decide)
    have hskip : kernelTimeSkip cfg false (.ofNat 32 (n + 1)) k =
        advanceFound cfg (.ofNat 32 (n + 1)) (k.passed (n + 1)) :=
      kernelAdvance_apply hl (by omega) (by omega)
    rw [htick, hskip, Kernel.passed_passed (by omega)]
    exact hsleeps.advance_congr (by omega) _ _
  rw [Kernel.passed_zero, Nat.zero_add] at hticks
  rw [hticks]
  exact bind_apply_of_eq hlast _

/-- A task that sleeps for ten ticks, and a timer of seven: the idle task may sleep for seven ticks,
and a skip by all seven is as many ticks. -/
theorem tickless_sleep_is_ticking_seven : ∃ k : Kernel,
    powerPlanCompute sampleConfig k false = some 7 ∧
    tickAdvances sampleConfig 7 k = (do
      let b ← kernelTimeSkip sampleConfig false 7
      pure (List.replicate 6 false ++ [b])) k := by
  have hrun : (execute sampleConfig (fun k ev => ev.ShippedAdvance sampleConfig k)
      (bootEvents 1 ++ [.timerInit false (some ⟨1, 8, .periodic⟩), .start false true true,
        .timerStart false 0, .delay false 11, .acquire, .complete ⟨.slot 0, .idle, 1⟩ true,
        .tick true 1]) resetKernel).any
      (fun k => decide (powerPlanCompute sampleConfig k false = some 7)) = true := by
    decide +kernel
  obtain ⟨k, hreach, hplan⟩ := exists_reachable hrun
  exact ⟨k, hplan, (tickless_sleep_is_ticking hreach hplan).2 6 (by decide)⟩

end RtsKernel
