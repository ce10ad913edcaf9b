import RtsKernel.Property.TimerBooks
import RtsKernel.Property.Timers

/-!
# A one-shot timer fires once for each arming

An observer writes down the true time of the last arming that has been neither stopped nor replaced,
and the work queued for the timer since then. The expiry of a timer whose last callback has not
returned is counted as an overrun and queues nothing; a one-shot timer that its own callback has
armed again can lose its expiry that way.

## Main results

* `TimerStep.still`, `Advances.newWork`: what a step does to a timer that it neither arms nor stops.
* `one_shot_fires_once`: one work item for each arming, in runs without such an overrun.
* `one_shot_expiry_discarded`: a run with it.
-/

namespace RtsKernel

open Halting Prog

variable {cfg : Config} {k k' : Kernel} {ev : Event} {i : Nat}

/-! ## Armings, observed -/

/-- A start or a restart of the timer that succeeds, computed. -/
def Event.armsOk (cfg : Config) (k : Kernel) (i : Nat) : Event → Bool
  | .timerStart isr j => decide (j = i ∧ (RtsKernel.timerStart cfg isr i k).value? = some .ok)
  | .timerRestart isr j => decide (j = i ∧ (RtsKernel.timerRestart cfg isr i k).value? = some .ok)
  | _ => false

def Event.disarmsOk (cfg : Config) (k : Kernel) (i : Nat) : Event → Bool
  | .timerStop isr j => decide (j = i ∧ (RtsKernel.timerStop cfg isr i k).value? = some .ok)
  | _ => false

theorem Event.armsOk_iff : ev.armsOk cfg k i = true ↔ ev.Arms cfg k i := by
  cases ev with
  | timerStart isr j => cases isr <;> simp [armsOk, Arms, Outcome.value?_eq_some]
  | timerRestart isr j => cases isr <;> simp [armsOk, Arms, Outcome.value?_eq_some]
  | _ => simp [armsOk, Arms]

theorem Event.disarmsOk_iff : ev.disarmsOk cfg k i = true ↔ ev.Disarms cfg k i := by
  cases ev with
  | timerStop isr j => cases isr <;> simp [disarmsOk, Disarms, Outcome.value?_eq_some]
  | _ => simp [disarmsOk, Disarms]

instance : Decidable (ev.Arms cfg k i) := decidable_of_iff _ Event.armsOk_iff

instance : Decidable (ev.Disarms cfg k i) := decidable_of_iff _ Event.disarmsOk_iff

/-- An arming: the true time and the tick at which it falls due, and the work queued for the timer
since. -/
structure Shot where
  deadline : Nat
  tick : Tick
  works : List CallbackWork
deriving DecidableEq

/-- The true time, and the last arming that has been neither stopped nor replaced. -/
structure Watch where
  clock : Nat := 0
  shot : Option Shot := none

/-- The work a step has queued for the timer: work is appended, and leaves from the front. -/
def Kernel.newWork (k k' : Kernel) (i : Nat) : List CallbackWork :=
  (k'.workFor i).drop (k.workFor i).length

def Watch.note (cfg : Config) (i : Nat) (w : Watch) (k : Kernel) (ev : Event) (k' : Kernel) :
    Watch where
  clock := w.clock + (ev.elapsed cfg k).toNat
  shot :=
    if ev.Arms cfg k i then
      some ⟨w.clock + (k'.timers i).period.toNat, k'.currentTick + (k'.timers i).period, []⟩
    else if ev.Disarms cfg k i then none
    else w.shot.map fun shot => { shot with works := shot.works ++ k.newWork k' i }

/-! ## Steps that neither arm nor stop the timer -/

/-- The record of a timer before and after a step that is not about its deadline. -/
structure Timer.Keeps (timer timer' : Timer) : Prop where
  state : timer'.state = timer.state
  expirationTick : timer'.expirationTick = timer.expirationTick
  mode : timer'.mode = timer.mode
  generation : timer'.generation = timer.generation
  pending : timer'.callbackState = .pending → timer.callbackState = .pending

theorem Timer.Keeps.refl (timer : Timer) : timer.Keeps timer := ⟨rfl, rfl, rfl, rfl, id⟩

theorem TimerStep.still {now : Tick} {timer timer' : Timer}
    (h : TimerStep cfg k ev now i timer timer') (hstill : ev.elapsed cfg k = 0)
    (hset : TimerSet cfg i timer) (hev : ¬ ev.Disarms cfg k i) : timer.Keeps timer' := by
  cases h with
  | same => exact .refl timer
  | initialised _ hfree => simp [hset.slotState] at hfree
  | stopped hdis => exact absurd hdis hev
  | expired hmoved _ _ => exact absurd hstill hmoved
  | begun hpend => exact ⟨rfl, rfl, rfl, rfl, fun _ => hpend⟩
  | ended => exact ⟨rfl, rfl, rfl, rfl, nofun⟩

/-- No work without a callback that has become pending. -/
theorem Kernel.newWork_eq_nil (h : TimersOk cfg k) (h' : TimersOk cfg k')
    (hp : (k'.timers i).callbackState = .pending → (k.timers i).callbackState = .pending) :
    k.newWork k' i = [] := by
  apply List.drop_eq_nil_of_le
  rw [Kernel.length_workFor, Kernel.length_workFor, h.pending, h'.pending]
  split <;> rename_i hpend
  · rw [if_pos (hp hpend)]
  · exact Nat.zero_le _

/-- An idle timer that expires gets one work item, with its deadline. -/
theorem Advances.newWork {elapsed : Tick} (h : Advances cfg k elapsed k') (ht : TimersOk cfg k)
    (hidle : (k.timers i).callbackState = .idle) (hpend : (k'.timers i).callbackState = .pending) :
    ∃ work, k.newWork k' i = [work] ∧ work.timer = i ∧ work.expirationTick = k.expiration i ∧
      work.generation = (k'.timers i).generation := by
  obtain ⟨works, hqueue, hannounced⟩ := h.queue
  have hnone : k.workFor i = [] := by
    rw [← List.length_eq_zero_iff, Kernel.length_workFor, ht.pending, if_neg (by simp [hidle])]
  have hnew : k.newWork k' i = k'.workFor i := by rw [Kernel.newWork, hnone]; rfl
  have hone : (k'.workFor i).length = 1 := by
    rw [Kernel.length_workFor, h.timersOk.pending, if_pos hpend]
  obtain ⟨work, hwork⟩ := List.length_eq_one_iff.mp hone
  have hmem : work ∈ k'.workFor i := by simp [hwork]
  obtain ⟨hin, rfl⟩ := Kernel.mem_workFor.mp hmem
  refine ⟨work, hnew.trans hwork, rfl, ?_, h.timersOk.generation work hin⟩
  rw [hqueue, List.mem_append] at hin
  rcases hin with hold | hin
  · have : work ∈ k.workFor work.timer := Kernel.mem_workFor.mpr ⟨hold, rfl⟩
    simp [hnone] at this
  · exact (hannounced work hin).2.2

/-! ## One arming -/

/-- An arming of a one-shot timer: still ahead and without work, or passed with one work item, which
carries its deadline. -/
inductive Shot.Stands (k : Kernel) (i clock : Nat) (shot : Shot) : Prop where
  | ahead (active : (k.timers i).state = .active) (tick : k.expiration i = shot.tick)
      (left : clock + distance k.currentTick (k.expiration i) = shot.deadline)
      (works : shot.works = [])
  | fired (stopped : (k.timers i).state = .stopped) (passed : shot.deadline ≤ clock)
      (work : CallbackWork) (works : shot.works = [work]) (timer : work.timer = i)
      (tick : work.expirationTick = shot.tick)
      (generation : work.generation = (k.timers i).generation)

/-- The timer is not due, or its last callback has returned. -/
def Kernel.CallbackDone (k : Kernel) (i : Nat) (now : Tick) : Prop :=
  (k.timers i).state = .active → (k.timers i).mode = .oneShot → tickReached now (k.expiration i) →
    (k.timers i).callbackState = .idle

instance (now : Tick) : Decidable (k.CallbackDone i now) :=
  inferInstanceAs (Decidable (_ → _))

namespace Shot.Stands

variable {clock : Nat} {shot : Shot}

theorem set (h : shot.Stands k i clock) (ht : TimersOk cfg k) : TimerSet cfg i (k.timers i) := by
  refine (ht.slot i).set fun hfresh => ?_
  cases h with
  | ahead hact _ _ _ => simp [hfresh] at hact
  | fired hst _ _ _ _ _ _ => simp [hfresh] at hst

/-- A step that takes no time. -/
theorem still (h : shot.Stands k i clock) (hk : (k.timers i).Keeps (k'.timers i))
    (htick : k'.currentTick = k.currentTick) : shot.Stands k' i clock := by
  have hexp : k'.expiration i = k.expiration i := hk.expirationTick
  cases h with
  | ahead hact ht hleft hworks =>
    exact .ahead (hk.state.trans hact) (hexp.trans ht) (by rw [htick, hexp, hleft]) hworks
  | fired hst hpassed work hworks htimer ht hgen =>
    exact .fired (hk.state.trans hst) hpassed work hworks htimer ht (hgen.trans hk.generation.symm)

/-- An advance that leaves the timer alone. -/
theorem untouched {elapsed : Tick} (h : shot.Stands k i clock) (hadv : Advances cfg k elapsed k')
    (ha : k.Ahead) (ha' : k'.Ahead) (ht : TimersOk cfg k) (he : elapsed ≤ delayMax)
    (hsame : k'.timers i = k.timers i) : shot.Stands k' i (clock + elapsed.toNat) := by
  have hexp : k'.expiration i = k.expiration i := congrArg Timer.expirationTick hsame
  cases h with
  | ahead hact htick hleft hworks =>
    have hwindow := ha.window i ((ht.mem i).mpr hact)
    have hwindow' := ha'.window i ((hadv.timersOk.mem i).mpr (hsame ▸ hact))
    -- the timer is ahead of the new time, so it was farther away than the advance is long
    have hfar := not_tickReached_of_inWindow hwindow'
    rw [hexp, hadv.tick, tickReached_add_iff he hwindow.2] at hfar
    refine .ahead (hsame ▸ hact) (hexp.trans htick) ?_ hworks
    rw [hexp, hadv.tick, distance_add (by omega)]
    omega
  | fired hst hpassed work hworks htimer htick hgen =>
    exact .fired (hsame ▸ hst) (by omega) work hworks htimer htick (by rw [hsame, hgen])

/-- An advance in which the timer expires. -/
theorem expired {elapsed : Tick} (h : shot.Stands k i clock) (hadv : Advances cfg k elapsed k')
    (ha : k.Ahead) (ht : TimersOk cfg k) (he : elapsed ≤ delayMax)
    (hmode : (k.timers i).mode = .oneShot) (hdone : k.CallbackDone i (k.currentTick + elapsed))
    (hact : (k.timers i).state = .active)
    (hreached : tickReached (k.currentTick + elapsed) (k.expiration i))
    (hexp : k'.timers i = (k.timers i).expired (k.currentTick + elapsed)) :
    ({ shot with works := shot.works ++ k.newWork k' i } : Shot).Stands k' i
      (clock + elapsed.toNat) := by
  have hidle := hdone hact hmode hreached
  have hpend : (k'.timers i).callbackState = .pending := by
    rw [hexp, Timer.published_callbackState]
    exact if_pos hidle
  have hstopped : (k'.timers i).state = .stopped := by
    rw [hexp, Timer.published_state]
    simp [Timer.consumed, hmode]
  have hwindow := ha.window i ((ht.mem i).mpr hact)
  rw [tickReached_add_iff he hwindow.2] at hreached
  obtain ⟨work, hnew, htimer, htick, hgen⟩ := hadv.newWork ht hidle hpend
  cases h with
  | ahead _ hshot hleft hworks =>
    refine .fired hstopped ?_ work (by simp [hworks, hnew]) htimer (htick.trans hshot) hgen
    change shot.deadline ≤ _
    omega
  | fired hst _ _ _ _ _ _ => simp [hact] at hst

theorem step (h : shot.Stands k i clock) (hs : Step cfg k ev k') (hk : Sound cfg k) (ha : k.Ahead)
    (ha' : k'.Ahead) (hmode : (k.timers i).mode = .oneShot)
    (hdone : k.CallbackDone i (k.currentTick + ev.elapsed cfg k)) (harm : ¬ ev.Arms cfg k i)
    (hdis : ¬ ev.Disarms cfg k i) :
    ({ shot with works := shot.works ++ k.newWork k' i } : Shot).Stands k' i
      (clock + (ev.elapsed cfg k).toNat) := by
  have hst := hs.stepped hk
  have ht := hk.timersOk
  have ht' := (hk.step hs).timersOk
  have hquiet (hp : (k'.timers i).callbackState = .pending → (k.timers i).callbackState = .pending)
      (hstands : shot.Stands k' i (clock + (ev.elapsed cfg k).toNat)) :
      ({ shot with works := shot.works ++ k.newWork k' i } : Shot).Stands k' i
        (clock + (ev.elapsed cfg k).toNat) := by
    rw [Kernel.newWork_eq_nil ht ht' hp, List.append_nil]
    exact hstands
  by_cases hmoved : ev.elapsed cfg k = 0
  · have hkeeps := (hs.timerStep hk harm).still hmoved (h.set ht) hdis
    have hl : k.lifecycle ≠ .reset := fun hreset => by
      have hset := (h.set ht).slotState
      simp [ht.fresh hreset i] at hset
    have htick := hst.tick hl
    refine hquiet hkeeps.pending ?_
    rw [hmoved] at htick ⊢
    exact h.still hkeeps (htick.trans (BitVec.add_zero _))
  · cases hst with
    | advances _ he hadv =>
      obtain hsame | ⟨hact, hreached, hexp⟩ := hadv.timer i
      · exact hquiet (fun hp => hsame ▸ hp) (h.untouched hadv ha ha' ht he hsame)
      · exact h.expired hadv ha ht he hmode hdone hact hreached hexp
    | starts still _ => exact absurd still hmoved
    | serves still _ _ _ => exact absurd still hmoved
    | calls hev _ => exact absurd hev.still hmoved
    | _ => exact absurd rfl hmoved

end Shot.Stands

/-! ## Runs -/

/-- The advances of the run leave no timer overdue, and none meets a one-shot timer whose last
callback has not returned. -/
def FiresFreely (cfg : Config) (i : Nat) (k : Kernel) (ev : Event) : Prop :=
  k.Spread (k.currentTick + ev.elapsed cfg k) ∧
    k.CallbackDone i (k.currentTick + ev.elapsed cfg k)

instance : Decidable (FiresFreely cfg i k ev) := inferInstanceAs (Decidable (_ ∧ _))

/-- A run from reset with its armings of one timer. -/
abbrev Armings (cfg : Config) (allowed : Kernel → Event → Prop) (i : Nat) : Kernel → Watch → Prop :=
  Transition.Observed (Step cfg) allowed (Watch.note cfg i) resetKernel {}

/-- What `rts_timer_init` has set stays. -/
theorem Step.sameSetup (hs : Step cfg k ev k') (hk : Sound cfg k)
    (hset : TimerSet cfg i (k.timers i)) : (k.timers i).SameSetup (k'.timers i) := by
  have hmove := (hs.stepped hk).moves hk i
  generalize k'.timers i = timer' at hmove
  cases hmove with
  | initialised _ _ _ hfresh =>
    have hslot := hset.slotState
    simp [hfresh] at hslot
  | restarted _ | stopped _ =>
    obtain ⟨h1, h2, h3, h4, h5, h6⟩ := (k.timers i).purge_sameSetup
    exact ⟨h1, h2, h3, h4, h5, h6⟩
  | expired _ _ _ =>
    obtain ⟨h1, h2, h3, h4, h5, h6⟩ := ((k.timers i).consumed k'.currentTick).published_sameSetup
    exact ⟨h1, h2, h3, h4, h5, h6⟩
  | _ => exact ⟨rfl, rfl, rfl, rfl, rfl, rfl⟩

theorem Armings.set {allowed : Kernel → Event → Prop} {w : Watch} (h : Armings cfg allowed i k w)
    (hshot : w.shot ≠ none) : TimerSet cfg i (k.timers i) := by
  induction h with
  | start => exact absurd rfl hshot
  | @step k k' ev w hrun _ hs ih =>
    have hk : Sound cfg k := ReachableWhen.sound hrun.reachable
    have ht' := (hk.step hs).timersOk
    simp only [Watch.note] at hshot
    split at hshot <;> rename_i harm
    · exact (ht'.slot i).set_of_active (harm.armed hs hk).1
    · split at hshot
      · exact absurd rfl hshot
      · have hset := ih (by simpa using hshot)
        exact (ht'.slot i).set_of_allocated ((hs.sameSetup hk hset).slotState.trans hset.slotState)

theorem Armings.stands {w : Watch} {shot : Shot} (h : Armings cfg (FiresFreely cfg i) i k w)
    (hshot : w.shot = some shot) (hmode : (k.timers i).mode = .oneShot) :
    shot.Stands k i w.clock := by
  induction h generalizing shot with
  | start => simp at hshot
  | @step k k' ev w hrun hfree hs ih =>
    have hreach := hrun.reachable
    have hk : Sound cfg k := ReachableWhen.sound hreach
    have hahead : k.Ahead := ReachableWhen.ahead (hreach.mono fun _ _ => And.left)
    have hahead' : k'.Ahead := ReachableWhen.ahead ((hreach.tail hfree hs).mono fun _ _ => And.left)
    simp only [Watch.note] at hshot ⊢
    split at hshot <;> rename_i harm
    · obtain ⟨hact, hexp⟩ := harm.armed hs hk
      have hzero : ev.elapsed cfg k = 0 := by
        obtain ⟨_, _, ⟨rfl, -⟩ | ⟨rfl, -⟩⟩ := harm <;> rfl
      obtain rfl := Option.some.inj hshot
      refine .ahead hact hexp ?_ rfl
      rw [Kernel.expiration, hexp, distance_of_add, hzero]
      simp
    · split at hshot <;> rename_i hdis
      · simp at hshot
      · obtain ⟨old, hold, rfl⟩ := Option.map_eq_some_iff.mp hshot
        have hset : TimerSet cfg i (k.timers i) := Armings.set hrun (by simp [hold])
        have hmode' := (hs.sameSetup hk hset).mode.symm.trans hmode
        exact (ih hold hmode').step hs hk hahead hahead' hmode' hfree.2 harm hdis

/-- In runs whose advances leave no timer overdue and never meet the timer with its last callback
unfinished: as long as the last arming of a one-shot timer is ahead the timer is active and no work
is queued for it, and from its deadline on the timer is stopped and exactly one work item has been
queued, for that deadline. -/
theorem one_shot_fires_once {w : Watch} {shot : Shot} (h : Armings cfg (FiresFreely cfg i) i k w)
    (hshot : w.shot = some shot) (hmode : (k.timers i).mode = .oneShot) :
    (w.clock < shot.deadline → (k.timers i).state = .active ∧ shot.works = []) ∧
    (shot.deadline ≤ w.clock → (k.timers i).state = .stopped ∧
      ∃ work, shot.works = [work] ∧ work.timer = i ∧ work.expirationTick = shot.tick ∧
        work.generation = (k.timers i).generation) := by
  have hreach := h.reachable
  have hahead : k.Ahead := ReachableWhen.ahead (hreach.mono fun _ _ => And.left)
  have ht : TimersOk cfg k := (ReachableWhen.sound hreach).timersOk
  cases h.stands hshot hmode with
  | ahead hact _ hleft hworks =>
    have hpos := (hahead.window i ((ht.mem i).mpr hact)).1
    exact ⟨fun _ => ⟨hact, hworks⟩, fun hpassed => by omega⟩
  | fired hst hpassed work hworks htimer htick hgen =>
    exact ⟨fun hlt => by omega, fun _ => ⟨hst, work, hworks, htimer, htick, hgen⟩⟩

/-- A one-shot timer that its own callback arms again. -/
def rearmingCallbackEvents : List Event :=
  bootEvents 1 ++ [.timerInit false (some ⟨1, 5, .oneShot⟩), .timerStart false 0,
    .start false true true, .tick true 5, .acquire, .complete ⟨.slot 0, .timerService, 1⟩ true,
    .serviceBegin, .timerRestart false 0]

/-- The callback returns before the new deadline. -/
theorem one_shot_fires_once_rearmed : ∃ k w shot,
    Armings sampleConfig (FiresFreely sampleConfig 0) 0 k w ∧ w.shot = some shot ∧
    w.clock = 10 ∧ (k.timers 0).state = .stopped ∧
    ∃ work, shot.works = [work] ∧ work.timer = 0 ∧ work.expirationTick = shot.tick ∧
      work.generation = (k.timers 0).generation := by
  have hrun : (observe sampleConfig (FiresFreely sampleConfig 0) (Watch.note sampleConfig 0)
      (rearmingCallbackEvents ++ [.tick true 4, .serviceEnd, .tick true 1]) resetKernel {}).any
      (fun r => decide ((r.1.timers 0).mode = .oneShot ∧ r.2.clock = 10 ∧
        (r.2.shot.map Shot.deadline) = some 10)) = true := by
    decide +kernel
  obtain ⟨k, w, hobs, hmode, hclock, hdeadline⟩ := exists_observed hrun
  obtain ⟨shot, hshot, hten⟩ := Option.map_eq_some_iff.mp hdeadline
  have hfires := (one_shot_fires_once hobs hshot hmode).2 (by simp only at hclock; omega)
  exact ⟨k, w, shot, hobs, hshot, hclock, hfires⟩

/-- The callback is still running at the new deadline: the timer is stopped and no work is
queued. -/
theorem one_shot_expiry_discarded : ∃ k w shot,
    Armings sampleConfig (fun _ _ => True) 0 k w ∧ w.shot = some shot ∧
    (k.timers 0).mode = .oneShot ∧ shot.deadline ≤ w.clock ∧ (k.timers 0).state = .stopped ∧
    shot.works = [] := by
  have hrun : (observe sampleConfig (fun _ _ => True) (Watch.note sampleConfig 0)
      (rearmingCallbackEvents ++ [.tick true 5]) resetKernel {}).any
      (fun r => decide ((r.1.timers 0).mode = .oneShot ∧ r.2.clock = 10 ∧
        (r.1.timers 0).state = .stopped ∧ r.2.shot = some ⟨10, 10, []⟩)) = true := by
    decide +kernel
  obtain ⟨k, w, hobs, hmode, hclock, hstopped, hshot⟩ := exists_observed hrun
  exact ⟨k, w, _, hobs, hshot, hmode, hclock.ge, hstopped, rfl⟩

end RtsKernel
