import RtsKernel.Model.Run
import RtsKernel.Operation.Preservation

/-!
# Units of a semaphore

Units enter a semaphore with its initialisation and with every give that succeeds, and leave it with
every take that is granted, at once or by a give that hands its unit to the first waiter. An
observer counts them beside the run; time-outs and changes of priority move none.

## Main results

* `Step.units`: what one event does to the books of a semaphore.
* `semaphore_units_conserved`: the books balance in every state of every run.
-/

namespace RtsKernel

open Halting Prog

variable {cfg : Config} {base : Tick} {k k' k₁ k₂ : Kernel} {ev : Event} {i j : Nat} {t c : TaskId}
  {status : Status}

/-! ## What is counted -/

/-- The waiters to which a step hands a unit. -/
def handoffs (i : Nat) (k k' : Kernel) : Nat :=
  (k.semaphores i).waiters.countP fun t => decide ((k'.tasks t).wait.result = .acquired)

/-- A give that returns `RTS_STATUS_OK`. -/
def Event.Gave (cfg : Config) (i : Nat) (k : Kernel) : Event → Prop
  | .give isr semaphore =>
    semaphore = some i ∧ (semaphoreGive cfg isr semaphore k).value? = some .ok
  | .giveFromIsr isr semaphore =>
    semaphore = some i ∧ ((semaphoreGiveFromIsr cfg isr semaphore k).value?.map Prod.fst) = some .ok
  | _ => False

instance (cfg : Config) (i : Nat) (k : Kernel) : DecidablePred (Event.Gave cfg i k) := fun ev => by
  induction ev using Event.casesOn <;> dsimp only [Event.Gave] <;> infer_instance

/-- A take that returns `RTS_STATUS_OK` without a wait. -/
def Event.Took (cfg : Config) (i : Nat) (k k' : Kernel) : Event → Prop
  | .take isr semaphore timeout =>
    semaphore = some i ∧ (semaphoreTake cfg isr semaphore timeout k).value? = some .ok ∧
      ∀ c ∈ k.currentTask, c ∉ (k'.semaphores i).waiters
  | _ => False

instance (cfg : Config) (i : Nat) (k k' : Kernel) : DecidablePred (Event.Took cfg i k k') := by
  intro ev
  induction ev using Event.casesOn <;> dsimp only [Event.Took] <;> infer_instance

/-- The counts of an initialisation that returns `RTS_STATUS_OK`. -/
def Event.initialised (cfg : Config) (i : Nat) (k : Kernel) : Event → Option (Nat × Nat)
  | .semaphoreInit isr semaphore initial maximum =>
    if semaphore = some i ∧
      (RtsKernel.semaphoreInit cfg isr semaphore initial maximum k).value? = some .ok then
      some (initial, maximum)
    else none
  | _ => none

/-- The books of a semaphore since its initialisation. -/
structure Units where
  initial : Nat
  maximum : Nat
  /-- Gives that returned `RTS_STATUS_OK`. -/
  gives : Nat
  /-- Takes that were granted, at once or by a give. -/
  grants : Nat

/-- The books after a step. -/
def Units.note (cfg : Config) (i : Nat) (units : Option Units) (k : Kernel) (ev : Event)
    (k' : Kernel) : Option Units :=
  match ev.initialised cfg i k with
  | some (initial, maximum) => some ⟨initial, maximum, 0, 0⟩
  | none => units.map fun u =>
    { u with
      gives := u.gives + if ev.Gave cfg i k then 1 else 0
      grants := u.grants + (if ev.Took cfg i k k' then 1 else 0) + handoffs i k k' }

/-! ## What a step moves -/

/-- A step has moved units into a semaphore and out of it. -/
structure Moves (i : Nat) (k k' : Kernel) (given taken : Nat) : Prop where
  maximum : (k'.semaphores i).maximumCount = (k.semaphores i).maximumCount
  initialized : (k'.semaphores i).initialized = (k.semaphores i).initialized
  units : (k'.semaphores i).count + taken + handoffs i k k' = (k.semaphores i).count + given

theorem Moves.of_none (hs : (k.semaphores i).SameButWaiters (k'.semaphores i))
    (hh : handoffs i k k' = 0) : Moves i k k' 0 0 := by
  refine ⟨?_, ?_, ?_⟩
  · rw [hs]
  · rw [hs]
  · rw [hs, hh]

/-- A waiter of a semaphore. -/
structure Waits (i : Nat) (k : Kernel) (t : TaskId) : Prop where
  blocked : (k.tasks t).state = .blocked
  reason : (k.tasks t).wait.reason = .semaphore
  object : (k.tasks t).wait.object = some (.semaphore i)
  result : (k.tasks t).wait.result = .none
  ne_service : t ≠ .timerService

theorem Inv.waits (h : Inv cfg base noneStale k) (ht : t ∈ (k.semaphores i).waiters) :
    Waits i k t := by
  obtain ⟨hb, hr, ho⟩ := (h.tasks t).waitOwner_eq_some.mp ((h.wait.mem (.semaphore i) t).mp ht)
  refine ⟨hb, hr, ho, ((h.tasks t).waits hb).1, ?_⟩
  exact ((h.tasks t).isApplication hb (by simp [hr, WaitObject.reason])).ne_timerService

theorem handoffs_eq_zero (h : ∀ t ∈ (k.semaphores i).waiters,
    (k'.tasks t).wait.result ≠ .acquired) : handoffs i k k' = 0 := by
  rw [handoffs, List.countP_eq_zero]
  simpa using h

/-- Waits that go on hand nobody a unit. -/
theorem handoffs_of_wait_eq (h : Inv cfg base noneStale k)
    (hw : ∀ t, Waits i k t → (k'.tasks t).wait = (k.tasks t).wait) : handoffs i k k' = 0 := by
  refine handoffs_eq_zero fun t ht => ?_
  have hwaits := h.waits ht
  simp [hw t hwaits, hwaits.result]

/-- The events of a semaphore. -/
def Event.On (i : Nat) : Event → Prop
  | .semaphoreInit _ semaphore _ _ | .take _ semaphore _ | .give _ semaphore
  | .giveFromIsr _ semaphore => semaphore = some i
  | _ => False

theorem SameWaits.wait_eq (h : SameWaits k k') (ht : Waits i k₁ t) :
    (k'.tasks t).wait = (k.tasks t).wait := (h.tasks t ht.ne_service).1

theorem Suspends.wait_eq {wait : Wait} (h : Suspends cfg k k' c wait) (ht : Waits i k t) :
    (k'.tasks t).wait = (k.tasks t).wait := by
  have hne : t ≠ c := by
    rintro rfl
    simpa [h.running] using ht.blocked
  rw [h.blocks.others t hne]

theorem Wakes.wait_eq {result : WaitResult} {u : TaskId} (h : Wakes cfg k k' u result)
    (hne : t ≠ u) : (k'.tasks t).wait = (k.tasks t).wait := by
  rw [(h.others t hne).1]

/-- Events of other objects move no units. -/
theorem Effect.moves (he : Effect cfg k k' ev) (h : Inv cfg base noneStale k) (hev : ¬ ev.On i) :
    Moves i k k' 0 0 := by
  cases he with
  | quiet same still =>
    exact .of_none (same.semaphores i) (handoffs_of_wait_eq h fun t ht => same.wait_eq ht)
  | startup before after semaphores still =>
    refine .of_none (by rw [semaphores]; rfl) (handoffs_eq_zero fun t _ => ?_)
    simp [(after.tasks t).1]
  | @initialises isr j n max fresh same =>
    have hij : i ≠ j := fun hij => hev (by simp [Event.On, hij])
    refine .of_none ?_ (handoffs_of_wait_eq h fun t ht => same.wait_eq ht)
    simpa [hij] using same.semaphores i
  | delays _ _ blocks same =>
    exact .of_none ((blocks.blocks.semaphores i).trans (same.semaphores i))
      (handoffs_of_wait_eq h fun t ht => (same.wait_eq ht).trans (blocks.wait_eq ht))
  | @taken isr j timeout available same =>
    have hij : i ≠ j := fun hij => hev (by simp [Event.On, hij])
    refine .of_none ?_ (handoffs_of_wait_eq h fun t ht => same.wait_eq ht)
    simpa [hij] using same.semaphores i
  | takes _ _ blocks same =>
    exact .of_none ((blocks.blocks.semaphores i).trans (same.semaphores i))
      (handoffs_of_wait_eq h fun t ht => (same.wait_eq ht).trans (blocks.wait_eq ht))
  | @given _ j event nobody same =>
    have hij : i ≠ j := by
      obtain ⟨isr, rfl | rfl⟩ := event <;> exact fun hij => hev (by simp [Event.On, hij])
    refine .of_none ?_ (handoffs_of_wait_eq h fun t ht => same.wait_eq ht)
    simpa [hij] using same.semaphores i
  | @grants _ j u k₁ event head wakes owners same =>
    have hij : i ≠ j := by
      obtain ⟨isr, rfl | rfl⟩ := event <;> exact fun hij => hev (by simp [Event.On, hij])
    have hu := h.waits (List.mem_of_mem_head? head)
    refine .of_none ((wakes.semaphores i).trans (same.semaphores i))
      (handoffs_of_wait_eq h fun t ht => (same.wait_eq ht).trans (wakes.wait_eq ?_))
    rintro rfl
    exact hij (by simpa [ht.object] using hu.object)
  | @owns isr m timeout c k₁ free current change same =>
    have hsem : k₁.semaphores = k.semaphores := by rw [change.rest]
    refine .of_none (hsem ▸ same.semaphores i)
      (handoffs_of_wait_eq h fun t ht => (same.wait_eq ht).trans ?_)
    rw [change.tasks t]
  | locks _ _ blocks same =>
    exact .of_none ((blocks.blocks.semaphores i).trans (same.semaphores i))
      (handoffs_of_wait_eq h fun t ht => (same.wait_eq ht).trans (blocks.wait_eq ht))
  | @disowns isr m c k₁ owner current nobody change same =>
    have hsem : k₁.semaphores = k.semaphores := by rw [change.rest]
    refine .of_none (hsem ▸ same.semaphores i)
      (handoffs_of_wait_eq h fun t ht => (same.wait_eq ht).trans ?_)
    rw [change.tasks t]
  | @handsOff isr m former waiter k₁ change same =>
    have hin : waiter ∈ k.waiters (.mutex m) := List.mem_of_mem_head? change.head
    obtain ⟨-, -, ho⟩ := (h.tasks waiter).waitOwner_eq_some.mp ((h.wait.mem _ _).mp hin)
    refine .of_none ((change.wakes.semaphores i).trans (same.semaphores i))
      (handoffs_of_wait_eq h fun t ht => (same.wait_eq ht).trans (change.wakes.wait_eq ?_))
    rintro rfl
    simp [ht.object] at ho
  | @consumes c current same =>
    refine .of_none (same.semaphores i) (handoffs_eq_zero fun t ht => ?_)
    have hwaits := h.waits ht
    rw [same.wait_eq hwaits]
    rcases eq_or_ne t c with rfl | hne
    · simp
    · simp [hne, hwaits.result]
  | @expires _ woken k₁ moved range expired exact same =>
    refine .of_none ((expired.semaphores i).trans (same.semaphores i))
      (handoffs_eq_zero fun t ht => ?_)
    have hwaits := h.waits ht
    rw [same.wait_eq hwaits]
    by_cases hin : t ∈ woken
    · have hresult : (k₁.tasks t).wait.result = (k.tasks t).wait.expiryResult :=
        (expired.ended t hin).2
      simp [hresult, Wait.expiryResult, hwaits.reason]
    · have hkept : (k₁.tasks t).wait = (k.tasks t).wait := (expired.kept t hin).1
      simp [hkept, hwaits.result]

theorem Moves.refl (h : Inv cfg base noneStale k) : Moves i k k 0 0 :=
  .of_none rfl (handoffs_of_wait_eq h fun _ _ => rfl)

/-- A take moves a unit out unless it fails or puts its caller on the wait list. -/
theorem semaphoreTake_moves {isr : Bool} {timeout : Tick} (h : KernelOk cfg k) :
    wp (semaphoreTake cfg isr (some i) timeout) (fun status k' => Moves i k k' 0
      (if status = .ok ∧ ∀ c ∈ k.currentTask, c ∉ (k'.semaphores i).waiters then 1 else 0))
      (Tolerated k.CurrentReady k.IdleOwns) k := by
  refine wp_semaphoreTake h (fun status hs => ?_) (fun _ hcount g => ?_)
    fun c k₁ k₂ b _ _ hsus hinv hp => ?_
  · rw [if_neg fun hok => hs hok.1]
    exact .refl h.inv
  · have hnil : (k.semaphores i).waiters = [] := (h.inv.semaphores i).available hcount
    rw [if_pos ⟨rfl, fun c _ => by simp [hnil]⟩]
    have hnone :
        handoffs i k ((k.updateSemaphore i fun s => { s with count := s.count - 1 }).count g) =
        0 := handoffs_of_wait_eq h.inv fun _ _ => rfl
    refine ⟨by simp, by simp, ?_⟩
    rw [hnone]
    simp only [Kernel.count_semaphores, Kernel.updateSemaphore_semaphores, Function.update_self]
    omega
  · have hsame : SameWaits k₁ (k₂.notify b) := (hp.replanned.trans (.notify k₂ b)).sameWaits
    have hlist : ((k₂.notify b).semaphores i).waiters = (k₁.semaphores i).waiters := by
      rw [hp.replanned.trans (.notify k₂ b)]
    have hin : c ∈ ((k₂.notify b).semaphores i).waiters := by
      have hobject : (objectWait .semaphore (.semaphore i) k.currentTick timeout).object =
          some (.semaphore i) := rfl
      have hwaiters := hsus.blocks.waiters (.semaphore i)
      rw [if_pos hobject] at hwaiters
      have hmem : c ∈ k₁.waiters (.semaphore i) := by simp [hwaiters]
      rw [hlist]
      exact hmem
    rw [if_neg fun hok => hok.2 c hsus.current hin]
    exact .of_none ((hsus.blocks.semaphores i).trans (hsame.semaphores i))
      (handoffs_of_wait_eq h.inv fun t ht => (hsame.wait_eq ht).trans (hsus.wait_eq ht))

/-- The first waiter is handed a unit, and nobody else. -/
theorem handoffs_of_wakes (h : Inv cfg base noneStale k)
    (hhead : (k.semaphores i).waiters.head? = some t) (hwakes : Wakes cfg k k₁ t .acquired)
    (hsame : SameWaits k₁ k') : handoffs i k k' = 1 := by
  obtain ⟨l, hl⟩ : ∃ l, (k.semaphores i).waiters = t :: l := List.head?_eq_some_iff.mp hhead
  have ht := h.waits (i := i) (t := t) (by simp [hl])
  have hrest : l.countP (fun t => decide ((k'.tasks t).wait.result = .acquired)) = 0 := by
    rw [List.countP_eq_zero]
    intro u hu
    have hwaits := h.waits (i := i) (t := u) (by simp [hl, hu])
    have hne : u ≠ t := by
      have hnodup := h.wait.nodup (.semaphore i)
      simp only [Kernel.waiters, hl] at hnodup
      grind
    simp [hsame.wait_eq hwaits, hwakes.wait_eq hne, hwaits.result]
  rw [handoffs, hl, List.countP_cons_of_pos _, hrest]
  simp [hsame.wait_eq ht, hwakes.wait.2.2.2]

/-- A give that succeeds moves a unit in. -/
theorem semaphoreGiveCommon_moves (h : KernelOk cfg k) :
    wp (semaphoreGiveCommon cfg i) (fun r k' => ∀ b, Moves i k (k'.notify b)
      (if r.1 = .ok then 1 else 0) 0) (Tolerated k.CurrentReady k.IdleOwns) k := by
  have hfail {status : Status} (hs : status ≠ .ok) (b : Bool) :
      Moves i k (k.notify b) (if status = .ok then 1 else 0) 0 := by
    rw [if_neg hs]
    exact .of_none rfl (handoffs_of_wait_eq h.inv fun _ _ => rfl)
  refine wp_semaphoreGiveCommon h (fun status hs _ _ => hfail hs) (fun _ _ => hfail (by simp))
    (fun _ hw _ b => ?_) fun t k₁ k₂ b' hhead hwake _ _ hp b => ?_
  · rw [if_pos rfl]
    refine ⟨by simp [Kernel.notify], by simp [Kernel.notify], ?_⟩
    have hnone :
        handoffs i k ((k.updateSemaphore i fun s => { s with count := s.count + 1 }).notify b) =
        0 := handoffs_of_wait_eq h.inv fun _ _ => rfl
    rw [hnone]
    simp [Kernel.notify]
  · have hsame : SameWaits k₁ (k₂.notify b) := (hp.replanned.trans (.notify k₂ b)).sameWaits
    have hsem := (hwake.semaphores i).trans (hsame.semaphores i)
    refine ⟨by rw [hsem], by rw [hsem], ?_⟩
    rw [handoffs_of_wakes h.inv hhead hwake hsame, hsem]
    simp

theorem semaphoreGive_moves {isr : Bool} (h : KernelOk cfg k) :
    wp (semaphoreGive cfg isr (some i))
      (fun status k' => Moves i k k' (if status = .ok then 1 else 0) 0)
      (Tolerated k.CurrentReady k.IdleOwns) k := by
  simp only [semaphoreGive, wp_ite, wp_bind]
  split
  · exact .refl h.inv
  · exact wp_mono (semaphoreGiveCommon_moves h) (fun r k₁ hk₁ => wp_notifyPort (hk₁ _))
      fun _ _ => id

theorem semaphoreGiveFromIsr_moves {isr : Bool} (h : KernelOk cfg k) :
    wp (semaphoreGiveFromIsr cfg isr (some i))
      (fun r k' => Moves i k k' (if r.1 = .ok then 1 else 0) 0)
      (Tolerated k.CurrentReady k.IdleOwns) k := by
  simp only [semaphoreGiveFromIsr, wp_ite, wp_bind]
  split
  · exact .refl h.inv
  · exact wp_mono (semaphoreGiveCommon_moves h) (fun r k₁ hk₁ => hk₁ false) fun _ _ => id

/-! ## The books of a run -/

/-- The books of a semaphore balance. -/
structure Units.Balance (units : Units) (s : Semaphore) : Prop where
  initialized : s.initialized = true
  maximum : s.maximumCount = units.maximum
  balance : units.initial + units.gives = s.count + units.grants

/-- A semaphore has books from its initialisation on, and they balance. -/
def Books (i : Nat) (k : Kernel) : Option Units → Prop
  | none => (k.semaphores i).initialized = false
  | some units => units.Balance (k.semaphores i)

theorem Event.initialised_eq_none (h : ¬ ev.On i) : ev.initialised cfg i k = none := by
  cases ev <;> grind [Event.initialised, Event.On]

theorem Event.not_gave (h : ¬ ev.On i) : ¬ ev.Gave cfg i k := by
  cases ev <;> grind [Event.Gave, Event.On]

theorem Event.not_took (h : ¬ ev.On i) : ¬ ev.Took cfg i k k' := by
  cases ev <;> grind [Event.Took, Event.On]

/-- Units that move are noted. -/
theorem Moves.books {units : Option Units} (h : Books i k units)
    (hinit : ev.initialised cfg i k = none)
    (hm : Moves i k k' (if ev.Gave cfg i k then 1 else 0) (if ev.Took cfg i k k' then 1 else 0)) :
    Books i k' (Units.note cfg i units k ev k') := by
  simp only [Units.note, hinit]
  cases units with
  | none => exact hm.initialized.trans h
  | some units =>
    refine ⟨hm.initialized.trans h.initialized, hm.maximum.trans h.maximum, ?_⟩
    have hbalance := h.balance
    have hunits := hm.units
    dsimp only
    omega

/-- An initialisation that succeeds opens new books. -/
theorem semaphoreInit_books {isr : Bool} {initial maximum : Nat} {units : Option Units}
    (h : KernelOk cfg k) (hbooks : Books i k units) :
    wp (semaphoreInit cfg isr (some i) initial maximum) (fun status k' => ∀ k'',
      semaphoreInit cfg isr (some i) initial maximum k = .ret status k'' →
      Books i k' (Units.note cfg i units k (.semaphoreInit isr (some i) initial maximum) k'))
      (Tolerated k.CurrentReady k.IdleOwns) k := by
  refine wp_semaphoreInit h (fun status hs k'' hret => ?_) fun _ _ k'' hret => ?_
  · have hnone : (Event.semaphoreInit isr (some i) initial maximum).initialised cfg i k = none := by
      simp [Event.initialised, hret, Outcome.value?, hs]
    exact Moves.books hbooks hnone (.refl h.inv)
  · have hsome : (Event.semaphoreInit isr (some i) initial maximum).initialised cfg i k =
        some (initial, maximum) := by
      simp [Event.initialised, hret, Outcome.value?]
    simp only [Units.note, hsome]
    exact ⟨by simp, by simp, by simp⟩

/-- What one event does to the books of a semaphore. -/
theorem Step.units {units : Option Units} (hs : Step cfg k ev k') (h : Sound cfg k)
    (hbooks : Books i k units) : Books i k' (Units.note cfg i units k ev k') := by
  by_cases hev : ev.On i
  · cases ev with
    | semaphoreInit isr semaphore initial maximum =>
      obtain rfl : semaphore = some i := hev
      obtain ⟨status, hret⟩ := exists_ret_of_discard hs.2
      exact (wp_ret (semaphoreInit_books h.ok hbooks) hret :) k' hret
    | take isr semaphore timeout =>
      obtain rfl : semaphore = some i := hev
      obtain ⟨status, hret⟩ := exists_ret_of_discard hs.2
      have hgave : ¬ (Event.take isr (some i) timeout).Gave cfg i k := id
      have htook : (Event.take isr (some i) timeout).Took cfg i k k' ↔
          status = .ok ∧ ∀ c ∈ k.currentTask, c ∉ (k'.semaphores i).waiters := by
        simp [Event.Took, hret, Outcome.value?]
      refine Moves.books hbooks rfl ?_
      rw [if_neg hgave, if_congr htook rfl rfl]
      exact (wp_ret (semaphoreTake_moves h.ok) hret :)
    | give isr semaphore =>
      obtain rfl : semaphore = some i := hev
      obtain ⟨status, hret⟩ := exists_ret_of_discard hs.2
      have hgave : (Event.give isr (some i)).Gave cfg i k ↔ status = .ok := by
        simp [Event.Gave, hret, Outcome.value?]
      have htook : ¬ (Event.give isr (some i)).Took cfg i k k' := id
      refine Moves.books hbooks rfl ?_
      rw [if_neg htook, if_congr hgave rfl rfl]
      exact (wp_ret (semaphoreGive_moves h.ok) hret :)
    | giveFromIsr isr semaphore =>
      obtain rfl : semaphore = some i := hev
      obtain ⟨r, hret⟩ := exists_ret_of_discard hs.2
      have hgave : (Event.giveFromIsr isr (some i)).Gave cfg i k ↔ r.1 = .ok := by
        simp [Event.Gave, hret, Outcome.value?]
      have htook : ¬ (Event.giveFromIsr isr (some i)).Took cfg i k k' := id
      refine Moves.books hbooks rfl ?_
      rw [if_neg htook, if_congr hgave rfl rfl]
      exact (wp_ret (semaphoreGiveFromIsr_moves h.ok) hret :)
    | _ => exact hev.elim
  · refine Moves.books hbooks (Event.initialised_eq_none hev) ?_
    rw [if_neg (Event.not_gave hev), if_neg (Event.not_took hev)]
    exact ((hs.stepped h).effect h).moves h.ok.inv hev

/-- Runs with the books of a semaphore. -/
abbrev UnitsRun (cfg : Config) (i : Nat) : Kernel → Option Units → Prop :=
  Transition.Observed (Step cfg) (fun _ _ => True) (Units.note cfg i) resetKernel none

theorem UnitsRun.books {units : Option Units} (h : UnitsRun cfg i k units) : Books i k units := by
  induction h with
  | start => exact rfl
  | step hrun _ hs ih => exact hs.units (ReachableWhen.sound hrun.reachable) ih

/-! ## Full semaphores -/

/-- A give to a full semaphore returns and changes nothing. -/
theorem semaphoreGiveCommon_of_full (h : KernelOk cfg k) (hl : k.lifecycle = .running)
    (hi : (k.semaphores i).initialized = true) (hw : (k.semaphores i).waiters = [])
    (hc : (k.semaphores i).count = (k.semaphores i).maximumCount) :
    semaphoreGiveCommon cfg i k = .ret (.full, false) k := by
  have hspec : wp (semaphoreGiveCommon cfg i) (fun r k' => r = (.full, false) ∧ k' = k)
      (fun _ _ => False) k := by
    have hvalid := h.inv.semaphoreIsValid hi
    simp [semaphoreGiveCommon, semaphoreWakeOne, wp_bind, wp_get, wp_ite, hl, hvalid, hw, hc]
  obtain ⟨r, k', hret, rfl, rfl⟩ := exists_ret_of_wp hspec
  exact hret

theorem semaphoreGive_of_full (h : KernelOk cfg k) (hl : k.lifecycle = .running)
    (hi : (k.semaphores i).initialized = true) (hw : (k.semaphores i).waiters = [])
    (hc : (k.semaphores i).count = (k.semaphores i).maximumCount) :
    semaphoreGive cfg false (some i) k = .ret .full k := by
  have hfull := semaphoreGiveCommon_of_full h hl hi hw hc
  change Prog.bind (semaphoreGiveCommon cfg i) _ k = _
  rw [Prog.bind, hfull]
  rfl

theorem semaphoreGiveFromIsr_of_full (h : KernelOk cfg k) (hl : k.lifecycle = .running)
    (hi : (k.semaphores i).initialized = true) (hw : (k.semaphores i).waiters = [])
    (hc : (k.semaphores i).count = (k.semaphores i).maximumCount) :
    semaphoreGiveFromIsr cfg true (some i) k = .ret (.full, false) k := by
  have hfull := semaphoreGiveCommon_of_full h hl hi hw hc
  change Prog.bind (semaphoreGiveCommon cfg i) _ k = _
  rw [Prog.bind, hfull]
  rfl

/-- Only a give to a full semaphore reports it. -/
theorem semaphoreGiveCommon_reports_full (h : KernelOk cfg k) :
    wp (semaphoreGiveCommon cfg i) (fun r k' => r.1 = .full → (k.semaphores i).waiters = [] ∧
      (k.semaphores i).count = (k.semaphores i).maximumCount ∧ k' = k ∧ r.2 = false)
      (Tolerated k.CurrentReady k.IdleOwns) k :=
  wp_semaphoreGiveCommon h (fun _ _ hs _ hfull => absurd hfull hs)
    (fun hw hc _ => ⟨hw, hc, rfl, rfl⟩)
    (fun _ _ _ hfull => by simp at hfull) fun _ _ _ _ _ _ _ _ _ hfull => by simp at hfull

theorem semaphoreGive_reports_full {isr : Bool} (h : KernelOk cfg k) :
    wp (semaphoreGive cfg isr (some i)) (fun status k' => status = .full →
      (k.semaphores i).waiters = [] ∧ (k.semaphores i).count = (k.semaphores i).maximumCount ∧
      k' = k)
      (Tolerated k.CurrentReady k.IdleOwns) k := by
  simp only [semaphoreGive, wp_ite, wp_bind]
  split
  · simp
  · refine wp_mono (semaphoreGiveCommon_reports_full h)
      (fun r k₁ hk₁ => wp_notifyPort fun hfull => ?_)
      fun _ _ => id
    obtain ⟨hw, hc, rfl, hnone⟩ := hk₁ hfull
    refine ⟨hw, hc, ?_⟩
    rw [hnone, Bool.and_false]
    rfl

theorem semaphoreGiveFromIsr_reports_full {isr : Bool} (h : KernelOk cfg k) :
    wp (semaphoreGiveFromIsr cfg isr (some i)) (fun r k' => r.1 = .full →
      (k.semaphores i).waiters = [] ∧ (k.semaphores i).count = (k.semaphores i).maximumCount ∧
      k' = k)
      (Tolerated k.CurrentReady k.IdleOwns) k := by
  simp only [semaphoreGiveFromIsr, wp_ite, wp_bind]
  split
  · simp
  · refine wp_mono (semaphoreGiveCommon_reports_full h) (fun r k₁ hk₁ hfull => ?_) fun _ _ => id
    obtain ⟨hw, hc, hk, -⟩ := hk₁ hfull
    exact ⟨hw, hc, hk⟩

/-- Units are conserved: in every state of every run what was there at first and what was given is
there or was granted. A waiter finds no unit, and a give reports a full semaphore exactly if nobody
waits and there is no room, and then changes nothing. -/
theorem semaphore_units_conserved {books : Option Units} (hrun : UnitsRun cfg i k books)
    (hi : (k.semaphores i).initialized = true) :
    ∃ units, books = some units ∧
      units.initial + units.gives = (k.semaphores i).count + units.grants ∧
      (k.semaphores i).count ≤ units.maximum ∧
      ((k.semaphores i).waiters ≠ [] → (k.semaphores i).count = 0) ∧
      (k.lifecycle = .running →
        ((k.semaphores i).waiters = [] ∧ (k.semaphores i).count = units.maximum →
          semaphoreGive cfg false (some i) k = .ret .full k ∧
          semaphoreGiveFromIsr cfg true (some i) k = .ret (.full, false) k) ∧
        (∀ isr k', semaphoreGive cfg isr (some i) k = .ret .full k' →
          (k.semaphores i).waiters = [] ∧ (k.semaphores i).count = units.maximum ∧ k' = k) ∧
        ∀ isr b k', semaphoreGiveFromIsr cfg isr (some i) k = .ret (.full, b) k' →
          (k.semaphores i).waiters = [] ∧ (k.semaphores i).count = units.maximum ∧ k' = k) := by
  have h : KernelOk cfg k := (ReachableWhen.sound hrun.reachable).ok
  have hbooks := hrun.books
  cases books with
  | none => cases hi.symm.trans hbooks
  | some units =>
    have hmax := hbooks.maximum
    have hok := h.inv.semaphores i
    refine ⟨units, rfl, hbooks.balance, hmax ▸ (hok.initialized hi).2, fun hw => ?_, fun hl => ?_⟩
    · by_contra hpos
      exact hw (hok.available (Nat.pos_of_ne_zero hpos))
    · rw [← hmax]
      refine ⟨fun ⟨hw, hc⟩ => ?_, fun isr k' hret => ?_, fun isr b k' hret => ?_⟩
      · exact ⟨semaphoreGive_of_full h hl hi hw hc, semaphoreGiveFromIsr_of_full h hl hi hw hc⟩
      · exact (wp_ret (semaphoreGive_reports_full h) hret :) rfl
      · exact (wp_ret (semaphoreGiveFromIsr_reports_full h) hret :) rfl

/-- A task takes the one unit of a semaphore, waits for another and is handed it by an interrupt. -/
def handoffEvents : List Event :=
  bootEvents 1 ++
    [.semaphoreInit false (some 0) 1 2, .start false true true, .take false (some 0) 0,
      .take false (some 0) waitForever, .acquire, .complete ⟨.slot 0, .idle, 1⟩ true,
      .giveFromIsr true (some 0)]

theorem semaphore_units_conserved_handoff : ∃ k units, UnitsRun sampleConfig 0 k (some units) ∧
    units.gives = 1 ∧ units.grants = 2 ∧
    units.initial + units.gives = (k.semaphores 0).count + units.grants := by
  have hrun : (observe sampleConfig (fun _ _ => True) (Units.note sampleConfig 0) handoffEvents
      resetKernel none).any (fun r => decide ((r.1.semaphores 0).initialized = true ∧
        r.2.map Units.gives = some 1 ∧ r.2.map Units.grants = some 2)) = true := by
    decide +kernel
  obtain ⟨k, books, hobserved, hinit, hgives, hgrants⟩ := exists_observed hrun
  obtain ⟨units, rfl, hbalance, -⟩ := semaphore_units_conserved hobserved hinit
  exact ⟨k, units, hobserved, Option.some.inj hgives, Option.some.inj hgrants, hbalance⟩

end RtsKernel
