import RtsKernel.Library.Ordered
import RtsKernel.Model.Run
import RtsKernel.Operation.Preservation
import RtsKernel.Operation.Roster
import RtsKernel.Property.Deadlines

/-!
# The ready list of the kernel under the deadline policy

The policy compares deadlines and release numbers modulo `2 ^ 32`. On tasks whose deadlines and
numbers lie in half the range above a common base the comparison is the order of one number, the
key, and insertion keeps the ready list in order. A step of the kernel may release every task once
and gives out at most two numbers for each of them; the condition on a step leaves that much room.

What a task is created with is written by `rts_init` and `rts_task_create` only.

## Main results

* `Roster.before_iff_key_lt`: the comparison inside a window.
* `Roster.Good.place`, `Roster.Good.record`: a release keeps the order.
* `Sound.step_ordered`: a punctual step keeps the order.
* `ready_list_ordered`: the ready list of the kernel in every punctual run.
* `task_identity_kept`: no other operation writes what a task was created with.
-/

namespace RtsKernel

open Halting Prog

variable {cfg : Config} {k k' : Kernel} {ev : Event} {R R' : Roster} {D N : Tick} {t u : TaskId}
  {n : Nat}

/-! ## The order inside a window -/

namespace Roster

/-- The ready list is in the order of the policy. -/
def Ordered (R : Roster) : Prop := R.ready.Pairwise fun a b => ¬ R.Before b a

/-- The deadline and the number of a task, idle apart, lie in half the range above the bases. -/
def Near (R : Roster) (D N : Tick) (t : TaskId) : Prop :=
  R.idle ≠ some t → distance D (R.deadline t) < 2 ^ 31 ∧ distance N (R.number t) < 2 ^ 31

/-- The deadline and the number of a task as one number; idle comes last. -/
def key (R : Roster) (D N : Tick) (t : TaskId) : Nat :=
  if R.idle = some t then 2 ^ 64 else distance D (R.deadline t) * 2 ^ 32 + distance N (R.number t)

theorem key_le (R : Roster) (D N : Tick) (t : TaskId) : R.key D N t ≤ 2 ^ 64 := by
  have hd := distance_lt D (R.deadline t)
  have hn := distance_lt N (R.number t)
  unfold key
  split <;> omega

theorem before_iff_key_lt (ht : R.Near D N t) (hu : R.Near D N u) :
    R.Before t u ↔ R.key D N t < R.key D N u := by
  by_cases hit : R.idle = some t
  · refine iff_of_false (fun h => h.1 hit) ?_
    have hle := R.key_le D N u
    rw [key, if_pos hit]
    omega
  obtain ⟨htd, htn⟩ := ht hit
  by_cases hiu : R.idle = some u
  · refine iff_of_true ⟨hit, .inl hiu⟩ ?_
    rw [key, if_neg hit, key, if_pos hiu]
    omega
  obtain ⟨hud, hun⟩ := hu hiu
  rw [key, if_neg hit, key, if_neg hiu]
  simp only [Before, ne_eq, hit, hiu, not_false_eq_true, false_or, true_and]
  by_cases heq : R.deadline t = R.deadline u
  · rw [if_neg (not_not.mpr heq), tickBefore_iff_of_window htn hun, ← distance_inj N, heq]
    omega
  · have hne : distance D (R.deadline t) ≠ distance D (R.deadline u) := fun he =>
      heq ((distance_inj D).mp he)
    rw [if_pos heq, tickBefore_iff_of_window htd hud]
    omega

/-- The list is in order, its members are near the bases, and so is every release at this time. -/
structure Good (R : Roster) (D N : Tick) : Prop where
  ordered : R.Ordered
  near : ∀ t ∈ R.ready, R.Near D N t
  due : ∀ t, distance D (R.due t) < 2 ^ 31

/-- Another record of the tasks that are not ready. -/
theorem Good.of_members (h : R.Good D N) (hready : R'.ready = R.ready) (hidle : R'.idle = R.idle)
    (hdeadline : ∀ u ∈ R.ready, R'.deadline u = R.deadline u)
    (hnumber : ∀ u ∈ R.ready, R'.number u = R.number u)
    (hdue : ∀ t, distance D (R'.due t) < 2 ^ 31) : R'.Good D N := by
  refine ⟨?_, fun u hu => ?_, hdue⟩
  · unfold Ordered
    rw [hready]
    refine h.ordered.imp_of_mem fun {a b} ha hb hab => ?_
    unfold Before at hab ⊢
    rwa [hidle, hdeadline a ha, hdeadline b hb, hnumber a ha, hnumber b hb]
  · rw [hready] at hu
    unfold Near
    rw [hidle, hdeadline u hu, hnumber u hu]
    exact h.near u hu

theorem Good.remove (h : R.Good D N) : (R.remove t).Good D N :=
  ⟨h.ordered.sublist List.erase_sublist, fun u hu => h.near u (List.mem_of_mem_erase hu), h.due⟩

theorem Good.place (h : R.Good D N) (ht : R.Near D N t) : (R.place t).Good D N := by
  have hkey : ∀ {a b}, R.Near D N a → R.Near D N b → (R.Before a b ↔ R.key D N a < R.key D N b) :=
    before_iff_key_lt
  refine ⟨?_, fun u hu => ?_, h.due⟩
  · change (R.ready.orderedInsert R.Before t).Pairwise fun a b => ¬ R.Before b a
    refine Ordered.pairwise_orderedInsert h.ordered (fun b hb hab => ?_) (fun b _ hab => hab)
      fun b hb c hc hab hbc => ?_
    · rw [hkey ht (h.near b hb)] at hab
      rw [hkey (h.near b hb) ht]
      omega
    · rw [hkey (h.near b hb) ht] at hab
      rw [hkey (h.near c hc) (h.near b hb)] at hbc
      rw [hkey (h.near c hc) ht]
      omega
  · obtain rfl | hu := Ordered.mem_orderedInsert.mp hu
    · exact ht
    · exact h.near u hu

/-- A release gives out one number, or two around zero. -/
theorem distance_nextReleaseSequence {last : Tick} (hroom : distance N last + 2 < 2 ^ 31) :
    distance N (nextReleaseSequence last) ≤ distance N last + 2 := by
  unfold nextReleaseSequence distance at *
  split <;> bv_omega

theorem Good.renumber (h : R.Good D N) (ht : t ∉ R.ready) (hnear : R.Near D N t)
    (hroom : distance N R.last + 2 < 2 ^ 31) :
    (R.renumber t).Good D N ∧ (R.renumber t).Near D N t := by
  have hnext := distance_nextReleaseSequence hroom
  refine ⟨h.of_members rfl rfl (fun _ _ => rfl) (fun u hu => ?_) h.due,
    fun hi => ⟨(hnear hi).1, ?_⟩⟩
  · exact Function.update_of_ne (by rintro rfl; exact ht hu) _ _
  · simp only [Roster.renumber, Function.update_self]
    omega

theorem Good.record (h : R.Good D N) (ht : t ∉ R.ready) (hroom : distance N R.last + 2 < 2 ^ 31) :
    (R.record t).Good D N ∧ (R.record t).Near D N t := by
  have hnext := distance_nextReleaseSequence hroom
  refine ⟨h.of_members rfl rfl (fun u hu => ?_) (fun u hu => ?_) h.due, fun _ => ⟨?_, ?_⟩⟩
  · exact Function.update_of_ne (by rintro rfl; exact ht hu) _ _
  · exact Function.update_of_ne (by rintro rfl; exact ht hu) _ _
  · simpa only [Roster.record, Function.update_self] using h.due t
  · simp only [Roster.record, Roster.renumber, Function.update_self]
    omega

/-- In order, with room for the release of every task that is not ready. There are never more ready
tasks than `capacity`; a longer list needs no order. -/
def Releasing (capacity : Nat) (D N : Tick) (R : Roster) : Prop :=
  R.ready.Nodup ∧ (capacity < R.ready.length ∨
    R.Good D N ∧ distance N R.last + 2 * (capacity + 1 - R.ready.length) + 2 < 2 ^ 31)

/-- In order, with room for one turn. -/
def Removing (D N : Tick) (R : Roster) : Prop :=
  R.ready.Nodup ∧ R.Good D N ∧ distance N R.last + 2 < 2 ^ 31

def InOrder (capacity : Nat) (R : Roster) : Prop := capacity < R.ready.length ∨ R.Ordered

theorem Releasing.release {capacity : Nat} (h : R.Releasing capacity D N) (ht : t ∉ R.ready) :
    ((R.record t).place t).Releasing capacity D N := by
  obtain ⟨hnodup, hroom⟩ := h
  have hlength : ((R.record t).place t).ready.length = R.ready.length + 1 :=
    List.orderedInsert_length _ _ _
  refine ⟨Ordered.nodup_orderedInsert hnodup ht, ?_⟩
  obtain hlong | ⟨hgood, hroom⟩ := hroom
  · left
    omega
  · by_cases hfull : capacity ≤ R.ready.length
    · left
      omega
    right
    obtain ⟨hrec, hnear⟩ := hgood.record ht (by omega)
    have hnext : distance N (nextReleaseSequence R.last) ≤ distance N R.last + 2 :=
      distance_nextReleaseSequence (by omega)
    refine ⟨hrec.place hnear, ?_⟩
    have hlast : ((R.record t).place t).last = nextReleaseSequence R.last := rfl
    rw [hlast, hlength]
    omega

theorem absorbsReleases_releasing (hedf : cfg.policy = .edf) (capacity : Nat) (D N : Tick) :
    AbsorbsReleases cfg (OnRoster (Releasing capacity D N)) where
  record hne := absurd hedf hne
  release _ _ _ ht h := h.release ht

instance : AbsorbsRemovals (OnRoster (Removing D N)) where
  remove _ _ h := ⟨h.1.erase _, h.2.1.remove, h.2.2⟩

theorem Good.turn (h : R.Good D N) (hnodup : R.ready.Nodup) (ht : t ∈ R.ready)
    (hroom : distance N R.last + 2 < 2 ^ 31) : (R.turn t).Good D N := by
  have hout : t ∉ (R.remove t).ready := hnodup.not_mem_erase
  obtain ⟨hgood, hnear⟩ := h.remove.renumber hout (h.near t ht) hroom
  have hplace : R.turn t = ((R.remove t).renumber t).place t := if_neg hout
  rw [hplace]
  exact hgood.place hnear

theorem turns_removing (capacity : Nat) :
    Turns (OnRoster (Removing D N)) (OnRoster (InOrder capacity)) := by
  refine turns_onRoster (fun R h => .inr h.2.1.ordered) fun R t ht h => .inr ?_
  exact (h.2.1.turn h.1 ht h.2.2).ordered

theorem Releasing.inOrder {capacity : Nat} (h : R.Releasing capacity D N) : R.InOrder capacity :=
  h.2.imp id fun hgood => hgood.1.ordered

theorem turns_releasing (capacity : Nat) :
    Turns (OnRoster (Releasing capacity D N)) (OnRoster (InOrder capacity)) := by
  refine turns_onRoster (fun R h => h.inOrder) ?_
  rintro R t ht ⟨hnodup, hlong | ⟨hgood, hroom⟩⟩
  · left
    have hout : t ∉ (R.remove t).ready := hnodup.not_mem_erase
    have hplace : R.turn t = ((R.remove t).renumber t).place t := if_neg hout
    have hlength : (R.turn t).ready.length = R.ready.length := by
      rw [hplace]
      exact (List.orderedInsert_length _ _ _).trans (by
        rw [show ((R.remove t).renumber t).ready = R.ready.erase t from rfl,
          List.length_erase_of_mem ht]
        have := List.length_pos_of_mem ht
        omega)
    rwa [hlength]
  · exact .inr (hgood.turn hnodup ht (by omega)).ordered

end Roster

/-! ## What a task is created with -/

/-- The profiles and the number of the tasks. -/
def Roster.Keeps (profile : TaskId → Profile) (created : Nat) (R : Roster) : Prop :=
  R.profile = profile ∧ R.created = created

section keeps

variable {profile : TaskId → Profile}

instance : AbsorbsReleases cfg (OnRoster (Roster.Keeps profile n)) where
  record _ _ _ := id
  release _ _ _ _ := id

instance : AbsorbsRemovals (OnRoster (Roster.Keeps profile n)) where
  remove _ _ := id

theorem turns_keeps :
    Turns (OnRoster (Roster.Keeps profile n)) (OnRoster (Roster.Keeps profile n)) := by
  refine turns_onRoster (fun _ => id) fun R t _ h => ?_
  dsimp only [Roster.turn]
  split <;> exact h

end keeps

theorem runEvent_keeps (hev : ¬ ev.Populates) (h : runEvent cfg ev k = .ret () k') :
    k'.roster.Keeps k.roster.profile k.allocatedCount :=
  runEvent_roster (P := Roster.Keeps k.roster.profile k.allocatedCount)
    (M := Roster.Keeps k.roster.profile k.allocatedCount) hev h ⟨rfl, rfl⟩ ⟨rfl, rfl⟩ turns_keeps
    turns_keeps

/-- How `rts_init` and `rts_task_create` leave the roster. -/
theorem Step.populates (hs : Step cfg k ev k') (h : Sound cfg k) (hev : ev.Populates) :
    k' = k ∨ k.lifecycle = .reset ∧ (k' = kernelRestoreReset k ∨
      ∃ servicePointer idlePointer, Initialised cfg k servicePointer idlePointer k') ∨
    ∃ isr config outHandle stack, ev = .taskCreate isr (some config) outHandle stack ∧
      Enrols cfg k config k' := by
  have hrun := hs.2
  cases ev with
  | init isr port =>
    obtain ⟨status, hret⟩ := exists_ret_of_discard hrun
    have hinit : Inits cfg k status k' := wp_ret (init_spec h.ok h.timersOk) hret
    by_cases hstatus : status = .ok
    · obtain ⟨hreset, hdone⟩ := hinit.done hstatus
      exact .inr (.inl ⟨hreset, .inr hdone⟩)
    · obtain ⟨hk', hreset⟩ | hk' := hinit.failed hstatus
      · exact .inr (.inl ⟨hreset, .inl hk'⟩)
      · exact .inl hk'
  | taskCreate isr config outHandle stack =>
    obtain ⟨r, hret⟩ := exists_ret_of_discard hrun
    have hcreate : Creates cfg k config r k' := wp_ret (taskCreate_spec h.ok h.timersOk h.pool) hret
    by_cases hstatus : r.1 = .ok
    · obtain ⟨config', _, _, rfl, hcreated, -⟩ := hcreate.done hstatus
      have hpool := h.pool (by simp [hcreated.initialized])
      exact .inr (.inr ⟨isr, config', outHandle, stack, rfl, hcreated.enrols hpool⟩)
    · exact .inl (hcreate.failed hstatus)
  | _ => exact hev.elim

/-! ## Punctual runs -/

/-- A quarter of the range of ticks. -/
def tickQuarterRange : Tick := 0x40000000#32

/-- The relative deadline a new task is to have. -/
def Event.relativeDeadline : Event → Tick
  | .taskCreate _ (some config) _ _ => config.relativeDeadline
  | _ => 0

/-- Under the deadline policy: new tasks and advances have less than an eighth of the range, and the
ready tasks, idle apart, were released less than a quarter of the range ago and are due within a
quarter of the range from now, before or after. -/
def Event.Punctual (cfg : Config) (k : Kernel) (ev : Event) : Prop :=
  cfg.policy = .edf → cfg.maxTasks < 2 ^ 28 ∧ ev.relativeDeadline.toNat < 2 ^ 29 ∧
    (ev.elapsed cfg k).toNat < 2 ^ 29 ∧
    ∀ t ∈ k.edfReady, k.idleTask ≠ some t →
      distance (k.currentTick - tickQuarterRange) (k.tasks t).absoluteDeadline < 2 ^ 31 ∧
      distance (k.policyReleaseSequence - tickQuarterRange) (k.tasks t).releaseSequence < 2 ^ 31

instance (cfg : Config) (k : Kernel) (ev : Event) : Decidable (ev.Punctual cfg k) := by
  delta Event.Punctual
  infer_instance

/-- Every task has less than an eighth of the range until its deadline. -/
def Roster.Prompt (R : Roster) : Prop := ∀ t, (R.profile t).relativeDeadline.toNat < 2 ^ 29

theorem Roster.Prompt.due {now : Tick} (h : R.Prompt) (hnow : distance now R.now < 2 ^ 29)
    (t : TaskId) : distance (now - tickQuarterRange) (R.due t) < 2 ^ 31 := by
  have hrel := h t
  unfold Roster.due
  unfold distance tickQuarterRange at *
  split <;> bv_omega

/-- The tasks in use are among the tasks there can be. -/
theorem Inv.length_le_capacity {base : Tick} {stale : TaskId → Prop} {l : List TaskId}
    (h : Inv cfg base stale k) (hl : l.Nodup) (hused : ∀ t ∈ l, (k.tasks t).state ≠ .dormant) :
    l.length ≤ cfg.schedulableTaskCapacity := by
  rw [← List.toFinset_card_of_nodup hl]
  refine (Finset.card_le_card fun t ht => ?_).trans (card_knownTasks_le cfg)
  exact mem_knownTasks ((h.tasks t).valid (hused t (List.mem_toFinset.mp ht))).known

theorem Inv.length_edfReady_le {base : Tick} {stale : TaskId → Prop} (h : Inv cfg base stale k) :
    k.edfReady.length ≤ cfg.schedulableTaskCapacity :=
  h.length_le_capacity h.ready.edf_nodup fun t ht => ((h.ready.edf_mem t).mp ht).2.not_dormant

/-- The room that a step leaves. -/
theorem distance_sub_quarterRange (a : Tick) : distance (a - tickQuarterRange) a = 2 ^ 30 := by
  unfold distance tickQuarterRange
  bv_omega

theorem Event.Punctual.good (hp : ev.Punctual cfg k) (hedf : cfg.policy = .edf)
    (hord : k.roster.Ordered) (hprompt : k.roster.Prompt) {e : Tick} (he : e.toNat < 2 ^ 29) :
    ({ k.roster with now := k.currentTick + e } : Roster).Good (k.currentTick - tickQuarterRange)
      (k.policyReleaseSequence - tickQuarterRange) where
  ordered := hord
  near t ht hi := (hp hedf).2.2.2 t ht hi
  due := Roster.Prompt.due (R := { k.roster with now := k.currentTick + e }) hprompt (by
    rw [distance_of_add]
    exact he)

theorem Event.Punctual.releasing (hp : ev.Punctual cfg k) (hedf : cfg.policy = .edf)
    (h : Sound cfg k) (hord : k.roster.Ordered) (hprompt : k.roster.Prompt) :
    Roster.Releasing cfg.schedulableTaskCapacity (k.currentTick - tickQuarterRange)
      (k.policyReleaseSequence - tickQuarterRange)
      { k.roster with now := k.currentTick + ev.elapsed cfg k } := by
  refine ⟨h.ok.inv.ready.edf_nodup, .inr ⟨hp.good hedf hord hprompt (hp hedf).2.2.1, ?_⟩⟩
  have hcapacity := (hp hedf).1
  change distance _ k.policyReleaseSequence + 2 * (cfg.maxTasks + 2 + 1 - k.edfReady.length) + 2 < _
  rw [distance_sub_quarterRange]
  omega

theorem Event.Punctual.removing (hp : ev.Punctual cfg k) (hedf : cfg.policy = .edf)
    (h : Sound cfg k) (hord : k.roster.Ordered) (hprompt : k.roster.Prompt) :
    k.roster.Removing (k.currentTick - tickQuarterRange)
      (k.policyReleaseSequence - tickQuarterRange) := by
  have hgood := hp.good hedf hord hprompt (e := 0) (by decide)
  rw [show k.currentTick + 0 = k.currentTick by simp] at hgood
  refine ⟨h.ok.inv.ready.edf_nodup, hgood, ?_⟩
  change distance _ k.policyReleaseSequence + 2 < _
  rw [distance_sub_quarterRange]
  decide

/-- A long list is not the ready list of a kernel. -/
theorem Sound.ordered_of_inOrder (h : Sound cfg k)
    (hq : k.roster.InOrder cfg.schedulableTaskCapacity) : k.roster.Ordered :=
  hq.resolve_left h.ok.inv.length_edfReady_le.not_gt

theorem Initialised.ordered {servicePointer idlePointer : Nat}
    (h : Initialised cfg k servicePointer idlePointer k') :
    k'.roster.Ordered ∧ k'.roster.Prompt := by
  constructor
  · have hidle : k'.idleTask = some .idle := by rw [h.frame]
    refine List.pairwise_of_forall_mem_list fun a _ b hb hba => ?_
    obtain rfl := ((h.ready.edf_mem b).mp hb).2
    exact hba.1 hidle
  · intro t
    change (k'.tasks t).relativeDeadline.toNat < _
    cases t with
    | slot i => rw [h.slots]; decide
    | idle =>
      obtain ⟨_, _, _, hidle⟩ := h.idle
      simp [hidle, idleObject]
    | timerService => simp [h.service, timerServiceObject]

theorem Kernel.reserve_prompt {config : TaskConfig} {stackPointer : Nat} (h : k.roster.Prompt)
    (hrel : config.relativeDeadline.toNat < 2 ^ 29) :
    (k.reserve cfg n (config.object cfg stackPointer)).roster.Prompt := by
  intro u
  change ((k.reserve cfg n _).tasks u).relativeDeadline.toNat < _
  rcases eq_or_ne u (.slot n) with rfl | hu
  · rw [k.reserve_self]
    exact hrel
  · rw [k.reserve_of_ne _ hu]
    exact h u

/-- A task that is created is inserted at its place. -/
theorem Enrols.ordered {isr outHandle : Bool} {config : TaskConfig} {stack : StackAnswer}
    (he : Enrols cfg k config k') (h : Sound cfg k)
    (hp : (Event.taskCreate isr (some config) outHandle stack).Punctual cfg k)
    (hedf : cfg.policy = .edf) (hord : k.roster.Ordered) (hprompt : k.roster.Prompt) :
    k'.roster.InOrder cfg.schedulableTaskCapacity ∧ k'.roster.Prompt := by
  obtain ⟨stackPointer, k₁, hins, hk'⟩ := he.inserted
  set n := k.allocatedCount
  set k₀ := k.reserve cfg n (config.object cfg stackPointer)
  set D := k.currentTick - tickQuarterRange
  set N := k.policyReleaseSequence - tickQuarterRange
  have hprompt₀ : k₀.roster.Prompt := Kernel.reserve_prompt hprompt (hp hedf).2.1
  -- the slot of the new task is not ready, so the ready tasks keep their keys
  have hother : ∀ u ∈ k.edfReady, k₀.tasks u = k.tasks u := by
    intro u hu
    refine k.reserve_of_ne _ ?_
    rintro rfl
    exact ((h.ok.inv.ready.edf_mem _).mp hu).2.not_dormant he.dormant
  obtain ⟨hnodup, hroom⟩ := hp.releasing hedf h hord hprompt
  obtain ⟨hgood, hroom⟩ := hroom.resolve_left h.ok.inv.length_edfReady_le.not_gt
  have hreserved : k₀.roster.Releasing cfg.schedulableTaskCapacity D N := by
    refine ⟨hnodup, .inr ⟨hgood.of_members rfl rfl (fun u hu => ?_) (fun u hu => ?_) ?_, hroom⟩⟩
    · exact congrArg Tcb.absoluteDeadline (hother u hu)
    · exact congrArg Tcb.releaseSequence (hother u hu)
    · refine hprompt₀.due ?_
      change distance k.currentTick k.currentTick < _
      rw [distance_self]
      decide
  have := Roster.absorbsReleases_releasing hedf cfg.schedulableTaskCapacity D N
  have hinserted : k₁.roster.Releasing cfg.schedulableTaskCapacity D N :=
    policyInsert_outline (P := OnRoster (Roster.Releasing cfg.schedulableTaskCapacity D N)) hins
      hreserved
  have hkeeps : k₁.roster.Keeps k₀.roster.profile k₀.allocatedCount :=
    policyInsert_outline (P := OnRoster (Roster.Keeps k₀.roster.profile k₀.allocatedCount)) hins
      ⟨rfl, rfl⟩
  rw [hk']
  refine ⟨hinserted.inOrder, fun u => ?_⟩
  change (Function.update k₁.roster.profile _ _ u).relativeDeadline.toNat < _
  rcases eq_or_ne u (.slot n) with rfl | hu
  · rw [Function.update_self, hkeeps.1]
    exact hprompt₀ _
  · rw [Function.update_of_ne hu, hkeeps.1]
    exact hprompt₀ u

/-- A punctual step keeps the order and what it needs. -/
theorem Sound.step_ordered (h : Sound cfg k) (hs : Step cfg k ev k') (hp : ev.Punctual cfg k)
    (hedf : cfg.policy = .edf) (hord : k.roster.Ordered) (hprompt : k.roster.Prompt) :
    k'.roster.Ordered ∧ k'.roster.Prompt := by
  by_cases hev : ev.Populates
  · obtain rfl | ⟨-, rfl | ⟨_, _, hinit⟩⟩ | ⟨_, _, _, _, rfl, henrols⟩ :=
      hs.populates h hev
    · exact ⟨hord, hprompt⟩
    · exact ⟨List.Pairwise.nil, fun _ => by change (0 : Tick).toNat < _; decide⟩
    · exact hinit.ordered
    · obtain ⟨hq, hprompt'⟩ := henrols.ordered h hp hedf hord hprompt
      exact ⟨(h.step hs).ordered_of_inOrder hq, hprompt'⟩
  · have hkeeps := runEvent_keeps hev hs.2
    have := Roster.absorbsReleases_releasing hedf cfg.schedulableTaskCapacity
      (k.currentTick - tickQuarterRange) (k.policyReleaseSequence - tickQuarterRange)
    refine ⟨(h.step hs).ordered_of_inOrder ?_, fun t => ?_⟩
    · exact runEvent_roster hev hs.2 (hp.removing hedf h hord hprompt)
        (hp.releasing hedf h hord hprompt) (Roster.turns_removing _) (Roster.turns_releasing _)
    · rw [hkeeps.1]
      exact hprompt t

theorem ReachableWhen.ordered {allowed : Kernel → Event → Prop} (h : ReachableWhen cfg allowed k)
    (hallowed : ∀ k ev, allowed k ev → ev.Punctual cfg k) (hedf : cfg.policy = .edf) :
    k.roster.Ordered ∧ k.roster.Prompt := by
  refine ReachableWhen.invariant (P := fun k => k.roster.Ordered ∧ k.roster.Prompt) h ?_ ?_
  · exact ⟨List.Pairwise.nil, fun _ => by change (0 : Tick).toNat < _; decide⟩
  · intro k ev k' hk hs _ hev hord
    exact hk.step_ordered hs (hallowed k ev hev) hedf hord.1 hord.2

/-- In every run of punctual steps, whatever delays, timers, releases, blocks, yields and time
slices it has, the ready list is in the order of the policy and no ready task comes before the one
that is picked. -/
theorem ready_list_ordered (h : ReachableWhen cfg (fun k ev => ev.Punctual cfg k) k)
    (hedf : cfg.policy = .edf) :
    k.edfReady.Pairwise (fun a b => ¬ EdfIsBefore k b a) ∧
    ∀ c, policyPickNext cfg k = some c → ∀ t, (k.tasks t).Runnable → ¬ EdfIsBefore k t c := by
  have hord : k.edfReady.Pairwise (fun a b => ¬ EdfIsBefore k b a) :=
    (h.ordered (fun _ _ => id) hedf).1
  refine ⟨hord, fun c hpick t ht => ?_⟩
  have hmem : t ∈ k.edfReady := (h.sound.ok.inv.ready.edf_mem t).mpr ⟨hedf, ht⟩
  rw [policyPickNext, hedf] at hpick
  obtain ⟨l, hl⟩ := List.head?_eq_some_iff.mp hpick
  rw [hl] at hord hmem
  obtain rfl | hmem := List.mem_cons.mp hmem
  · rintro ⟨hidle, hbefore⟩
    obtain hidle' | hbefore := hbefore
    · exact hidle hidle'
    · simp at hbefore
  · exact List.rel_of_pairwise_cons hord hmem

/-- Two tasks of which the second is more urgent; the first time slice is over. -/
def deadlineEvents : List Event :=
  [.init false ⟨true, some 8, some 8⟩,
    .taskCreate false (some ⟨1, 1, 2, true, 1, 0, 90, 0⟩) true ⟨.ok, 8⟩,
    .taskCreate false (some ⟨1, 3, 4, true, 1, 0, 30, 0⟩) true ⟨.ok, 8⟩,
    .start false true true, .tick true 5]

theorem ready_list_ordered_two : ∃ k, k.edfReady = [.slot 1, .slot 0, .idle] ∧
    k.edfReady.Pairwise (fun a b => ¬ EdfIsBefore k b a) ∧
    ∀ c, policyPickNext edfConfig k = some c → ∀ t, (k.tasks t).Runnable →
      ¬ EdfIsBefore k t c := by
  have hrun : (execute edfConfig (fun k ev => ev.Punctual edfConfig k) deadlineEvents
      resetKernel).any (fun k => decide (k.edfReady = [.slot 1, .slot 0, .idle])) = true := by
    decide +kernel
  obtain ⟨k, hk, hready⟩ := exists_reachable hrun
  exact ⟨k, hready, ready_list_ordered hk rfl⟩

/-! ## Running kernels -/

/-- Once the scheduler runs, every later state has the tasks it was started with: the same slots in
use, entry functions, stacks, periods, relative deadlines and execution budgets. -/
theorem task_identity_kept (h : Reachable cfg k) (hl : k.lifecycle = .running)
    (hlater : Transition.ReachableFrom (Step cfg) (fun _ _ => True) k k') :
    (∀ t, (k'.tasks t).profile = (k.tasks t).profile) ∧ k'.allocatedCount = k.allocatedCount := by
  have hrun : Sound cfg k' ∧ k'.lifecycle = .running ∧
      k'.roster.Keeps k.roster.profile k.allocatedCount := by
    refine Transition.ReachableFrom.invariant
      (P := fun k₁ => Sound cfg k₁ ∧ k₁.lifecycle = .running ∧
        k₁.roster.Keeps k.roster.profile k.allocatedCount) hlater ⟨h.sound, hl, rfl, rfl⟩ ?_
    rintro k₁ ev k₂ ⟨hsound, hl₁, hprofile, hcreated⟩ - hs
    refine ⟨hsound.step hs, (hs.stepped hsound).running hsound.ok hl₁, ?_⟩
    by_cases hev : ev.Populates
    · obtain rfl | ⟨hreset, -⟩ | ⟨_, _, _, _, -, henrols⟩ := hs.populates hsound hev
      · exact ⟨hprofile, hcreated⟩
      · simp [hl₁] at hreset
      · simp [henrols.initialized] at hl₁
    · obtain ⟨hp, hc⟩ := runEvent_keeps hev hs.2
      exact ⟨hp.trans hprofile, hc.trans hcreated⟩
  exact ⟨fun t => congrFun hrun.2.2.1 t, hrun.2.2.2⟩

theorem task_identity_kept_tick : ∃ k k' : Kernel, k.currentTick = 0 ∧ k'.currentTick = 5 ∧
    (∀ t, (k'.tasks t).profile = (k.tasks t).profile) ∧ k'.allocatedCount = k.allocatedCount := by
  have hrun : (execute edfConfig (fun _ _ => True) (deadlineEvents.take 4) resetKernel).any
      (fun k => decide (k.lifecycle = .running ∧ k.currentTick = 0 ∧
        (execute edfConfig (fun _ _ => True) (deadlineEvents.drop 4) k).any
          (fun k' => decide (k'.currentTick = 5)) = true)) = true := by
    decide +kernel
  obtain ⟨k, hk, hl, hnow, hlater⟩ := exists_reachable hrun
  obtain ⟨k', hk', hnow'⟩ := (Option.any_eq_true _ _).mp hlater
  exact ⟨k, k', hnow, of_decide_eq_true hnow', task_identity_kept hk hl (execute_reachable hk')⟩

end RtsKernel
