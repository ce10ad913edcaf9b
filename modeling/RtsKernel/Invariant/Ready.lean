import RtsKernel.Library.Ordered
import RtsKernel.Model.Policy

/-!
# The ready structure

`ReadyOk` describes the ready queues of either kind of policy by the set of tasks they hold.
Each policy operation is specified once against it, for all three policies; the operations of
the scheduler use these specifications and never look at the queues.
-/

namespace RtsKernel

open Halting Prog

/-! ## Executing checks -/

section checks

variable {cfg : Config} {site : Site} {c : Prop} [Decidable c] {Q : Unit → Kernel → Prop}
  {E : Fatal → Kernel → Prop} {k : Kernel}

@[simp] theorem wp_fatalUnless : wp (fatalUnless site c) Q E k ↔
    (c → Q () k) ∧ (¬ c → E (.assertion site) k) := by
  unfold fatalUnless
  rw [wp_check]
  split <;> simp_all

@[simp] theorem wp_rtsAssert : wp (rtsAssert cfg site c) Q E k ↔
    ((cfg.enableAssertions = true → c) → Q () k) ∧
    (cfg.enableAssertions = true ∧ ¬ c → E (.assertion site) k) := by
  unfold rtsAssert
  rw [wp_check]
  split <;> simp_all

theorem wp_rtsAssert_of (hc : c) : wp (rtsAssert cfg site c) Q E k ↔ Q () k := by
  simp [hc]

theorem wp_fatalUnless_of (hc : c) : wp (fatalUnless site c) Q E k ↔ Q () k := by
  simp [hc]

variable {t : TaskId} {Q : Bool → Kernel → Prop}

theorem wp_readyContains (hp : (k.tasks t).priority < cfg.priorityCount) :
    wp (readyContains cfg t) Q E k ↔ Q (decide (ReadyContains cfg k t)) k := by
  rw [readyContains, wp_bind, wp_get, wp_bind, wp_rtsAssert_of hp, wp_pure]

theorem wp_readyHasPeer (h : ReadyContains cfg k t) :
    wp (readyHasPeer cfg t) Q E k ↔ Q (decide (ReadyHasPeer cfg k t)) k := by
  rw [readyHasPeer, wp_bind, wp_get, wp_bind, wp_rtsAssert_of h, wp_pure]

theorem wp_readyIsFront (h : ReadyContains cfg k t) :
    wp (readyIsFront cfg t) Q E k ↔ Q (decide (ReadyIsFront cfg k t)) k := by
  rw [readyIsFront, wp_bind, wp_get, wp_bind, wp_rtsAssert_of h, wp_pure]

end checks

/-! ## Membership -/

/-- The ready queues hold exactly the tasks of `R`, each once: under EDF in the deadline list,
otherwise in the queue of its priority. -/
structure ReadyOk (cfg : Config) (readySet : Nat → List TaskId) (edfReady : List TaskId)
    (prio : TaskId → Nat) (R : TaskId → Prop) : Prop where
  nodup : ∀ p, (readySet p).Nodup
  mem : ∀ p t, t ∈ readySet p ↔ cfg.policy ≠ .edf ∧ R t ∧ prio t = p
  edf_nodup : edfReady.Nodup
  edf_mem : ∀ t, t ∈ edfReady ↔ cfg.policy = .edf ∧ R t
  range : ∀ t, R t → prio t < cfg.priorityCount

/-- The effective priorities. -/
abbrev Kernel.prio (k : Kernel) : TaskId → Nat := fun t => (k.tasks t).priority

variable {cfg : Config} {k : Kernel} {rs : Nat → List TaskId} {er : List TaskId}
  {prio prio' : TaskId → Nat} {R R' : TaskId → Prop} {t u : TaskId}
  {E : Fatal → Kernel → Prop}

namespace ReadyOk

theorem congr (h : ReadyOk cfg rs er prio R) (hR : ∀ t, R' t ↔ R t)
    (hp : ∀ t, prio' t = prio t) : ReadyOk cfg rs er prio' R' := by
  obtain rfl : R' = R := funext fun t => propext (hR t)
  obtain rfl : prio' = prio := funext hp
  exact h

/-- Tasks outside the queues may change their priority freely. -/
theorem congr_of_mem (h : ReadyOk cfg rs er prio R) (hR : ∀ t, R' t ↔ R t)
    (hp : ∀ t, R t → prio' t = prio t) : ReadyOk cfg rs er prio' R' := by
  obtain rfl : R' = R := funext fun t => propext (hR t)
  refine ⟨h.nodup, ?_, h.edf_nodup, h.edf_mem, ?_⟩
  · intro p t
    rw [h.mem]
    constructor
    · rintro ⟨he, hr, hpt⟩
      exact ⟨he, hr, by rw [hp t hr, hpt]⟩
    · rintro ⟨he, hr, hpt⟩
      exact ⟨he, hr, by rw [← hp t hr, hpt]⟩
  · intro t ht
    rw [hp t ht]
    exact h.range t ht

theorem remove (h : ReadyOk cfg rs er prio R) (t : TaskId) :
    ReadyOk cfg (fun p => (rs p).erase t) (er.erase t) prio (fun u => R u ∧ u ≠ t) := by
  refine ⟨fun p => (h.nodup p).erase t, ?_, h.edf_nodup.erase t, ?_, fun u hu => h.range u hu.1⟩
  · intro p u
    rw [(h.nodup p).mem_erase_iff, h.mem]
    tauto
  · intro u
    rw [h.edf_nodup.mem_erase_iff, h.edf_mem]
    tauto

theorem push (h : ReadyOk cfg rs er prio R) (hpol : cfg.policy ≠ .edf) (ht : ¬ R t)
    (hp : prio t < cfg.priorityCount) :
    ReadyOk cfg (Function.update rs (prio t) (rs (prio t) ++ [t])) er prio
      (fun u => R u ∨ u = t) := by
  have hnot : t ∉ rs (prio t) := fun hm => ht ((h.mem _ _).mp hm).2.1
  refine ⟨?_, ?_, h.edf_nodup, ?_, ?_⟩
  · intro p
    by_cases hpt : p = prio t
    · subst hpt
      rw [Function.update_self, List.nodup_append]
      refine ⟨h.nodup _, by simp, ?_⟩
      intro a ha b hb
      rw [List.mem_singleton.mp hb]
      exact fun he => hnot (he ▸ ha)
    · rw [Function.update_of_ne hpt]
      exact h.nodup p
  · intro p u
    by_cases hpt : p = prio t
    · subst hpt
      rw [Function.update_self, List.mem_append, List.mem_singleton, h.mem]
      constructor
      · rintro (⟨_, hr, hpu⟩ | rfl)
        · exact ⟨hpol, .inl hr, hpu⟩
        · exact ⟨hpol, .inr rfl, rfl⟩
      · rintro ⟨_, hr | rfl, hpu⟩
        · exact .inl ⟨hpol, hr, hpu⟩
        · exact .inr rfl
    · rw [Function.update_of_ne hpt, h.mem]
      constructor
      · rintro ⟨he, hr, hpu⟩
        exact ⟨he, .inl hr, hpu⟩
      · rintro ⟨he, hr | rfl, hpu⟩
        · exact ⟨he, hr, hpu⟩
        · exact absurd hpu.symm hpt
  · intro u
    rw [h.edf_mem]
    simp [hpol]
  · rintro u (hr | rfl)
    · exact h.range u hr
    · exact hp

theorem insertEdf {r : TaskId → TaskId → Prop} [DecidableRel r] (h : ReadyOk cfg rs er prio R)
    (hpol : cfg.policy = .edf) (ht : ¬ R t) (hp : prio t < cfg.priorityCount) :
    ReadyOk cfg rs (er.orderedInsert r t) prio (fun u => R u ∨ u = t) := by
  have hnot : t ∉ er := fun hm => ht ((h.edf_mem _).mp hm).2
  refine ⟨h.nodup, ?_, Ordered.nodup_orderedInsert h.edf_nodup hnot, ?_, ?_⟩
  · intro p u
    rw [h.mem]
    simp [hpol]
  · intro u
    rw [Ordered.mem_orderedInsert, h.edf_mem]
    tauto
  · rintro u (hr | rfl)
    · exact h.range u hr
    · exact hp

/-- The members of one queue may be reordered. -/
theorem reorder (h : ReadyOk cfg rs er prio R) {p : Nat} {l : List TaskId} (hl : l.Perm (rs p)) :
    ReadyOk cfg (Function.update rs p l) er prio R := by
  refine ⟨?_, ?_, h.edf_nodup, h.edf_mem, h.range⟩
  · intro q
    by_cases hq : q = p
    · subst hq
      rw [Function.update_self]
      exact hl.nodup_iff.mpr (h.nodup q)
    · rw [Function.update_of_ne hq]
      exact h.nodup q
  · intro q u
    by_cases hq : q = p
    · subst hq
      rw [Function.update_self, hl.mem_iff, h.mem]
    · rw [Function.update_of_ne hq, h.mem]

end ReadyOk

/-! ## Turns -/

/-- Nobody has lost their turn: in each queue stand, in the old order, those of its tasks that have
kept their priority, and behind them tasks that are new in it or have changed their priority. -/
def InTurn (prio prio' : TaskId → Nat) (rs rs' : Nat → List TaskId) : Prop :=
  ∀ p, ∃ joined, rs' p = (rs p).filter (fun t => prio' t = prio t) ++ joined ∧
    ∀ t ∈ joined, t ∉ rs p ∨ prio' t ≠ prio t

theorem InTurn.refl (prio : TaskId → Nat) (rs : Nat → List TaskId) : InTurn prio prio rs rs :=
  fun _ => ⟨[], by simp, by simp⟩

/-- Turns compose when no task comes back to the priority it had. -/
theorem InTurn.trans {rs' rs'' : Nat → List TaskId} {prio'' : TaskId → Nat}
    (h : InTurn prio prio' rs rs') (h' : InTurn prio' prio'' rs' rs'')
    (hback : ∀ t, prio'' t = prio t → prio' t = prio t) : InTurn prio prio'' rs rs'' := by
  intro p
  obtain ⟨joined, hq, hnew⟩ := h p
  obtain ⟨joined', hq', hnew'⟩ := h' p
  have hkept : ((rs p).filter fun t => prio' t = prio t).filter (fun t => prio'' t = prio' t) =
      (rs p).filter fun t => prio'' t = prio t := by
    rw [List.filter_filter]
    refine List.filter_congr fun t _ => ?_
    have := hback t
    grind
  refine ⟨joined.filter (fun t => prio'' t = prio' t) ++ joined', ?_, fun t ht => ?_⟩
  · rw [hq', hq, List.filter_append, hkept, List.append_assoc]
  · by_cases hprio : prio'' t = prio t
    · have hprio' := hback t hprio
      obtain hin | hin := List.mem_append.mp ht
      · exact .inl ((hnew t (List.mem_of_mem_filter hin)).resolve_right (not_not.mpr hprio'))
      · -- it has kept its priority all along, so it has never left the queue
        have hout := (hnew' t hin).resolve_right (not_not.mpr (hprio.trans hprio'.symm))
        refine .inl fun hold => hout ?_
        rw [hq]
        exact List.mem_append_left _ (List.mem_filter.mpr ⟨hold, decide_eq_true hprio'⟩)
    · exact .inr hprio

/-- The ready queues of a kernel keep their turns. -/
abbrev KeepsTurns (k k' : Kernel) : Prop := InTurn k.prio k'.prio k.readySet k'.readySet

theorem ReadyOk.inTurn_push (h : ReadyOk cfg rs er prio R) (ht : ¬ R t) :
    InTurn prio prio rs (Function.update rs (prio t) (rs (prio t) ++ [t])) := by
  intro p
  rcases eq_or_ne p (prio t) with rfl | hp
  · refine ⟨[t], by simp, fun u hu => .inl fun hin => ht ?_⟩
    rw [← List.mem_singleton.mp hu]
    exact ((h.mem _ u).mp hin).2.1
  · exact ⟨[], by simp [hp], by simp⟩

theorem readyContains_iff (h : ReadyOk cfg k.readySet k.edfReady k.prio R) :
    ReadyContains cfg k t ↔ cfg.policy ≠ .edf ∧ R t := by
  unfold ReadyContains
  rw [h.mem]
  constructor
  · rintro ⟨-, he, hr, -⟩
    exact ⟨he, hr⟩
  · rintro ⟨he, hr⟩
    exact ⟨h.range t hr, he, hr, rfl⟩

theorem readyLinked_iff (h : ReadyOk cfg k.readySet k.edfReady k.prio R) :
    ReadyLinked cfg k t ↔ cfg.policy ≠ .edf ∧ R t := by
  unfold ReadyLinked
  constructor
  · rintro ⟨p, -, hm⟩
    obtain ⟨he, hr, -⟩ := (h.mem _ _).mp hm
    exact ⟨he, hr⟩
  · rintro ⟨he, hr⟩
    exact ⟨_, h.range t hr, (h.mem _ _).mpr ⟨he, hr, rfl⟩⟩

theorem policyContains_iff (h : ReadyOk cfg k.readySet k.edfReady k.prio R) :
    PolicyContains cfg k t ↔ R t := by
  have hc := readyContains_iff (t := t) h
  have he := h.edf_mem t
  unfold PolicyContains
  cases hpol : cfg.policy <;> simp_all

/-! ## Removal -/

/-- The kernel without `t` in its ready queues. -/
@[simps -fullyApplied]
def Kernel.removeReady (k : Kernel) (t : TaskId) : Kernel :=
  { k with
    readySet := fun p => (k.readySet p).erase t
    edfReady := k.edfReady.erase t }

theorem wp_readyRemove {Q : Unit → Kernel → Prop}
    (h : ReadyOk cfg k.readySet k.edfReady k.prio R) (hpol : cfg.policy ≠ .edf) (ht : R t)
    (hQ : Q () (k.removeReady t)) : wp (readyRemove cfg t) Q E k := by
  have hqueues : Function.update k.readySet (k.prio t) ((k.readySet (k.prio t)).erase t) =
      fun p => (k.readySet p).erase t := by
    funext p
    by_cases hp : p = k.prio t
    · rw [hp, Function.update_self]
    · rw [Function.update_of_ne hp, List.erase_of_not_mem]
      intro hm
      exact hp ((h.mem _ _).mp hm).2.2.symm
  have hedf : k.edfReady.erase t = k.edfReady :=
    List.erase_of_not_mem fun hm => hpol ((h.edf_mem t).mp hm).1
  have hk : k.setReadyQueue (k.prio t) ((k.readySet (k.prio t)).erase t) = k.removeReady t := by
    unfold Kernel.setReadyQueue Kernel.removeReady
    rw [hqueues, hedf]
  rw [readyRemove, wp_bind, wp_get, wp_ite, if_pos ((readyContains_iff h).mpr ⟨hpol, ht⟩),
    wp_modify, hk]
  exact hQ

theorem wp_policyRemove {Q : Bool → Kernel → Prop}
    (h : ReadyOk cfg k.readySet k.edfReady k.prio R) (ht : R t) (hQ : Q true (k.removeReady t)) :
    wp (policyRemove cfg t) Q E k := by
  have hremove : cfg.policy ≠ .edf → wp (policyFpRemove cfg t) Q E k := by
    intro hpol
    have hc : ReadyContains cfg k t := (readyContains_iff h).mpr ⟨hpol, ht⟩
    have hafter : ¬ ReadyContains cfg (k.removeReady t) t := by
      rintro ⟨-, hm⟩
      exact (h.nodup _).not_mem_erase hm
    rw [policyFpRemove, wp_bind, wp_readyContains hc.1, wp_ite, if_neg (by simp [hc]), wp_bind]
    refine wp_readyRemove h hpol ht ?_
    rw [wp_bind, wp_readyContains (k := k.removeReady t) hc.1, wp_pure, decide_eq_false hafter]
    exact hQ
  unfold policyRemove
  cases hpol : cfg.policy with
  | fixedPriority => exact hremove (by simp [hpol])
  | rms => exact hremove (by simp [hpol])
  | edf =>
    have hm : t ∈ k.edfReady := (h.edf_mem t).mpr ⟨hpol, ht⟩
    have hempty : (fun p => (k.readySet p).erase t) = k.readySet := by
      funext p
      exact List.erase_of_not_mem fun hm => ((h.mem _ _).mp hm).1 hpol
    have hk : { k with edfReady := k.edfReady.erase t } = k.removeReady t := by
      unfold Kernel.removeReady
      rw [hempty]
    simp only [policyEdfRemove, wp_bind, wp_get, wp_ite, hm, if_true, wp_modify, wp_pure, hk]
    exact hQ

/-! ## Insertion -/

/-- Two control blocks agree except in the bookkeeping of the policy (time slice and release) and
of the diagnostics. -/
def Tcb.SameButRelease (a b : Tcb) : Prop :=
  b = { a with
    sliceRemaining := b.sliceRemaining
    absoluteDeadline := b.absoluteDeadline
    releaseTick := b.releaseTick
    releaseSequence := b.releaseSequence
    diagnosticDispatchCount := b.diagnosticDispatchCount
    diagnosticBlockCount := b.diagnosticBlockCount
    diagnosticWakeCount := b.diagnosticWakeCount
    diagnosticRunningTicks := b.diagnosticRunningTicks
    diagnosticLastStartTick := b.diagnosticLastStartTick }

theorem Tcb.SameButRelease.refl (a : Tcb) : a.SameButRelease a := rfl

theorem Tcb.SameButRelease.trans {a b c : Tcb} (hab : a.SameButRelease b)
    (hbc : b.SameButRelease c) : a.SameButRelease c := by
  unfold Tcb.SameButRelease at *
  rw [hab] at hbc
  exact hbc

/-- The kernel with new ready queues, and new policy bookkeeping of one task. -/
@[simps -fullyApplied]
def Kernel.requeue (k : Kernel) (t : TaskId) (rs : Nat → List TaskId) (er : List TaskId)
    (sequence : Tick) (task : Tcb) : Kernel :=
  { k with
    readySet := rs
    edfReady := er
    policyReleaseSequence := sequence
    tasks := Function.update k.tasks t task }

theorem prio_update {task : Tcb} (htask : task.priority = (k.tasks t).priority) :
    (fun u => (Function.update k.tasks t task u).priority) = k.prio := by
  funext u
  by_cases hu : u = t
  · subst hu
    simpa using htask
  · simp [Function.update_of_ne hu]

theorem prio_requeue {sequence : Tick} {task : Tcb} (h : (k.tasks t).SameButRelease task) :
    (k.requeue t rs er sequence task).prio = k.prio := by
  apply prio_update
  rw [h]

theorem wp_policyFpInsert {Q : Bool → Kernel → Prop}
    (h : ReadyOk cfg k.readySet k.edfReady k.prio R) (hpol : cfg.policy ≠ .edf) (ht : ¬ R t)
    (hp : k.prio t < cfg.priorityCount)
    (hQ : ReadyOk cfg (Function.update k.readySet (k.prio t) (k.readySet (k.prio t) ++ [t]))
        k.edfReady k.prio (fun u => R u ∨ u = t) →
      Q true (k.setReadyQueue (k.prio t) (k.readySet (k.prio t) ++ [t]))) :
    wp (policyFpInsert cfg t) Q E k := by
  have hc : ¬ ReadyContains cfg k t := fun hc => ht ((readyContains_iff h).mp hc).2
  have hl : ¬ ReadyLinked cfg k t := fun hl => ht ((readyLinked_iff h).mp hl).2
  have hins := h.push hpol ht hp
  have hafter : ReadyContains cfg
      (k.setReadyQueue (k.prio t) (k.readySet (k.prio t) ++ [t])) t := by
    exact (readyContains_iff (k := k.setReadyQueue (k.prio t) (k.readySet (k.prio t) ++ [t]))
      hins).mpr ⟨hpol, .inr rfl⟩
  have hcond : (k.tasks t).priority < cfg.priorityCount ∧ ¬ ReadyLinked cfg k t := ⟨hp, hl⟩
  rw [policyFpInsert, wp_bind, wp_readyContains hp, wp_ite, if_neg (by simp [hc]), wp_bind,
    readyInsert, wp_bind, wp_get, wp_ite, if_pos hcond, wp_modify, wp_readyContains hafter.1,
    decide_eq_true hafter]
  exact hQ hins

theorem wp_policyEdfInsert {Q : Bool → Kernel → Prop}
    (h : ReadyOk cfg k.readySet k.edfReady k.prio R) (hpol : cfg.policy = .edf) (ht : ¬ R t)
    (hp : k.prio t < cfg.priorityCount)
    (hQ : ∀ er, ReadyOk cfg k.readySet er k.prio (fun u => R u ∨ u = t) →
      Q true { k with edfReady := er }) :
    wp (policyEdfInsert t) Q E k := by
  have hm : t ∉ k.edfReady := fun hm => ht ((h.edf_mem t).mp hm).2
  simp only [policyEdfInsert, wp_bind, wp_get, wp_ite, hm, if_false, wp_modify, wp_pure]
  exact hQ _ (h.insertEdf hpol ht hp)

/-- The control block after `rts_policy_record_release`. -/
def Kernel.released (k : Kernel) (t : TaskId) : Tcb :=
  { k.tasks t with
    releaseTick := k.currentTick
    absoluteDeadline :=
      if (k.tasks t).relativeDeadline = 0 then k.currentTick
      else k.currentTick + (k.tasks t).relativeDeadline
    releaseSequence := nextReleaseSequence k.policyReleaseSequence }

theorem Kernel.released_sameButRelease (k : Kernel) (t : TaskId) :
    (k.tasks t).SameButRelease (k.released t) := rfl

/-- Handing a task to the policy, when RMS does not rank anew. -/
theorem wp_policyInsert_released {Q : Bool → Kernel → Prop}
    (h : ReadyOk cfg k.readySet k.edfReady k.prio R) (ht : ¬ R t)
    (hp : k.prio t < cfg.priorityCount)
    (hrms : cfg.policy = .rms → (k.tasks t).state ≠ .dormant ∨ (k.tasks t).period = 0)
    (hQ : ∀ rs er, ReadyOk cfg rs er k.prio (fun u => R u ∨ u = t) →
      InTurn k.prio k.prio k.readySet rs →
      Q true (k.requeue t rs er (nextReleaseSequence k.policyReleaseSequence) (k.released t))) :
    wp (policyInsert cfg t) Q E k := by
  unfold policyInsert policyRecordRelease
  rw [wp_bind, wp_modify]
  set k₁ := k.requeue t k.readySet k.edfReady (nextReleaseSequence k.policyReleaseSequence)
    (k.released t) with hk₁
  change wp _ Q E k₁
  have hprio : k₁.prio = k.prio := prio_requeue (k.released_sameButRelease t)
  have h₁ : ReadyOk cfg k₁.readySet k₁.edfReady k₁.prio R := by
    rw [hprio]
    exact h
  have hp₁ : k₁.prio t < cfg.priorityCount := by rwa [hprio]
  have hfp : cfg.policy ≠ .edf → wp (policyFpInsert cfg t) Q E k₁ := by
    intro hpol
    apply wp_policyFpInsert h₁ hpol ht hp₁
    intro hr
    rw [hprio] at hr ⊢
    exact hQ _ _ hr (h.inTurn_push ht)
  cases hpol : cfg.policy with
  | fixedPriority => exact hfp (by simp [hpol])
  | rms =>
    have hstate : ¬ ((k₁.tasks t).state = .dormant ∧ (k₁.tasks t).period ≠ 0) := by
      have hst : k₁.tasks t = k.released t := by simp [hk₁, Kernel.requeue]
      rw [hst]
      obtain hd | hz := hrms hpol
      · exact fun hc => hd hc.1
      · exact fun hc => hc.2 hz
    simp only [policyRmsInsert, wp_bind, wp_get, wp_ite, hstate, if_false]
    exact hfp (by simp [hpol])
  | edf =>
    apply wp_policyEdfInsert h₁ hpol ht hp₁
    intro er hr
    rw [hprio] at hr
    exact hQ _ _ hr (.refl _ _)

theorem wp_policyInsert {Q : Bool → Kernel → Prop}
    (h : ReadyOk cfg k.readySet k.edfReady k.prio R) (ht : ¬ R t)
    (hp : k.prio t < cfg.priorityCount)
    (hrms : cfg.policy = .rms → (k.tasks t).state ≠ .dormant ∨ (k.tasks t).period = 0)
    (hQ : ∀ rs er sequence task, (k.tasks t).SameButRelease task →
      ReadyOk cfg rs er k.prio (fun u => R u ∨ u = t) →
      InTurn k.prio k.prio k.readySet rs →
      Q true (k.requeue t rs er sequence task)) :
    wp (policyInsert cfg t) Q E k :=
  wp_policyInsert_released h ht hp hrms fun rs er =>
    hQ rs er _ _ (k.released_sameButRelease t)

/-! ## Priority changes -/

theorem updateTask_priority_self (k : Kernel) (t : TaskId) :
    (k.updateTask t fun task => { task with priority := (k.tasks t).priority }) = k := by
  simp [Kernel.updateTask]

/-- The queues of the fixed-priority set when `t` moves to the tail of another priority. -/
def movedTo (rs : Nat → List TaskId) (t : TaskId) (p : Nat) : Nat → List TaskId :=
  Function.update (fun q => (rs q).erase t) p ((rs p).erase t ++ [t])

theorem ReadyOk.move (h : ReadyOk cfg rs er prio R) (hpol : cfg.policy ≠ .edf) (ht : R t) {p : Nat}
    (hp : p < cfg.priorityCount) :
    ReadyOk cfg (movedTo rs t p) (er.erase t) (Function.update prio t p) R := by
  have hrem : ReadyOk cfg (fun q => (rs q).erase t) (er.erase t) (Function.update prio t p)
      (fun u => R u ∧ u ≠ t) :=
    (h.remove t).congr_of_mem (fun _ => Iff.rfl) fun u hu => Function.update_of_ne hu.2 _ _
  have hpush := hrem.push (t := t) hpol (by simp) (by simpa using hp)
  simp only [Function.update_self] at hpush
  refine hpush.congr (fun u => ?_) (fun _ => rfl)
  by_cases hu : u = t <;> simp [hu, ht]

theorem ReadyOk.inTurn_move (h : ReadyOk cfg rs er prio R) {p : Nat} (hne : prio t ≠ p) :
    InTurn prio (Function.update prio t p) rs (movedTo rs t p) := by
  intro q
  have hkept : (rs q).filter (fun u => Function.update prio t p u = prio u) = (rs q).erase t := by
    rw [(h.nodup q).erase_eq_filter]
    refine List.filter_congr fun u _ => ?_
    rcases eq_or_ne u t with rfl | hut
    · simp [hne.symm]
    · simp [hut]
  rw [hkept]
  rcases eq_or_ne q p with rfl | hq
  · refine ⟨[t], Function.update_self .., fun u hu => .inr ?_⟩
    rw [List.mem_singleton.mp hu, Function.update_self]
    exact hne.symm
  · exact ⟨[], by rw [movedTo, Function.update_of_ne hq, List.append_nil], by simp⟩

/-- The queues stay when they hold tasks of their priority before and after. -/
theorem ReadyOk.inTurn_stay {er' : List TaskId} (h : ReadyOk cfg rs er prio R)
    (h' : ReadyOk cfg rs er' prio' R') : InTurn prio prio' rs rs := by
  intro p
  refine ⟨[], ?_, by simp⟩
  rw [List.append_nil, List.filter_eq_self.mpr]
  intro t ht
  exact decide_eq_true (((h'.mem p t).mp ht).2.2.trans ((h.mem p t).mp ht).2.2.symm)

theorem wp_policyFpPriorityChanged {Q : Bool → Kernel → Prop} {p : Nat}
    (h : ReadyOk cfg k.readySet k.edfReady k.prio R) (hpol : cfg.policy ≠ .edf) (hp0 : p ≠ 0)
    (hp : p < cfg.priorityCount) (hrange : k.prio t < cfg.priorityCount)
    (hQ : ∀ rs er, ReadyOk cfg rs er (Function.update k.prio t p) R →
      (rs = k.readySet ∨ R t ∧ k.prio t ≠ p ∧ rs = movedTo k.readySet t p) →
      Q true ({ k with readySet := rs, edfReady := er }.updateTask t fun task =>
        { task with priority := p })) :
    wp (policyFpPriorityChanged cfg t p) Q E k := by
  have hvalid : ¬ (p = 0 ∨ cfg.priorityCount ≤ p) := by omega
  simp only [policyFpPriorityChanged, wp_bind, wp_get, wp_ite, hvalid, if_false,
    wp_readyContains hrange, decide_eq_true_eq]
  by_cases hsame : (k.tasks t).priority = p
  · rw [if_pos hsame, wp_pure]
    have hself : Function.update k.prio t p = k.prio := by
      rw [← hsame]
      exact Function.update_eq_self t k.prio
    have hk := hQ k.readySet k.edfReady (by rw [hself]; exact h) (.inl rfl)
    rw [← hsame] at hk
    exact updateTask_priority_self k t ▸ hk
  · rw [if_neg hsame]
    by_cases ht : R t
    · have hc : ReadyContains cfg k t := (readyContains_iff h).mpr ⟨hpol, ht⟩
      rw [if_pos hc]
      refine wp_readyRemove h hpol ht ?_
      have hmove := h.move hpol ht hp
      set k₂ := (k.removeReady t).updateTask t fun task => { task with priority := p } with hk₂
      have hp₂ : (k₂.tasks t).priority = p := by
        simp [hk₂]
      have hnl : ¬ ReadyLinked cfg k₂ t := by
        rintro ⟨q, -, hm⟩
        exact (h.nodup q).not_mem_erase hm
      have hcond : p < cfg.priorityCount ∧ ¬ ReadyLinked cfg k₂ t := ⟨hp, hnl⟩
      have hafter : ReadyContains cfg (k₂.setReadyQueue p (k₂.readySet p ++ [t])) t := by
        refine ⟨?_, ?_⟩
        · change (k₂.tasks t).priority < _
          rwa [hp₂]
        · change t ∈ Function.update k₂.readySet p _ (k₂.tasks t).priority
          rw [hp₂]
          simp
      rw [wp_modify, ← hk₂, readyInsert, wp_bind, wp_get]
      simp only [hp₂]
      rw [wp_ite, if_pos hcond, wp_modify, wp_readyContains hafter.1, decide_eq_true hafter]
      exact hQ _ _ hmove (.inr ⟨ht, hsame, rfl⟩)
    · have hc : ¬ ReadyContains cfg k t := fun hc => ht ((readyContains_iff h).mp hc).2
      rw [if_neg hc]
      simp only [wp_modify, wp_pure]
      refine hQ k.readySet k.edfReady (h.congr_of_mem (fun _ => Iff.rfl) fun u hu => ?_) (.inl rfl)
      rw [Function.update_of_ne]
      rintro rfl
      exact ht hu

theorem wp_policyPriorityChanged {Q : Bool → Kernel → Prop} {p : Nat}
    (h : ReadyOk cfg k.readySet k.edfReady k.prio R) (hp0 : p ≠ 0) (hp : p < cfg.priorityCount)
    (hrange : k.prio t < cfg.priorityCount)
    (hQ : ∀ rs er, ReadyOk cfg rs er (Function.update k.prio t p) R →
      InTurn k.prio (Function.update k.prio t p) k.readySet rs →
      Q true ({ k with readySet := rs, edfReady := er }.updateTask t fun task =>
        { task with priority := p })) :
    wp (policyPriorityChanged cfg t p) Q E k := by
  have hfp : cfg.policy ≠ .edf → wp (policyFpPriorityChanged cfg t p) Q E k := by
    intro hpol
    refine wp_policyFpPriorityChanged h hpol hp0 hp hrange fun rs er hr hrs => hQ rs er hr ?_
    obtain rfl | ⟨-, hne, rfl⟩ := hrs
    · exact h.inTurn_stay hr
    · exact h.inTurn_move hne
  unfold policyPriorityChanged
  cases hpol : cfg.policy with
  | fixedPriority => exact hfp (by simp [hpol])
  | rms => exact hfp (by simp [hpol])
  | edf =>
    have hrange : ¬ (p = 0 ∨ cfg.priorityCount ≤ p) := by omega
    simp only [policyEdfPriorityChanged, hrange, if_false, wp_bind, wp_modify, wp_pure]
    have hready : ReadyOk cfg k.readySet k.edfReady (Function.update k.prio t p) R := by
      refine ⟨h.nodup, ?_, h.edf_nodup, h.edf_mem, ?_⟩
      · intro q u
        rw [h.mem]
        simp [hpol]
      · intro u hu
        by_cases hut : u = t
        · subst hut
          simpa using hp
        · rw [Function.update_of_ne hut]
          exact h.range u hu
    exact hQ k.readySet k.edfReady hready (h.inTurn_stay hready)

/-! ## Selection -/

theorem highestBelow_eq_some {queues : Nat → List TaskId} {n : Nat} :
    highestBelow queues n = some t ↔
      ∃ p < n, (queues p).head? = some t ∧ ∀ q, p < q → q < n → queues q = [] := by
  induction n with
  | zero => simp [highestBelow]
  | succ n ih =>
    cases hq : queues n with
    | nil =>
      simp only [highestBelow, hq, ih]
      constructor
      · rintro ⟨p, hp, hhead, habove⟩
        refine ⟨p, by omega, hhead, fun q hpq hqn => ?_⟩
        by_cases hqe : q = n
        · rw [hqe, hq]
        · exact habove q hpq (by omega)
      · rintro ⟨p, hp, hhead, habove⟩
        have hpn : p ≠ n := by
          rintro rfl
          simp [hq] at hhead
        exact ⟨p, by omega, hhead, fun q hpq hqn => habove q hpq (by omega)⟩
    | cons a l =>
      simp only [highestBelow, hq]
      constructor
      · intro ha
        exact ⟨n, by omega, by simpa [hq] using ha, fun q h₁ h₂ => by omega⟩
      · rintro ⟨p, hp, hhead, habove⟩
        have hpn : p = n := by
          by_contra hne
          simp [habove n (by omega) (by omega)] at hq
        subst hpn
        simpa [hq] using hhead

theorem highestBelow_eq_none {queues : Nat → List TaskId} {n : Nat} :
    highestBelow queues n = none ↔ ∀ p < n, queues p = [] := by
  induction n with
  | zero => simp [highestBelow]
  | succ n ih =>
    cases hq : queues n with
    | nil =>
      simp only [highestBelow, hq, ih]
      constructor
      · intro h p hp
        by_cases hpn : p = n
        · rw [hpn, hq]
        · exact h p (by omega)
      · exact fun h p hp => h p (by omega)
    | cons a l =>
      simp only [highestBelow, hq, reduceCtorEq, false_iff, not_forall]
      exact ⟨n, by omega, by simp [hq]⟩

/-- The selected task is ready. -/
theorem policyPickNext_mem (h : ReadyOk cfg k.readySet k.edfReady k.prio R)
    (hpick : policyPickNext cfg k = some t) : R t := by
  have hfp : readyPeekHighest cfg k = some t → R t := by
    intro hp
    obtain ⟨p, -, hhead, -⟩ := highestBelow_eq_some.mp hp
    exact ((h.mem p t).mp (List.mem_of_head? hhead)).2.1
  unfold policyPickNext at hpick
  split at hpick
  · exact hfp hpick
  · exact hfp hpick
  · exact ((h.edf_mem t).mp (List.mem_of_head? hpick)).2

/-- While some task is ready, a task is selected. -/
theorem policyPickNext_ne_none (h : ReadyOk cfg k.readySet k.edfReady k.prio R) (ht : R t) :
    policyPickNext cfg k ≠ none := by
  have hfp : cfg.policy ≠ .edf → readyPeekHighest cfg k ≠ none := by
    intro hpol hnone
    have hempty := highestBelow_eq_none.mp hnone (k.prio t) (h.range t ht)
    have hm : t ∈ k.readySet (k.prio t) := (h.mem _ _).mpr ⟨hpol, ht, rfl⟩
    simp [hempty] at hm
  unfold policyPickNext
  cases hpol : cfg.policy with
  | fixedPriority => exact hfp (by simp [hpol])
  | rms => exact hfp (by simp [hpol])
  | edf =>
    have hm : t ∈ k.edfReady := (h.edf_mem t).mpr ⟨hpol, ht⟩
    simp only [ne_eq, List.head?_eq_none_iff]
    exact List.ne_nil_of_mem hm

theorem head?_erase_of_ne {l : List TaskId} (h : l.head? = some u) (hu : u ≠ t) :
    (l.erase t).head? = some u := by
  cases l with
  | nil => simp at h
  | cons a l =>
    simp only [List.head?_cons, Option.some.injEq] at h
    subst h
    rw [List.erase_cons_tail (by simpa using hu)]
    rfl

/-- Removing a task that is not the selected one does not change the selection. -/
theorem policyPickNext_removeReady (hpick : policyPickNext cfg k = some u) (hu : u ≠ t) :
    policyPickNext cfg (k.removeReady t) = some u := by
  have hfp : readyPeekHighest cfg k = some u → readyPeekHighest cfg (k.removeReady t) = some u := by
    intro hp
    obtain ⟨p, hpn, hhead, habove⟩ := highestBelow_eq_some.mp hp
    refine highestBelow_eq_some.mpr ⟨p, hpn, head?_erase_of_ne hhead hu, fun q hpq hqn => ?_⟩
    simp [habove q hpq hqn]
  unfold policyPickNext at *
  split at hpick
  · exact hfp hpick
  · exact hfp hpick
  · exact head?_erase_of_ne hpick hu

/-- Rotating the queue of the selected task selects its peer. -/
theorem highestBelow_rotate {queues : Nat → List TaskId} {n p : Nat} {a b : TaskId}
    {l : List TaskId} (hq : queues p = a :: b :: l) (hnodup : (queues p).Nodup)
    (hunique : ∀ q, t ∈ queues q → q = p) (hpick : highestBelow queues n = some t) :
    highestBelow (Function.update queues p (b :: l ++ [a])) n ≠ some t := by
  obtain ⟨q, hqn, hhead, habove⟩ := highestBelow_eq_some.mp hpick
  obtain rfl := hunique q (List.mem_of_head? hhead)
  have hat : a = t := by simpa [hq] using hhead
  have hbt : b ≠ t := by
    rw [hq] at hnodup
    rintro rfl
    simp [hat] at hnodup
  have hpick' : highestBelow (Function.update queues q (b :: l ++ [a])) n = some b := by
    refine highestBelow_eq_some.mpr ⟨q, hqn, by simp, fun r hqr hrn => ?_⟩
    rw [Function.update_of_ne (by omega)]
    exact habove r hqr hrn
  rw [hpick']
  simpa using hbt

/-! ## Yield and time slice -/

theorem requeue_updateTask (k : Kernel) (t : TaskId) (f : Tcb → Tcb) (sequence : Tick)
    (task : Tcb) :
    (k.updateTask t f).requeue t rs er sequence task = k.requeue t rs er sequence task := by
  simp [Kernel.requeue]

theorem mem_of_successor {next : TaskId} {l : List TaskId} (h : successor t l = some next) :
    t ∈ l := by
  induction l with
  | nil => simp [successor] at h
  | cons a l ih =>
    cases l with
    | nil => simp [successor] at h
    | cons b l =>
      by_cases hat : a = t
      · simp [hat]
      · rw [successor, if_neg hat] at h
        exact List.mem_cons_of_mem a (ih h)

/-- A fixed-priority yield that moves the selected task gives way to another. -/
theorem wp_policyFpYield {Q : Bool → Kernel → Prop}
    (h : ReadyOk cfg k.readySet k.edfReady k.prio R) (hp : k.prio t < cfg.priorityCount)
    (hfalse : Q false k)
    (htrue : ∀ rs er sequence task, (k.tasks t).SameButRelease task →
      ReadyOk cfg rs er k.prio R → (highestBelow k.readySet cfg.priorityCount = some t →
        highestBelow rs cfg.priorityCount ≠ some t) → Q true (k.requeue t rs er sequence task)) :
    wp (policyFpYield cfg t) Q E k := by
  rw [policyFpYield, wp_bind, wp_readyContains hp, wp_ite]
  split
  · exact hfalse
  rename_i hlinked
  have hc : ReadyContains cfg k t := by simpa using hlinked
  rw [wp_bind, wp_readyHasPeer hc, wp_ite]
  split <;> rename_i hpeer
  · exact hfalse
  · have hlen : 1 < (k.readySet (k.tasks t).priority).length := by
      simp only [decide_eq_false_iff_not, not_not] at hpeer
      exact hpeer.2
    obtain ⟨a, b, l, hl⟩ : ∃ a b l, k.readySet (k.tasks t).priority = a :: b :: l := by
      rcases hq : k.readySet (k.tasks t).priority with _ | ⟨a, _ | ⟨b, l⟩⟩
      · simp [hq] at hlen
      · simp [hq] at hlen
      · exact ⟨a, b, l, rfl⟩
    simp only [readyRotate, wp_bind, wp_get, hl, if_pos hc.1, wp_modify, wp_pure]
    have hperm : (b :: l ++ [a]).Perm (k.readySet (k.tasks t).priority) := by
      rw [hl]
      exact List.perm_append_comm
    have hk := htrue _ _ k.policyReleaseSequence (k.tasks t) (.refl _) (h.reorder hperm)
      (highestBelow_rotate hl (h.nodup _) fun q hm => ((h.mem q t).mp hm).2.2.symm)
    simpa [Kernel.requeue, Kernel.setReadyQueue] using hk

theorem wp_policyEdfYield {Q : Bool → Kernel → Prop}
    (h : ReadyOk cfg k.readySet k.edfReady k.prio R) (hfalse : Q false k)
    (htrue : ∀ rs er sequence task, (k.tasks t).SameButRelease task →
      ReadyOk cfg rs er k.prio R → Q true (k.requeue t rs er sequence task)) :
    wp (policyEdfYield t) Q E k := by
  simp only [policyEdfYield, wp_bind, wp_get]
  cases hnext : successor t k.edfReady with
  | none => exact hfalse
  | some next =>
    have hm : t ∈ k.edfReady := mem_of_successor hnext
    obtain ⟨hpol, ht⟩ := (h.edf_mem t).mp hm
    simp only [wp_ite]
    split
    · exact hfalse
    · have hrem : ReadyOk cfg k.readySet (k.edfReady.erase t) k.prio (fun u => R u ∧ u ≠ t) :=
        ⟨h.nodup, fun p u => by rw [h.mem]; simp [hpol], (h.remove t).edf_nodup,
          (h.remove t).edf_mem, (h.remove t).range⟩
      simp only [policyEdfRemove, wp_bind, wp_get, wp_ite, hm, if_true, wp_modify, wp_pure]
      set sequence := nextReleaseSequence k.policyReleaseSequence
      set task : Tcb := { k.tasks t with releaseSequence := sequence }
      have htask : (k.tasks t).SameButRelease task := rfl
      set k₁ := k.requeue t k.readySet (k.edfReady.erase t) sequence task
      have hprio : k₁.prio = k.prio := prio_requeue htask
      change wp (policyEdfInsert t) Q E k₁
      apply wp_policyEdfInsert (R := fun u => R u ∧ u ≠ t) (by rw [hprio]; exact hrem) hpol
        (by simp)
      · rw [hprio]
        exact h.range t ht
      · intro er hr
        rw [hprio] at hr
        refine htrue _ _ _ _ htask (hr.congr (fun u => ?_) fun _ => rfl)
        by_cases hu : u = t <;> simp [hu, ht]

theorem wp_policyYield {Q : Bool → Kernel → Prop}
    (h : ReadyOk cfg k.readySet k.edfReady k.prio R) (hp : k.prio t < cfg.priorityCount)
    (hfalse : Q false k)
    (htrue : ∀ rs er sequence task, (k.tasks t).SameButRelease task →
      ReadyOk cfg rs er k.prio R → (cfg.policy ≠ .edf → policyPickNext cfg k = some t →
        policyPickNext cfg (k.requeue t rs er sequence task) ≠ some t) →
      Q true (k.requeue t rs er sequence task)) :
    wp (policyYield cfg t) Q E k := by
  unfold policyYield
  cases hpol : cfg.policy with
  | fixedPriority | rms =>
    refine wp_policyFpYield h hp hfalse fun rs er sequence task hsame hr hmove => ?_
    refine htrue rs er sequence task hsame hr fun _ hpick => ?_
    simp only [policyPickNext, hpol] at hpick ⊢
    exact hmove hpick
  | edf =>
    refine wp_policyEdfYield h hfalse fun rs er sequence task hsame hr => ?_
    exact htrue rs er sequence task hsame hr fun hne => absurd hpol hne

theorem wp_policyTick {Q : Bool → Kernel → Prop} {elapsed : Tick}
    (h : ReadyOk cfg k.readySet k.edfReady k.prio R)
    (hrun : ∀ c, k.currentTask = some c → (k.tasks c).state = .running → R c) (hskip : Q false k)
    (hfalse : ∀ c task, k.currentTask = some c → (k.tasks c).SameButRelease task →
      Q false (k.requeue c k.readySet k.edfReady k.policyReleaseSequence task))
    (htrue : ∀ c rs er sequence task, k.currentTask = some c → (k.tasks c).SameButRelease task →
      ReadyOk cfg rs er k.prio R → Q true (k.requeue c rs er sequence task)) :
    wp (policyTick cfg elapsed) Q E k := by
  have hslice : ∀ c slice, k.currentTask = some c →
      Q false (k.updateTask c fun task => { task with sliceRemaining := slice }) := by
    intro c slice hc
    have := hfalse c { k.tasks c with sliceRemaining := slice } hc rfl
    simpa [Kernel.requeue, Kernel.updateTask] using this
  have hrequeue : ∀ c slice, k.currentTask = some c →
      ReadyOk cfg k.readySet k.edfReady
        (k.updateTask c fun task => { task with sliceRemaining := slice }).prio R := by
    intro c slice _
    refine h.congr (fun _ => Iff.rfl) fun u => ?_
    by_cases hu : u = c
    · subst hu
      simp [Kernel.prio]
    · simp [Kernel.prio, Function.update_of_ne hu]
  have hyield : ∀ c slice, k.currentTask = some c → ∀ rs er sequence task,
      (((k.updateTask c fun task => { task with sliceRemaining := slice }).tasks c).SameButRelease
        task) →
      ReadyOk cfg rs er
        (k.updateTask c fun task => { task with sliceRemaining := slice }).prio R →
      Q true ((k.updateTask c fun task => { task with sliceRemaining := slice }).requeue
        c rs er sequence task) := by
    intro c slice hc rs er sequence task htask hr
    rw [requeue_updateTask]
    have hprio : (k.updateTask c fun task => { task with sliceRemaining := slice }).prio = k.prio :=
      prio_update (by simp)
    rw [hprio] at hr
    refine htrue c rs er sequence task hc (Tcb.SameButRelease.trans ?_ htask) hr
    simp [Tcb.SameButRelease]
  unfold policyTick
  cases hc : k.currentTask with
  | none =>
    cases cfg.policy <;> simp [policyFpTick, policyEdfTick, hc, hskip]
  | some c =>
    have hfp : cfg.policy ≠ .edf → wp (policyFpTick cfg elapsed) Q E k := by
      intro hpol
      simp only [policyFpTick, wp_bind, wp_get, hc, wp_ite]
      split
      · exact hskip
      · rename_i hgo
        have hready : R c := hrun c hc (by simp only [not_or, not_not] at hgo; exact hgo.2.1)
        have hlinked : ReadyContains cfg k c := (readyContains_iff h).mpr ⟨hpol, hready⟩
        rw [wp_readyIsFront hlinked]
        split
        · exact hskip
        · split
          · exact hslice c _ hc
          · exact wp_policyFpYield (hrequeue c _ hc) ((hrequeue c _ hc).range c hready)
              (hslice c _ hc)
              fun rs er sequence task hsame hr _ => hyield c _ hc rs er sequence task hsame hr
    have hedf : wp (policyEdfTick cfg elapsed) Q E k := by
      simp only [policyEdfTick, wp_bind, wp_get, hc, wp_ite]
      split
      · exact hskip
      · split
        · exact hslice c _ hc
        · exact wp_policyEdfYield (hrequeue c _ hc) (hslice c _ hc) (hyield c _ hc)
    cases hpol : cfg.policy with
    | fixedPriority | rms => exact hfp (by simp [hpol])
    | edf => exact hedf

end RtsKernel
