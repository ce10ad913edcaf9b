import RtsKernel.Operation.Preservation
import RtsKernel.Model.Run

/-!
# Rate-monotonic ranks

While the application is being built under RMS, every creation ranks the tasks anew: one after the
other, each task leaves its queue for the one of its new rank. Between two creations the priority of
a task is one more than the number of tasks of longer period, and each queue holds the tasks of one
period in the order of their creation.

## Main results

* `Ranked.of_created`: a creation keeps the ranks and the order in the queues.
* `Ranked.queue`: the queue of a rank is what remains of the list of created tasks.
* `rms_ranks_created_tasks`: ranks, queues and pick after any sequence of creations.
-/

namespace RtsKernel

open Halting Prog

variable {cfg : Config} {k k₁ k' : Kernel} {created : List TaskId} {t u : TaskId} {ev : Event}
  {i j p : Nat}

/-! ## Runs -/

/-- The events that build the application. -/
def Event.Builds : Event → Prop
  | .init _ _ | .taskCreate _ _ _ _ => True
  | _ => False

instance (ev : Event) : Decidable ev.Builds := by
  induction ev using Event.casesOn <;> dsimp only [Event.Builds] <;> infer_instance

/-- The handles that the creations have answered, the oldest first. -/
def noteCreated (cfg : Config) (created : List TaskId) (k : Kernel) (ev : Event) (_ : Kernel) :
    List TaskId :=
  match ev with
  | .taskCreate isr config outHandle stack =>
    match (taskCreate cfg isr config outHandle stack k).value? with
    | some (.ok, some t) => created ++ [t]
    | _ => created
  | _ => created

/-- A sequence of calls of `rts_init` and `rts_task_create` from reset, successful or not, that has
created the tasks `created` in this order. -/
abbrev CreationRun (cfg : Config) : Kernel → List TaskId → Prop :=
  Transition.Observed (Step cfg) (fun _ ev => ev.Builds) (noteCreated cfg) resetKernel []

/-! ## Ranks -/

/-- One more than the number of created tasks of longer period. -/
def Kernel.rank (cfg : Config) (k : Kernel) (i : Nat) : Nat :=
  1 + (List.range cfg.maxTasks).countP fun j =>
    decide (j < k.allocatedCount ∧ (k.tasks (.slot i)).period < (k.tasks (.slot j)).period)

theorem Kernel.rank_le_of_period (h : (k.tasks (.slot i)).period ≤ (k.tasks (.slot j)).period) :
    k.rank cfg j ≤ k.rank cfg i := by
  apply Nat.add_le_add_left
  apply List.countP_mono_left
  intro m _ hm
  rw [decide_eq_true_eq] at hm ⊢
  exact ⟨hm.1, by bv_omega⟩

/-- A stronger condition that fails where a weaker one holds counts fewer elements. -/
theorem countP_lt_countP {α : Type} {l : List α} {f g : α → Bool} {a : α}
    (h : ∀ x ∈ l, f x = true → g x = true) (ha : a ∈ l) (hg : g a = true) (hf : f a = false) :
    l.countP f < l.countP g := by
  have hboth : l.countP f = (l.filter g).countP f := by
    rw [List.countP_filter]
    refine List.countP_congr fun x hx => ?_
    simpa using h x hx
  rw [hboth, List.countP_eq_length_filter (p := g), List.countP_lt_length_iff]
  exact ⟨a, List.mem_filter.mpr ⟨ha, hg⟩, hf⟩

theorem Kernel.rank_lt_of_period (hj : j < k.allocatedCount) (hmax : j < cfg.maxTasks)
    (h : (k.tasks (.slot i)).period < (k.tasks (.slot j)).period) :
    k.rank cfg j < k.rank cfg i := by
  apply Nat.add_lt_add_left
  -- slot `j` counts for `i` and not for itself
  refine countP_lt_countP (a := j) (fun m _ hm => ?_) (by simpa using hmax) (by simpa using ⟨hj, h⟩)
    (by simp)
  rw [decide_eq_true_eq] at hm ⊢
  exact ⟨hm.1, BitVec.lt_trans h hm.2⟩

theorem Kernel.rank_pos : 0 < k.rank cfg i := by
  unfold Kernel.rank
  omega

theorem Pool.allocated_iff (hp : Pool cfg k) (hk : Unstarted cfg k) :
    (k.tasks (.slot i)).slotState = .allocated ↔ i < k.allocatedCount := by
  rw [← hp.taken i]
  constructor
  · intro ha hd
    simp [hp.fresh _ hd] at ha
  · exact fun hne => ((hk.tasks _).valid hne).allocated

section Created

variable {config : TaskConfig} {stackPointer : Nat}

theorem Created.count (h : Created cfg k config stackPointer k₁ k') :
    k'.allocatedCount = k.allocatedCount + 1 := by rw [h.frame_eq]

theorem Created.period_eq (h : Created cfg k config stackPointer k₁ k') (u : TaskId) :
    (k'.tasks u).period =
      ((k.reserve cfg k.allocatedCount (config.object cfg stackPointer)).tasks u).period := by
  rcases eq_or_ne u (.slot k.allocatedCount) with rfl | hu
  · obtain ⟨_, _, _, heq⟩ := h.inserted_new
    rw [h.new, Tcb.committed, heq, Kernel.reserve_self]
  · rw [h.other hu, Kernel.reserve_of_ne _ _ hu]

theorem Created.included_iff (h : Created cfg k config stackPointer k₁ k') (hp : Pool cfg k)
    (hk : Unstarted cfg k) (j : Nat) :
    RmsIncluded (k.reserve cfg k.allocatedCount (config.object cfg stackPointer))
      (.slot k.allocatedCount) (.slot j) ↔ j < k'.allocatedCount := by
  unfold RmsIncluded
  rw [h.count]
  rcases eq_or_ne j k.allocatedCount with rfl | hj
  · simp
  · have hne : TaskId.slot j ≠ .slot k.allocatedCount := by simpa using hj
    rw [Kernel.reserve_of_ne _ _ hne, hp.allocated_iff hk]
    simp only [hne, false_or]
    omega

theorem Kernel.rank_le (hi : i < k.allocatedCount) (hle : k.allocatedCount ≤ cfg.maxTasks) :
    k.rank cfg i ≤ cfg.maxTasks := by
  have hlt : ((List.range cfg.maxTasks).countP fun j => decide (j < k.allocatedCount ∧
      (k.tasks (.slot i)).period < (k.tasks (.slot j)).period)) <
      (List.range cfg.maxTasks).length :=
    List.countP_lt_length_iff.mpr ⟨i, by simpa using lt_of_lt_of_le hi hle, by simp⟩
  rw [List.length_range] at hlt
  unfold Kernel.rank
  omega

/-- The ranking done with a new task in the next slot is the one of the state it leads to. -/
theorem Created.rank_eq (h : Created cfg k config stackPointer k₁ k') (hp : Pool cfg k)
    (hk : Unstarted cfg k) (i : Nat) :
    rmsRank cfg (k.reserve cfg k.allocatedCount (config.object cfg stackPointer))
      (.slot k.allocatedCount) (.slot i) = k'.rank cfg i := by
  unfold rmsRank Kernel.rank
  congr 1
  refine List.countP_congr fun j _ => ?_
  simp only [h.included_iff hp hk, h.period_eq]

end Created

theorem Kernel.InOrder.congr (h : k.InOrder) (hready : k'.readySet = k.readySet)
    (hperiod : ∀ p, ∀ u ∈ k.readySet p, (k'.tasks u).period = (k.tasks u).period) : k'.InOrder := by
  intro p
  rw [hready]
  refine (h p).imp_of_mem fun {a b} ha hb hab heq => hab ?_
  rwa [hperiod p a ha, hperiod p b hb] at heq

/-! ## The invariant -/

/-- The tasks created so far are ranked by their periods, and those of one period are queued in the
order of their creation. -/
structure Ranked (cfg : Config) (k : Kernel) (created : List TaskId) : Prop where
  lifecycle : k.lifecycle ≠ .running
  created : created = (List.range k.allocatedCount).map .slot
  rank : ∀ i < k.allocatedCount, k.prio (.slot i) = k.rank cfg i
  order : k.InOrder

namespace Ranked

/-- There is nothing to rank before the first creation. -/
theorem of_empty (h : Sound cfg k) (hl : k.lifecycle ≠ .running) (hcount : k.allocatedCount = 0) :
    Ranked cfg k [] := by
  refine ⟨hl, by simp [hcount], fun i hi => by omega, fun p => ?_⟩
  refine List.Pairwise.imp_of_mem (R := fun _ _ => True) ?_
    (List.pairwise_of_forall fun _ _ => trivial)
  intro a b ha _ _ _
  have hr := ((h.ok.inv.unstarted hl).ready.mem p a |>.mp ha).2.1
  cases a with
  | slot i =>
    have := ((h.pool hl).taken i).mp hr.not_dormant
    omega
  | idle => exact trivial
  | timerService => exact trivial

theorem period_lt_iff (h : Ranked cfg k created) (hp : Pool cfg k) (hi : i < k.allocatedCount)
    (hj : j < k.allocatedCount) : k.prio (.slot j) < k.prio (.slot i) ↔
      (k.tasks (.slot i)).period < (k.tasks (.slot j)).period := by
  rw [h.rank i hi, h.rank j hj]
  constructor
  · intro hlt
    by_contra hnot
    have hle : k.rank cfg i ≤ k.rank cfg j := Kernel.rank_le_of_period (BitVec.not_lt.mp hnot)
    omega
  · exact Kernel.rank_lt_of_period hj (lt_of_lt_of_le hj hp.count_le)

theorem prio_eq_iff (h : Ranked cfg k created) (hp : Pool cfg k) (hi : i < k.allocatedCount)
    (hj : j < k.allocatedCount) : k.prio (.slot i) = k.prio (.slot j) ↔
      (k.tasks (.slot i)).period = (k.tasks (.slot j)).period := by
  have hij := h.period_lt_iff hp hi hj
  have hji := h.period_lt_iff hp hj hi
  constructor
  · intro heq
    exact BitVec.le_antisymm (BitVec.not_lt.mp fun hlt => by have := hji.mpr hlt; omega)
      (BitVec.not_lt.mp fun hlt => by have := hij.mpr hlt; omega)
  · intro heq
    rw [heq, iff_false_right (BitVec.lt_irrefl _)] at hij hji
    omega

/-- Before the new task is inserted, the tasks of one period share a queue. -/
theorem orderly (h : Ranked cfg k created) (hp : Pool cfg k) (hk : Unstarted cfg k) (task : Tcb) :
    Orderly (k.reserve cfg k.allocatedCount task) (fun u => (k.tasks u).Runnable)
      (List.range cfg.maxTasks) := by
  have hslot : ∀ i, (k.tasks (.slot i)).Runnable → i < k.allocatedCount := fun i hr =>
    (hp.taken i).mp hr.not_dormant
  have hold : ∀ i, i ≠ k.allocatedCount →
      (k.reserve cfg k.allocatedCount task).tasks (.slot i) = k.tasks (.slot i) := fun i hi =>
    Kernel.reserve_of_ne _ _ (by simpa using hi)
  constructor
  · refine h.order.congr rfl fun p u hu => ?_
    rw [Kernel.reserve_of_ne]
    rintro rfl
    have := hslot _ ((hk.ready.mem p _).mp hu).2.1
    omega
  · intro i _ j hr heq
    have hj := hslot j hr
    -- the slots from the new one on come after every created task
    rcases Nat.lt_or_ge j i with hlt | hge
    · exact .inr hlt
    · refine .inl ⟨?_, List.mem_range.mpr (lt_of_lt_of_le hj hp.count_le)⟩
      rw [hold i (by omega), hold j (by omega)] at heq
      change ((k.reserve cfg _ task).tasks _).priority = ((k.reserve cfg _ task).tasks _).priority
      rw [hold i (by omega), hold j (by omega)]
      exact (h.prio_eq_iff hp hj (by omega)).mpr heq

theorem of_created {config : TaskConfig} {stackPointer : Nat} (hpol : cfg.policy = .rms)
    (h : Ranked cfg k created) (hs : Sound cfg k) (hc : Created cfg k config stackPointer k₁ k') :
    Ranked cfg k' (created ++ [.slot k.allocatedCount]) := by
  have hpool := hs.pool h.lifecycle
  have hun := hs.ok.inv.unstarted h.lifecycle
  have hslot : ∀ i, (k.tasks (.slot i)).Runnable → i < k.allocatedCount := fun i hr =>
    (hpool.taken i).mp hr.not_dormant
  refine ⟨?_, ?_, fun i hi => ?_, ?_⟩
  · rw [hc.frame_eq]
    exact h.lifecycle
  · rw [hc.count, List.range_succ, List.map_append, h.created]
    rfl
  · rw [← hc.rank_eq hpool hun, hc.prio_eq]
    exact hc.inserted.ranked hpol i (lt_of_lt_of_le hi (hc.pool hpool).count_le)
      ((hc.included_iff hpool hun i).mpr hi)
  · refine (hc.inserted.ordered hpol (h.orderly hpool hun _) hslot).congr (by rw [hc.frame]) ?_
    intro p u _
    rw [hc.period_eq, hc.inserted.task]
    split
    · simp [*, Kernel.released]
    · rfl

/-! ## Runs of creations -/

theorem init {isr : Bool} {port : InitAnswers} (h : Ranked cfg k created) (hs : Sound cfg k)
    (hstep : Step cfg k (.init isr port) k') : Ranked cfg k' created := by
  obtain ⟨status, hret⟩ := exists_ret_of_discard hstep.2
  have hinits : Inits cfg k status k' := (wp_ret (init_spec hs.ok hs.timersOk) hret :)
  have hsound := hs.step hstep
  -- a reset kernel has created no tasks
  have hfresh : k.lifecycle = .reset → k'.lifecycle ≠ .running → k'.allocatedCount = 0 →
      Ranked cfg k' created := by
    intro hreset hl' hcount'
    have hcount : k.allocatedCount = 0 := by
      by_contra hne
      exact ((hs.pool h.lifecycle).taken 0).mpr (by omega)
        ((hs.ok.inv.unstarted h.lifecycle).reset hreset _)
    have hnone : created = [] := by simpa [hcount] using h.created
    rw [hnone]
    exact of_empty hsound hl' hcount'
  by_cases hok : status = .ok
  · obtain ⟨hreset, _, _, hdone⟩ := hinits.done hok
    exact hfresh hreset (by rw [hdone.frame]; simp) (by rw [hdone.frame]; rfl)
  · rcases hinits.failed hok with ⟨rfl, hreset⟩ | rfl
    · exact hfresh hreset (by simp [kernelRestoreReset]) rfl
    · exact h

theorem create {isr : Bool} {config : Option TaskConfig} {stack : StackAnswer}
    (hpol : cfg.policy = .rms) (h : Ranked cfg k created) (hs : Sound cfg k)
    (hstep : Step cfg k (.taskCreate isr config outHandle stack) k') :
    Ranked cfg k' (noteCreated cfg created k (.taskCreate isr config outHandle stack) k') := by
  obtain ⟨⟨status, handle⟩, hret⟩ := exists_ret_of_discard hstep.2
  have hcreates : Creates cfg k config (status, handle) k' :=
    (wp_ret (taskCreate_spec hs.ok hs.timersOk hs.pool) hret :)
  have hvalue : (taskCreate cfg isr config outHandle stack k).value? = some (status, handle) := by
    rw [hret]
    rfl
  by_cases hok : status = .ok
  · obtain ⟨config', stackPointer, k₁, -, hcreated, hhandle⟩ := hcreates.done hok
    obtain rfl : handle = some (.slot k.allocatedCount) := hhandle
    subst hok
    simp only [noteCreated, hvalue]
    exact h.of_created hpol hs hcreated
  · have hnote :
        noteCreated cfg created k (.taskCreate isr config outHandle stack) k' = created := by
      simp only [noteCreated, hvalue]
      split
      · rename_i heq
        exact absurd (congrArg Prod.fst (Option.some.inj heq)) hok
      · rfl
    rw [hnote, hcreates.failed hok]
    exact h

theorem run (hpol : cfg.policy = .rms) (h : CreationRun cfg k created) :
    Ranked cfg k created := by
  induction h with
  | start => exact of_empty sound_resetKernel (by simp [resetKernel]) rfl
  | @step k k' ev created hrun hev hstep ih =>
    have hs : Sound cfg k := ReachableWhen.sound hrun.reachable
    cases ev with
    | init isr port => exact ih.init hs hstep
    | taskCreate isr config outHandle stack => exact ih.create hpol hs hstep
    | _ => exact hev.elim

/-! ## Queues and pick -/

theorem mem_iff (h : Ranked cfg k created) : t ∈ created ↔ ∃ i < k.allocatedCount, .slot i = t := by
  rw [h.created]
  simp

/-- Only idle is ready besides the created tasks. -/
theorem ready_iff (h : Ranked cfg k created) (hs : Sound cfg k) :
    (k.tasks t).Runnable ∧ 0 < k.prio t ↔ t ∈ created := by
  have hun := hs.ok.inv.unstarted h.lifecycle
  have htaken := (hs.pool h.lifecycle).taken
  rw [h.mem_iff]
  constructor
  · rintro ⟨hr, hprio⟩
    have hvalid := (hun.tasks t).valid hr.not_dormant
    cases t with
    | slot i => exact ⟨i, (htaken i).mp hr.not_dormant, rfl⟩
    | idle =>
      have hzero : k.prio .idle = 0 := (hun.plain .idle).priority.trans (hvalid.base_zero.mpr rfl)
      omega
    | timerService =>
      have hstate := (hun.state .timerService).resolve_left hr.not_dormant
      rcases hr with hr | hr <;> simp [hr] at hstate
  · rintro ⟨i, hi, rfl⟩
    have hstate := (hun.state (.slot i)).resolve_left ((htaken i).mpr hi)
    refine ⟨.inl hstate, ?_⟩
    rw [h.rank i hi]
    exact Kernel.rank_pos

/-- The queue of a rank holds the created tasks of that rank, the oldest first. -/
theorem queue (hpol : cfg.policy = .rms) (h : Ranked cfg k created) (hs : Sound cfg k)
    (hp : 0 < p) : k.readySet p = created.filter fun t => k.prio t = p := by
  have hready := (hs.ok.inv.unstarted h.lifecycle).ready
  have hpool := hs.pool h.lifecycle
  have hmem : ∀ t, t ∈ k.readySet p ↔ t ∈ created ∧ k.prio t = p := by
    intro t
    rw [hready.mem, ← h.ready_iff hs]
    constructor
    · rintro ⟨-, hr, rfl⟩
      exact ⟨⟨hr, hp⟩, rfl⟩
    · rintro ⟨⟨hr, -⟩, hprio⟩
      exact ⟨by simp [hpol], hr, hprio⟩
  have hnodup : created.Nodup := by
    rw [h.created]
    exact List.nodup_range.map fun a b hab => by simpa using hab
  have hprecedes : created.Pairwise TaskId.Precedes := by
    rw [h.created, List.pairwise_map]
    exact List.pairwise_lt_range
  have hanti : ∀ a b, a ∈ k.readySet p → b ∈ created.filter (fun t => k.prio t = p) →
      a.Precedes b → b.Precedes a → a = b := by
    intro a b ha hb hab hba
    obtain ⟨i, -, rfl⟩ := h.mem_iff.mp ((hmem a).mp ha).1
    obtain ⟨j, -, rfl⟩ := h.mem_iff.mp (List.mem_filter.mp hb).1
    exact absurd hba (Nat.lt_asymm hab)
  have hqueue : (k.readySet p).Pairwise TaskId.Precedes := by
    -- tasks of one rank are of one period
    refine (h.order p).imp_of_mem fun {a b} ha hb hab => hab ?_
    obtain ⟨ha, hpa⟩ := (hmem a).mp ha
    obtain ⟨hb, hpb⟩ := (hmem b).mp hb
    obtain ⟨i, hi, rfl⟩ := h.mem_iff.mp ha
    obtain ⟨j, hj, rfl⟩ := h.mem_iff.mp hb
    exact (h.prio_eq_iff hpool hi hj).mp (hpa.trans hpb.symm)
  refine List.Perm.eq_of_pairwise hanti hqueue (hprecedes.filter _) ?_
  refine (List.perm_ext_iff_of_nodup (hready.nodup p) (hnodup.filter _)).mpr fun t => ?_
  simp [hmem]

/-- The policy selects the oldest of the tasks of the shortest period. -/
theorem pick (hpol : cfg.policy = .rms) (h : Ranked cfg k created) (hs : Sound cfg k)
    (hne : created ≠ []) : policyPickNext cfg k =
      created.find? fun t => ∀ u ∈ created, (k.tasks t).period ≤ (k.tasks u).period := by
  have hready := (hs.ok.inv.unstarted h.lifecycle).ready
  have hlinked : ∀ t ∈ created, t ∈ k.readySet (k.prio t) ∧ k.prio t < cfg.priorityCount := by
    intro t ht
    obtain ⟨hr, -⟩ := (h.ready_iff hs).mpr ht
    exact ⟨(hready.mem _ t).mpr ⟨by simp [hpol], hr, rfl⟩, hready.range t hr⟩
  have hperiod : ∀ t ∈ created, ∀ u ∈ created,
      (k.prio u < k.prio t ↔ (k.tasks t).period < (k.tasks u).period) := by
    intro t ht u hu
    obtain ⟨i, hi, rfl⟩ := h.mem_iff.mp ht
    obtain ⟨j, hj, rfl⟩ := h.mem_iff.mp hu
    exact h.period_lt_iff (hs.pool h.lifecycle) hi hj
  have hpick : policyPickNext cfg k = highestBelow k.readySet cfg.priorityCount := by
    simp [policyPickNext, hpol, readyPeekHighest]
  rw [hpick]
  cases hfirst : highestBelow k.readySet cfg.priorityCount with
  | none =>
    obtain ⟨t, ht⟩ := List.exists_mem_of_ne_nil _ hne
    obtain ⟨hin, hlt⟩ := hlinked t ht
    simp [highestBelow_eq_none.mp hfirst _ hlt] at hin
  | some t =>
    obtain ⟨p, hp, hhead, habove⟩ := highestBelow_eq_some.mp hfirst
    have htop : ∀ u ∈ created, k.prio u ≤ p := by
      intro u hu
      obtain ⟨hin, hlt⟩ := hlinked u hu
      by_contra hgt
      simp [habove _ (by omega) hlt] at hin
    have hpos : 0 < p := by
      obtain ⟨u, hu⟩ := List.exists_mem_of_ne_nil _ hne
      exact lt_of_lt_of_le ((h.ready_iff hs).mpr hu).2 (htop u hu)
    rw [h.queue hpol hs hpos] at hhead
    obtain ⟨ht, hprio⟩ := List.mem_filter.mp (List.mem_of_head? hhead)
    rw [decide_eq_true_eq] at hprio
    rw [← List.head?_filter, ← hhead]
    congr 1
    refine List.filter_congr fun u hu => ?_
    rw [decide_eq_decide]
    constructor
    · rintro rfl v hv
      exact BitVec.not_lt.mp fun hlt => absurd ((hperiod v hv u hu).mpr hlt)
        (by have := htop v hv; omega)
    · intro hmin
      have h1 := mt (hperiod t ht u hu).mp (BitVec.not_lt.mpr (hmin t ht))
      have := htop u hu
      omega

end Ranked

/-- After any sequence of creations, some of which may have failed, the created tasks are ranked by
their periods with base and effective priorities alike, every one of them is linked in the queue of
its rank and in no other, each queue is in the order of creation, and the policy selects the oldest
of the tasks of the shortest period. -/
theorem rms_ranks_created_tasks (hpol : cfg.policy = .rms) (hrun : CreationRun cfg k created) :
    (∀ t ∈ created, ∀ u ∈ created,
      ((k.tasks u).priority < (k.tasks t).priority ↔ (k.tasks t).period < (k.tasks u).period) ∧
      ((k.tasks t).period = (k.tasks u).period → (k.tasks t).priority = (k.tasks u).priority)) ∧
    (∀ t ∈ created, (k.tasks t).basePriority = (k.tasks t).priority ∧
      1 ≤ (k.tasks t).priority ∧ (k.tasks t).priority ≤ cfg.maxTasks) ∧
    (∀ t ∈ created, ∀ p, (k.readySet p).count t = if p = (k.tasks t).priority then 1 else 0) ∧
    (∀ p, 0 < p → k.readySet p = created.filter fun t => (k.tasks t).priority = p) ∧
    (created ≠ [] → policyPickNext cfg k =
      created.find? fun t => ∀ u ∈ created, (k.tasks t).period ≤ (k.tasks u).period) := by
  have hs : Sound cfg k := ReachableWhen.sound hrun.reachable
  have h := Ranked.run hpol hrun
  have hpool := hs.pool h.lifecycle
  have hun := hs.ok.inv.unstarted h.lifecycle
  refine ⟨fun t ht u hu => ?_, fun t ht => ?_, fun t ht p => ?_, fun p hp => h.queue hpol hs hp,
    h.pick hpol hs⟩
  · obtain ⟨i, hi, rfl⟩ := h.mem_iff.mp ht
    obtain ⟨j, hj, rfl⟩ := h.mem_iff.mp hu
    exact ⟨h.period_lt_iff hpool hi hj, (h.prio_eq_iff hpool hi hj).mpr⟩
  · obtain ⟨i, hi, rfl⟩ := h.mem_iff.mp ht
    refine ⟨(hun.plain _).priority.symm, ((h.ready_iff hs).mpr ht).2, ?_⟩
    exact (h.rank i hi).trans_le (Kernel.rank_le hi hpool.count_le)
  · have hr := ((h.ready_iff hs).mpr ht).1
    have hmem : t ∈ k.readySet p ↔ (k.tasks t).priority = p := by
      rw [hun.ready.mem]
      exact ⟨fun hin => hin.2.2, fun heq => ⟨by simp [hpol], hr, heq⟩⟩
    split <;> rename_i hp
    · exact List.count_eq_one_of_mem (hun.ready.nodup p) (hmem.mpr hp.symm)
    · exact List.count_eq_zero_of_not_mem fun hin => hp (hmem.mp hin).symm

/-- Room for three tasks under RMS. -/
def rmsConfig : Config :=
  { sampleConfig with
    maxTasks := 3
    priorityCount := 5
    timerServicePriority := 4
    policy := .rms
    maxTasks_pos := by decide
    priorityCount_range := by decide
    servicePriority_range := by decide
    rms_ranks := by decide }

/-- Creation of a task with the given period. -/
def createPeriodic (period : Tick) (stack : StackAnswer) : Event :=
  .taskCreate false (some ⟨1, 1, 2, true, 1, period, period, 0⟩) true stack

/-- Three tasks, two of them of the longer period; the port refuses one creation in between. -/
def periodicEvents : List Event :=
  [.init false ⟨true, some 8, some 8⟩, createPeriodic 20 ⟨.ok, 8⟩, createPeriodic 5 ⟨.portError, 8⟩,
    createPeriodic 10 ⟨.ok, 8⟩, createPeriodic 20 ⟨.ok, 8⟩]

theorem rms_ranks_created_tasks_three : ∃ k, CreationRun rmsConfig k [.slot 0, .slot 1, .slot 2] ∧
    (k.tasks (.slot 1)).period = 10 ∧ (k.tasks (.slot 0)).period = 20 ∧
    (k.tasks (.slot 0)).priority < (k.tasks (.slot 1)).priority := by
  have hrun : (observe rmsConfig (fun _ ev => ev.Builds) (noteCreated rmsConfig) periodicEvents
      resetKernel []).any (fun r => decide (r.2 = [.slot 0, .slot 1, .slot 2] ∧
        (r.1.tasks (.slot 1)).period = 10 ∧ (r.1.tasks (.slot 0)).period = 20)) = true := by
    decide +kernel
  obtain ⟨k, created, hobserved, rfl, h1, h0⟩ := exists_observed hrun
  refine ⟨k, hobserved, h1, h0, ?_⟩
  refine ((rms_ranks_created_tasks rfl hobserved).1 (.slot 1) (by simp) (.slot 0)
    (by simp)).1.mpr ?_
  rw [h1, h0]
  decide

end RtsKernel
